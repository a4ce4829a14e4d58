import OrionO6.Ec.EndToEnd
import OrionO6.Library.Codes

/-!
# The stream of frames

What a whole session puts on the wire, as one stream of bytes. The byte count of a frame says where
the next one begins, so the stream tells which commands were sent to which service with which
arguments, and nothing else; requests that name no known command leave no trace in it.
-/

namespace OrionO6.Ec

open Serial

/-- What the EC is told by a frame. -/
structure Signature where
  eid : UInt8
  commandCode : UInt8
  arguments : List UInt8

namespace Signature

def frame (signature : Signature) : List UInt8 :=
  frameHeader signature.eid (UInt8.ofNat (9 + signature.arguments.length)) signature.commandCode ++
    signature.arguments

/-- No command of the three services has more arguments. -/
def Fits (signature : Signature) : Prop := signature.arguments.length ≤ 23

/-- The byte count leads from the front of a frame to its end. -/
theorem selfDelimiting : SelfDelimiting frame Fits where
  ne_nil := by
    intro signature _
    exact List.cons_ne_nil _ _
  eq_of_append_eq := by
    intro signature other rest rest' hfits hother happend
    have hcount : UInt8.ofNat (9 + signature.arguments.length) =
        UInt8.ofNat (9 + other.arguments.length) := congrArg (·.getD 2 0) happend
    have hlength := congrArg UInt8.toNat hcount
    rw [UInt8.toNat_ofNat', UInt8.toNat_ofNat'] at hlength
    simp only [Fits] at hfits hother
    rw [frame, frame, List.append_assoc, List.append_assoc] at happend
    obtain ⟨hheader, harguments⟩ := List.append_inj happend rfl
    have heid : signature.eid = other.eid := congrArg (·.getD 5 0) hheader
    have hcommand : signature.commandCode = other.commandCode := congrArg (·.getD 12 0) hheader
    have harguments := (List.append_inj harguments (by omega)).1
    rw [Signature.mk.injEq]
    exact ⟨heid, hcommand, harguments⟩

end Signature

/-- What the EC is told of a request, if it names a known command. -/
def Request.signature? (request : Request) : Option Signature :=
  request.info?.map fun info => {
    eid := request.service.eid
    commandCode := request.msg.commandCode
    arguments := request.msg.arguments info.payloadLen }

theorem Request.fits_of_signature? {request : Request} {signature : Signature}
    (hsignature : request.signature? = some signature) : signature.Fits := by
  obtain ⟨info, hinfo, rfl⟩ := Option.map_eq_some_iff.mp hsignature
  have hle := (Service.commandInfo?_eq_some hinfo).2
  rw [Signature.Fits, MsgSendDirectReq2.length_arguments _ (payloadLen_lt_of_info hinfo)]
  exact hle

theorem Request.map_frame (request : Request) :
    request.info?.map request.frame = request.signature?.map Signature.frame := by
  rw [Request.signature?]
  cases hinfo : request.info? with
  | none => rfl
  | some info =>
      simp only [Option.map_some, Signature.frame, Request.frame, wireFrame,
        MsgSendDirectReq2.length_arguments _ (payloadLen_lt_of_info hinfo)]

theorem flatten_requestFrames (requests : List Request) :
    (requestFrames requests).flatten =
      (requests.filterMap Request.signature?).flatMap Signature.frame := by
  have hframes : requestFrames requests =
      (requests.filterMap Request.signature?).map Signature.frame := by
    rw [requestFrames, List.map_filterMap]
    exact congrArg (List.filterMap · requests) (funext Request.map_frame)
  rw [hframes, List.flatMap_def]

theorem fits_of_mem_signatures {requests : List Request} :
    ∀ signature ∈ requests.filterMap Request.signature?, signature.Fits := by
  intro signature hmem
  obtain ⟨request, -, hsignature⟩ := List.mem_filterMap.mp hmem
  exact request.fits_of_signature? hsignature

/-! ### What a session sends -/

section

variable (odp : OdpFfa) (uart : EcUart)

theorem sends_of_known {request : Request} {info : CommandInfo}
    (hinfo : request.info? = some info) :
    Comp.Sends [request.frame info] (ffaMsgSendDirectReq2 odp uart request) :=
  sends_handleRequest odp hinfo (payloadLen_lt_of_info hinfo)

/-- A session sends the frames of the requests it has taken up, whichever way it ends. -/
theorem exists_sent_session (requests : List Request) (line : Line UInt8) :
    ∃ handled, handled <+: requests ∧
      (session (ffaMsgSendDirectReq2 odp uart) requests line).line.sent =
        line.sent ++ requestFrames handled := by
  induction requests generalizing line with
  | nil => exact ⟨[], List.prefix_refl [], (List.append_nil _).symm⟩
  | cons request requests ih =>
      have hframe : requestFrames [request] = (request.info?.map request.frame).toList := by
        cases hinfo : request.info? <;> simp [requestFrames, hinfo]
      have hsent : ((ffaMsgSendDirectReq2 odp uart request).run line).line.sent =
          line.sent ++ requestFrames [request] := by
        rw [hframe]
        cases hinfo : request.info? with
        | none =>
            rw [ffaMsgSendDirectReq2_of_unknown odp hinfo]
            exact (List.append_nil _).symm
        | some info => exact sends_of_known odp uart hinfo line
      have hone : [request] <+: request :: requests := ⟨requests, rfl⟩
      cases hrun : (ffaMsgSendDirectReq2 odp uart request).run line with
      | done response line' =>
          obtain ⟨handled, hhandled, hlater⟩ := ih line'
          rw [hrun] at hsent
          refine ⟨request :: handled, List.cons_prefix_cons.mpr ⟨rfl, hhandled⟩, ?_⟩
          rw [line_session_cons_of_done _ hrun, hlater]
          have hall : requestFrames (request :: handled) =
              requestFrames [request] ++ requestFrames handled :=
            @List.filterMap_append _ _ [request] handled _
          rw [hall, ← List.append_assoc]
          exact congrArg (· ++ requestFrames handled) hsent
      | blocked line' =>
          rw [hrun] at hsent
          refine ⟨[request], hone, ?_⟩
          rw [session, hrun]
          exact hsent
      | panicked reason line' =>
          rw [hrun] at hsent
          refine ⟨[request], hone, ?_⟩
          rw [session, hrun]
          exact hsent

end

/-- **The stream tells the commands apart.** Two sessions put the same bytes on the wire exactly if
the requests they have taken up told the EC the same, one after the other: whatever the UARTs and
the answers, and however the sessions end. -/
theorem stream_eq_iff (odp otherOdp : OdpFfa) (uart otherUart : EcUart)
    (requests others : List Request) (line otherLine : Line UInt8) :
    ∃ handled handled', handled <+: requests ∧ handled' <+: others ∧
      (session (ffaMsgSendDirectReq2 odp uart) requests line).line.sent =
        line.sent ++ requestFrames handled ∧
      (session (ffaMsgSendDirectReq2 otherOdp otherUart) others otherLine).line.sent =
        otherLine.sent ++ requestFrames handled' ∧
      ((requestFrames handled).flatten = (requestFrames handled').flatten ↔
        handled.filterMap Request.signature? = handled'.filterMap Request.signature?) := by
  obtain ⟨handled, hlead, hsent⟩ := exists_sent_session odp uart requests line
  obtain ⟨handled', hlead', hsent'⟩ := exists_sent_session otherOdp otherUart others otherLine
  refine ⟨handled, handled', hlead, hlead', hsent, hsent', ?_⟩
  rw [flatten_requestFrames, flatten_requestFrames]
  constructor
  · exact Signature.selfDelimiting.eq_of_flatMap_eq fits_of_mem_signatures fits_of_mem_signatures
  · exact congrArg (List.flatMap Signature.frame)

/-- **Refused requests are invisible.** A session goes on in every respect as the one without the
requests that name no known command: the same exchanges on the same lines, and the same end. -/
theorem session_filter_known (odp : OdpFfa) (uart : EcUart) (requests : List Request)
    (line : Line UInt8) :
    session (ffaMsgSendDirectReq2 odp uart) (requests.filter fun request => request.info?.isSome)
        line =
      (session (ffaMsgSendDirectReq2 odp uart) requests line).map
        (List.filter fun exchange => exchange.request.info?.isSome) := by
  induction requests generalizing line with
  | nil => rfl
  | cons request requests ih =>
      cases hinfo : request.info? with
      | none =>
          rw [List.filter_cons_of_neg (by rw [hinfo]; exact Bool.false_ne_true), ih, session,
            ffaMsgSendDirectReq2_of_unknown odp hinfo, Comp.run_pure, Outcome.andThen]
          cases session (ffaMsgSendDirectReq2 odp uart) requests line with
          | done log final => simp [Outcome.andThen, Outcome.map, hinfo]
          | blocked line' => rfl
          | panicked reason line' => rfl
      | some info =>
          rw [List.filter_cons_of_pos (by rw [hinfo]; rfl), session, session]
          cases (ffaMsgSendDirectReq2 odp uart request).run line with
          | done response line' =>
              simp only [Outcome.andThen, ih]
              cases session (ffaMsgSendDirectReq2 odp uart) requests line' with
              | done log final => simp [Outcome.map, hinfo]
              | blocked line' => rfl
              | panicked reason line' => rfl
          | blocked line' => rfl
          | panicked reason line' => rfl

end OrionO6.Ec
