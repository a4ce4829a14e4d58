import OrionO6.Ec.Fifo

/-!
# Replies on the registers

An EC that answers every frame of a session puts a row of replies on its line. Handled on a line that
holds them all, the requests are answered in order; a session on the registers of the UART takes the
same bytes off its queue, as far as they have arrived, and ends no other way.
-/

namespace OrionO6.Ec

open Serial

/-- What the requests put on the wire, in order: a frame for each one that names a known command. -/
def requestFrames (requests : List Request) : List (List UInt8) :=
  requests.filterMap fun request => request.info?.map request.frame

/-- The responses to requests when each known one is given the next of the replies. -/
def answersInOrder : List Request → List Reply →
    List (Request × Except ErrorCode MsgSendDirectResp2)
  | [], _ => []
  | request :: requests, replies =>
      match request.info? with
      | none => (request, .error .invalidParameters) :: answersInOrder requests replies
      | some _ =>
          match replies with
          | [] => []
          | reply :: replies =>
              (request, .ok {
                request := request.msg
                payload := DirectMessagePayload.ofBytes reply.body }) ::
                  answersInOrder requests replies

section

variable {request : Request} {requests : List Request}

theorem requestFrames_cons_of_known {info : CommandInfo} (hinfo : request.info? = some info) :
    requestFrames (request :: requests) = request.frame info :: requestFrames requests := by
  rw [requestFrames, List.filterMap_cons, hinfo]
  rfl

theorem requestFrames_cons_of_unknown (hunknown : request.info? = none) :
    requestFrames (request :: requests) = requestFrames requests := by
  rw [requestFrames, List.filterMap_cons, hunknown]
  rfl

def replyBytes (replies : List Reply) : List UInt8 :=
  replies.flatMap fun reply => reply.bytes

/-- A session on a line that holds a reply for each of its known requests. -/
theorem run_serveAll_of_replies (odp : OdpFfa) (rest : List UInt8) :
    ∀ (requests : List Request) (replies : List Reply) (sent : List (List UInt8)),
      (requestFrames requests).length ≤ replies.length →
        (serveAll (ffaMsgSendDirectReq2 odp ⟨silent⟩) requests).run
          ⟨sent, replyBytes replies ++ rest⟩ =
            .done (answersInOrder requests replies) ⟨sent ++ requestFrames requests,
              replyBytes (replies.drop (requestFrames requests).length) ++ rest⟩ := by
  intro requests
  induction requests with
  | nil =>
      intro replies sent _
      rw [requestFrames, List.filterMap_nil, List.append_nil]
      rfl
  | cons request requests ih =>
      intro replies sent henough
      cases hinfo : request.info? with
      | none =>
          rw [requestFrames_cons_of_unknown hinfo] at henough ⊢
          rw [serveAll, ffaMsgSendDirectReq2_of_unknown odp hinfo, Comp.pure_bind,
            Comp.run_bind_of_done (ih replies sent henough)]
          simp only [Comp.run_pure, answersInOrder, hinfo]
      | some info =>
          rw [requestFrames_cons_of_known hinfo] at henough ⊢
          cases replies with
          | nil => exact absurd henough (Nat.not_succ_le_zero _)
          | cons reply replies =>
              have hpending : replyBytes (reply :: replies) ++ rest ++
                  (⟨silent⟩ : EcUart).ec (sent ++ [request.frame info]) =
                    reply.bytes ++ (replyBytes replies ++ rest) := by
                calc replyBytes (reply :: replies) ++ rest ++ []
                  _ = replyBytes (reply :: replies) ++ rest := List.append_nil _
                  _ = _ := by rw [replyBytes, List.flatMap_cons, List.append_assoc]; rfl
              have hrest := ih replies (sent ++ [request.frame info])
                (Nat.le_of_succ_le_succ henough)
              rw [List.append_assoc, List.singleton_append] at hrest
              rw [serveAll, Comp.run_bind_of_done
                (ffaMsgSendDirectReq2_of_reply odp hinfo hpending reply.body_le),
                Comp.run_bind_of_done hrest]
              simp only [Comp.run_pure, answersInOrder, hinfo, List.length_cons, List.drop_succ_cons]

end

section

variable {base : UInt64} {depth : Nat} {odp : OdpFfa} {requests : List Request}
  {replies : List Reply} {answers : List UInt64} {happenings : List Happening} {fifos : Fifos}

/-- The session on the registers mirrors one on a line, of which the replies hold what is received. -/
theorem mirrors_of_arrived (hhistory : Fifos.History base depth ⟨[], []⟩ happenings fifos)
    (haccounts : (busReading base).Accounts (happenings.flatMap Happening.events) ⟨[], answers⟩
      (session ((registerPort base).ffaMsgSendDirectReq2 odp) requests ⟨[], answers⟩).line)
    (harrived : happenings.flatMap Happening.arrived <+: replyBytes replies) :
    ∃ received frames rest, happenings.flatMap Happening.arrived = received ++ fifos.rx ∧
      frames.flatten = happenings.flatMap Happening.left ++ fifos.tx ∧
      received ++ rest = replyBytes replies ∧
      Mirrors (serveAll (ffaMsgSendDirectReq2 odp ⟨silent⟩) requests) received frames
        ((session ((registerPort base).ffaMsgSendDirectReq2 odp) requests ⟨[], answers⟩).map
          (List.map Exchange.served)) := by
  obtain ⟨-, hpaced, frames, hframes, hmirrors⟩ := transcript_of_accounts haccounts
  obtain ⟨hrx, htx⟩ := hhistory.conserves (Or.inl hpaced)
  obtain ⟨more, hmore⟩ := harrived
  rw [List.nil_append] at hrx
  rw [hrx, List.append_assoc] at hmore
  exact ⟨_, frames, fifos.rx ++ more, hrx, hframes.trans htx, hmore, hmirrors⟩

theorem run_serveAll_of_all_replies (odp : OdpFfa)
    (henough : (requestFrames requests).length ≤ replies.length) :
    (serveAll (ffaMsgSendDirectReq2 odp ⟨silent⟩) requests).run ⟨[], replyBytes replies⟩ =
      .done (answersInOrder requests replies) ⟨requestFrames requests,
        replyBytes (replies.drop (requestFrames requests).length)⟩ := by
  have hline := run_serveAll_of_replies odp [] requests replies [] henough
  rwa [List.append_nil, List.append_nil, List.nil_append] at hline

/-- What a session that has ended was answered and has stored, and what it has loaded. -/
theorem answered_of_done {log : List (Exchange Request UInt64 (Except ErrorCode MsgSendDirectResp2))}
    {line : Line UInt64} (hhistory : Fifos.History base depth ⟨[], []⟩ happenings fifos)
    (hdone : session ((registerPort base).ffaMsgSendDirectReq2 odp) requests ⟨[], answers⟩ =
      .done log line)
    (haccounts : (busReading base).Accounts (happenings.flatMap Happening.events) ⟨[], answers⟩ line)
    (henough : (requestFrames requests).length ≤ replies.length)
    (harrived : happenings.flatMap Happening.arrived <+: replyBytes replies) :
    log.map Exchange.served = answersInOrder requests replies ∧
      happenings.flatMap Happening.left ++ fifos.tx = (requestFrames requests).flatten ∧
      happenings.flatMap Happening.arrived =
        replyBytes (replies.take (requestFrames requests).length) ++ fifos.rx := by
  have hall : (busReading base).Accounts (happenings.flatMap Happening.events) ⟨[], answers⟩
      (session ((registerPort base).ffaMsgSendDirectReq2 odp) requests ⟨[], answers⟩).line := by
    rw [hdone]
    exact haccounts
  obtain ⟨received, frames, rest, hreceived, hframes, hreplies, hmirrors⟩ :=
    mirrors_of_arrived hhistory hall harrived
  have hline := run_serveAll_of_all_replies odp henough
  rw [← hreplies] at hline
  rw [hdone] at hmirrors
  have hends := (hmirrors [] rest).symm.trans hline
  simp only [Outcome.done.injEq, Line.mk.injEq, List.nil_append] at hends
  obtain ⟨hlog, hsent, hrest⟩ := hends
  refine ⟨hlog, ?_, ?_⟩
  · rw [← hframes, hsent]
  · rw [hreceived]
    apply congrArg (· ++ fifos.rx)
    apply List.append_cancel_right
    rw [hreplies, hrest, replyBytes, replyBytes, replyBytes, ← List.flatMap_append,
      List.take_append_drop]

end

end OrionO6.Ec
