import OrionO6.Ec.Observation
import OrionO6.Library.Machine
import OrionO6.Library.Transcript

/-!
# Services that share the EC

The three services send their frames to one EC, which may remember all of them. If what it replies to
a service depends on the frames of this service only, then so does every response, and the EC is sent
the same frames for a service whatever the others ask in between.
-/

namespace OrionO6.Ec

open Serial

/-- The frames for one destination, which byte 5 of a frame names. -/
def addressedTo (eid : UInt8) (sent : List (List UInt8)) : List (List UInt8) :=
  sent.filter fun frame => frame.getD 5 0 = eid

/-- The reply to a frame depends on it and on the earlier frames for the same destination. -/
def Separate (reply : List (List UInt8) → Reply) : Prop :=
  ∀ sent other frame,
    addressedTo (frame.getD 5 0) sent = addressedTo (frame.getD 5 0) other →
      reply (sent ++ [frame]) = reply (other ++ [frame])

/-- The three services as a machine over the frames they have sent. -/
def repliedMachine (reply : List (List UInt8) → Reply) :
    Machine Request (List (List UInt8)) (Except ErrorCode MsgSendDirectResp2) where
  answer request sent :=
    match request.info? with
    | none => .error .invalidParameters
    | some info => .ok {
        request := request.msg
        payload := DirectMessagePayload.ofBytes (reply (sent ++ [request.frame info])).body }
  next request sent :=
    match request.info? with
    | none => sent
    | some info => sent ++ [request.frame info]

section

variable {reply : List (List UInt8) → Reply} {service : Service}

/-- On a line with nothing pending a session is a run of the machine. -/
theorem session_replied (odp : OdpFfa) (reply : List (List UInt8) → Reply)
    (requests : List Request) (sent : List (List UInt8)) : ∃ log,
      session (ffaMsgSendDirectReq2 odp (replyingEc reply)) requests ⟨sent, []⟩ =
        .done log ⟨(repliedMachine reply).after requests sent, []⟩ ∧
      log.map Exchange.served = (repliedMachine reply).answers requests sent := by
  induction requests generalizing sent with
  | nil => exact ⟨[], rfl, rfl⟩
  | cons request requests ih =>
      obtain ⟨log, hsession, hserved⟩ := ih ((repliedMachine reply).next request sent)
      have hhandle : (ffaMsgSendDirectReq2 odp (replyingEc reply) request).run ⟨sent, []⟩ =
          .done ((repliedMachine reply).answer request sent)
            ⟨(repliedMachine reply).next request sent, []⟩ := by
        cases hinfo : request.info? with
        | none =>
            rw [ffaMsgSendDirectReq2_of_unknown odp hinfo, Comp.run_pure]
            simp only [repliedMachine, hinfo]
        | some info =>
            have hpending : [] ++ (replyingEc reply).ec (sent ++ [request.frame info]) =
                (reply (sent ++ [request.frame info])).bytes ++ [] := (List.append_nil _).symm
            rw [ffaMsgSendDirectReq2_of_reply odp hinfo hpending (Reply.body_le _)]
            simp only [repliedMachine, hinfo]
      refine ⟨_, session_cons_of_done _ hhandle hsession, ?_⟩
      rw [List.map_cons, hserved]
      rfl

theorem frame_destination (request : Request) (info : CommandInfo) :
    (request.frame info).getD 5 0 = request.service.eid := rfl

theorem addressedTo_append_frame (sent : List (List UInt8)) (request : Request)
    (info : CommandInfo) :
    addressedTo service.eid (sent ++ [request.frame info]) =
      addressedTo service.eid sent ++
        if request.service = service then [request.frame info] else [] := by
  rw [addressedTo, List.filter_append, List.filter_singleton, frame_destination]
  by_cases hsame : request.service = service
  · rw [if_pos hsame, hsame, decide_eq_true rfl]
    rfl
  · rw [if_neg hsame, decide_eq_false fun heid => hsame (Service.eid_injective heid)]
    rfl

theorem repliedMachine_own (hseparate : Separate reply) {request : Request}
    (hservice : request.service = service) {sent other : List (List UInt8)}
    (hagree : addressedTo service.eid sent = addressedTo service.eid other) :
    (repliedMachine reply).answer request sent = (repliedMachine reply).answer request other ∧
      addressedTo service.eid ((repliedMachine reply).next request sent) =
        addressedTo service.eid ((repliedMachine reply).next request other) := by
  cases hinfo : request.info? with
  | none =>
      simp only [repliedMachine, hinfo]
      exact ⟨trivial, hagree⟩
  | some info =>
      have hreply : reply (sent ++ [request.frame info]) = reply (other ++ [request.frame info]) := by
        apply hseparate
        rw [frame_destination, hservice]
        exact hagree
      simp only [repliedMachine, hinfo, hreply, addressedTo_append_frame, hagree, and_self]

theorem repliedMachine_other {request : Request} (hservice : request.service ≠ service)
    {sent other : List (List UInt8)}
    (hagree : addressedTo service.eid sent = addressedTo service.eid other) :
    addressedTo service.eid ((repliedMachine reply).next request sent) =
      addressedTo service.eid other := by
  cases hinfo : request.info? with
  | none =>
      simp only [repliedMachine, hinfo]
      exact hagree
  | some info =>
      simp only [repliedMachine, hinfo]
      rw [addressedTo_append_frame, if_neg hservice, List.append_nil, hagree]

/-- In a shared run of the machine a service is answered as in the run of its own requests. -/
theorem answers_filter_service (hseparate : Separate reply) (requests : List Request) :
    ((repliedMachine reply).answers requests []).filter (fun entry => entry.1.service = service) =
        (repliedMachine reply).answers
          (requests.filter fun request => request.service = service) [] ∧
      addressedTo service.eid ((repliedMachine reply).after requests []) =
        addressedTo service.eid ((repliedMachine reply).after
          (requests.filter fun request => request.service = service) []) :=
  @Machine.answers_filter _ _ _ (repliedMachine reply) (fun request => request.service = service) _
    (fun sent other => addressedTo service.eid sent = addressedTo service.eid other) requests
    (fun _ _ hservice _ _ hagree => repliedMachine_own hseparate hservice hagree)
    (fun _ _ hservice _ _ hagree => repliedMachine_other hservice hagree) [] [] rfl

/-- **A service is answered as if it were alone.** With an EC that keeps its destinations apart, a
session that the services share in any order, and the session of one service's own requests, both
come to an end. The service gets the same responses in the two, and the EC the same frames for it. -/
theorem service_answered_as_alone (odp : OdpFfa) (reply : List (List UInt8) → Reply)
    (hseparate : Separate reply) (requests : List Request) (service : Service) :
    ∃ shared sharedFrames alone aloneFrames,
      session (ffaMsgSendDirectReq2 odp (replyingEc reply)) requests ⟨[], []⟩ =
        .done shared ⟨sharedFrames, []⟩ ∧
      session (ffaMsgSendDirectReq2 odp (replyingEc reply))
          (requests.filter fun request => request.service = service) ⟨[], []⟩ =
        .done alone ⟨aloneFrames, []⟩ ∧
      (shared.map Exchange.served).filter (fun entry => entry.1.service = service) =
        alone.map Exchange.served ∧
      addressedTo service.eid sharedFrames = addressedTo service.eid aloneFrames := by
  obtain ⟨shared, hshared, hsharedServed⟩ := session_replied odp reply requests []
  obtain ⟨alone, halone, haloneServed⟩ := session_replied odp reply
    (requests.filter fun request => request.service = service) []
  obtain ⟨hanswers, hframes⟩ := @answers_filter_service reply service hseparate requests
  refine ⟨shared, _, alone, _, hshared, halone, ?_, hframes⟩
  rw [hsharedServed, haloneServed]
  exact hanswers

end

/-! ### An EC that counts -/

theorem oneArgument_fits : 9 + 1 ≤ maxMctpPacketLen := by decide

/-- The reply says how many frames its destination has been sent. -/
def countingMessage (sent : List (List UInt8)) : Message :=
  requestMessage ((sent.getLastD []).getD 5 0) {
    payload := DirectMessagePayload.ofBytes
      [0x1, UInt8.ofNat (addressedTo ((sent.getLastD []).getD 5 0) sent).length] }
    1 oneArgument_fits

theorem countingMessage_body_le (sent : List (List UInt8)) :
    (countingMessage sent).body.length ≤ maxMessageSizeBytes := by
  rw [countingMessage, body_requestMessage, MsgSendDirectReq2.length_arguments _ (by decide)]
  decide

def countingReply (sent : List (List UInt8)) : Reply where
  toMessage := countingMessage sent
  body_le := countingMessage_body_le sent

theorem separate_countingReply : Separate countingReply := by
  intro sent other frame hagree
  have hsame : addressedTo (frame.getD 5 0) (sent ++ [frame]) =
      addressedTo (frame.getD 5 0) (other ++ [frame]) := by
    rw [addressedTo, addressedTo, List.filter_append, List.filter_append]
    exact congrArg (· ++ _) hagree
  simp only [countingReply, countingMessage, List.getLastD_concat, hsame]

theorem service_answered_as_alone_counting :
    ∃ shared sharedFrames alone aloneFrames,
      session (ffaMsgSendDirectReq2 OdpFfa.strict (replyingEc countingReply))
          [getTmp, getBix, getTmp] ⟨[], []⟩ = .done shared ⟨sharedFrames, []⟩ ∧
      session (ffaMsgSendDirectReq2 OdpFfa.strict (replyingEc countingReply))
          ([getTmp, getBix, getTmp].filter fun request => request.service = .battery) ⟨[], []⟩ =
        .done alone ⟨aloneFrames, []⟩ ∧
      (shared.map Exchange.served).filter (fun entry => entry.1.service = .battery) =
        alone.map Exchange.served ∧
      addressedTo Service.battery.eid sharedFrames = addressedTo Service.battery.eid aloneFrames :=
  service_answered_as_alone OdpFfa.strict countingReply separate_countingReply _ .battery

end OrionO6.Ec
