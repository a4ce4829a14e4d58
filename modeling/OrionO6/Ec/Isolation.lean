import OrionO6.Ec.Completion
import OrionO6.Ec.Sharing

/-!
# Isolation of the services

A service does not learn from its responses what the other services have asked. Two runs on the
registers of a UART may differ in the requests of the others, in the order of all of them, in the
depth of the queue and in when every byte is polled, moved or delivered: a service that asks the same
is answered the same.
-/

namespace OrionO6.Ec

open Serial

/-- The replies to frames that are sent one after the other, behind those in `sent`. -/
def repliesTo (reply : List (List UInt8) → Reply) (sent : List (List UInt8)) :
    List (List UInt8) → List Reply
  | [] => []
  | frame :: frames => reply (sent ++ [frame]) :: repliesTo reply (sent ++ [frame]) frames

/-- A session that has ended on the registers of a UART, to which nothing has arrived but the replies
to its own frames. -/
structure RegisterRun (odp : OdpFfa) (reply : List (List UInt8) → Reply)
    (requests : List Request) where
  base : UInt64
  depth : Nat
  answers : List UInt64
  happenings : List Happening
  fifos : Fifos
  log : List (Exchange Request UInt64 (Except ErrorCode MsgSendDirectResp2))
  line : Line UInt64
  history : Fifos.History base depth ⟨[], []⟩ happenings fifos
  ended : session ((registerPort base).ffaMsgSendDirectReq2 odp) requests ⟨[], answers⟩ =
    .done log line
  accounts : (busReading base).Accounts (happenings.flatMap Happening.events) ⟨[], answers⟩ line
  arrived : happenings.flatMap Happening.arrived <+:
    replyBytes (repliesTo reply [] (requestFrames requests))

section

variable {odp : OdpFfa} {reply : List (List UInt8) → Reply} {requests : List Request}

theorem length_repliesTo (reply : List (List UInt8) → Reply) (sent frames : List (List UInt8)) :
    (repliesTo reply sent frames).length = frames.length := by
  induction frames generalizing sent with
  | nil => rfl
  | cons frame frames ih => rw [repliesTo, List.length_cons, List.length_cons, ih]

theorem answersInOrder_repliesTo (reply : List (List UInt8) → Reply) (requests : List Request)
    (sent : List (List UInt8)) :
    answersInOrder requests (repliesTo reply sent (requestFrames requests)) =
      (repliedMachine reply).answers requests sent := by
  induction requests generalizing sent with
  | nil => rfl
  | cons request requests ih =>
      cases hinfo : request.info? with
      | none =>
          rw [requestFrames_cons_of_unknown hinfo]
          simp only [answersInOrder, hinfo, ih, Machine.answers, repliedMachine]
      | some info =>
          rw [requestFrames_cons_of_known hinfo]
          simp only [answersInOrder, hinfo, repliesTo, ih, Machine.answers, repliedMachine]

theorem RegisterRun.served_eq (run : RegisterRun odp reply requests) :
    run.log.map Exchange.served = (repliedMachine reply).answers requests [] := by
  have henough : (requestFrames requests).length ≤
      (repliesTo reply [] (requestFrames requests)).length :=
    Nat.le_of_eq (length_repliesTo reply [] _).symm
  rw [← answersInOrder_repliesTo]
  exact (answered_of_done run.history run.ended run.accounts henough run.arrived).1

/-- Every session can be run to its end. -/
theorem exists_registerRun (odp : OdpFfa) (reply : List (List UInt8) → Reply)
    (requests : List Request) {base : UInt64} {depth : Nat} (hdepth : 0 < depth) :
    ∃ run : RegisterRun odp reply requests, run.base = base ∧ run.depth = depth := by
  have henough : (requestFrames requests).length ≤
      (repliesTo reply [] (requestFrames requests)).length :=
    Nat.le_of_eq (length_repliesTo reply [] _).symm
  obtain ⟨answers, happenings, fifos, log, line, hhistory, hended, haccounts, harrived⟩ :=
    @exists_ended_run base depth hdepth odp requests _ henough
  rw [hended] at haccounts
  exact ⟨⟨base, depth, answers, happenings, fifos, log, line, hhistory, hended, haccounts, harrived⟩,
    rfl, rfl⟩

end

/-- **A service is isolated from the others.** With an EC that keeps its destinations apart, two runs
on the registers in which a service asks the same, one request after the other, give it the same
responses. -/
theorem service_isolated_on_registers (odp : OdpFfa) (reply : List (List UInt8) → Reply)
    (hseparate : Separate reply) (service : Service) (requests other : List Request)
    (hsame : requests.filter (fun request => request.service = service) =
      other.filter fun request => request.service = service)
    (run : RegisterRun odp reply requests) (otherRun : RegisterRun odp reply other) :
    (run.log.map Exchange.served).filter (fun entry => entry.1.service = service) =
      (otherRun.log.map Exchange.served).filter fun entry => entry.1.service = service := by
  calc (run.log.map Exchange.served).filter (fun entry => entry.1.service = service)
    _ = (repliedMachine reply).answers
          (requests.filter fun request => request.service = service) [] := by
        rw [run.served_eq, (answers_filter_service hseparate requests).1]
    _ = (otherRun.log.map Exchange.served).filter fun entry => entry.1.service = service := by
        rw [otherRun.served_eq, (answers_filter_service hseparate other).1, hsame]

/-- The thermal service asks twice in the one run and not at all in the other. -/
theorem service_isolated_on_registers_counting :
    ∃ (run : RegisterRun OdpFfa.strict countingReply [getTmp, getBix, getTmp])
      (otherRun : RegisterRun OdpFfa.strict countingReply [getBix]),
      run.depth = 16 ∧ otherRun.depth = 1 ∧
      (run.log.map Exchange.served).filter (fun entry => entry.1.service = .battery) =
        (otherRun.log.map Exchange.served).filter fun entry => entry.1.service = .battery := by
  obtain ⟨run, -, hdepth⟩ := @exists_registerRun OdpFfa.strict countingReply
    [getTmp, getBix, getTmp] uartBase 16 (by decide)
  obtain ⟨otherRun, -, hotherDepth⟩ := @exists_registerRun OdpFfa.strict countingReply
    [getBix] uartBase 1 (by decide)
  exact ⟨run, otherRun, hdepth, hotherDepth, service_isolated_on_registers OdpFfa.strict
    countingReply separate_countingReply .battery [getTmp, getBix, getTmp] [getBix] rfl run
    otherRun⟩

end OrionO6.Ec
