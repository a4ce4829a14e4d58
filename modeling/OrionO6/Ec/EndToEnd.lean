import OrionO6.Ec.Completion

/-!
# From end to end

What a client of the three services sees when the EC at the other end of the UART answers every
frame: the session of the services, the frames they write, the polls of the registers and the queues
of the device, all in one.
-/

namespace OrionO6.Ec

open Serial

/-- **The UART carries the line.** A session on the registers of a UART whose queues start empty ends
as the session on a line does that holds the bytes that have arrived. What it leaves on that line is
still in the receive queue, and what it sends there has left or is still in the other queue; whenever
the bytes arrive and leave, and however often the registers are polled. -/
theorem uart_carries_session (base : UInt64) (depth : Nat) (odp : OdpFfa)
    (requests : List Request) (answers : List UInt64) (happenings : List Happening) (fifos : Fifos)
    (hhistory : Fifos.History base depth ⟨[], []⟩ happenings fifos)
    (haccounts : (busReading base).Accounts (happenings.flatMap Happening.events) ⟨[], answers⟩
      (session ((registerPort base).ffaMsgSendDirectReq2 odp) requests ⟨[], answers⟩).line) :
    ∃ received frames, happenings.flatMap Happening.arrived = received ++ fifos.rx ∧
      frames.flatten = happenings.flatMap Happening.left ++ fifos.tx ∧
      Mirrors (serveAll (ffaMsgSendDirectReq2 odp ⟨silent⟩) requests) received frames
        ((session ((registerPort base).ffaMsgSendDirectReq2 odp) requests ⟨[], answers⟩).map
          (List.map Exchange.served)) := by
  obtain ⟨-, hpaced, frames, hframes, hmirrors⟩ := transcript_of_accounts haccounts
  obtain ⟨hrx, htx⟩ := hhistory.conserves (Or.inl hpaced)
  exact ⟨_, frames, hrx, hframes.trans htx, hmirrors⟩

/-- What the EC says to a thermal request and then to a battery one. -/
def sampleReplies : List Reply := [⟨strayMessage, by decide⟩, ⟨splitReply, by decide⟩]

theorem uart_carries_session_ended :
    ∃ answers happenings fifos log line,
      Fifos.History uartBase 16 ⟨[], []⟩ happenings fifos ∧
      session ((registerPort uartBase).ffaMsgSendDirectReq2 OdpFfa.strict) [getTmp, getBix]
        ⟨[], answers⟩ = .done log line ∧
      ∃ received frames, happenings.flatMap Happening.arrived = received ++ fifos.rx ∧
        frames.flatten = happenings.flatMap Happening.left ++ fifos.tx ∧
        Mirrors (serveAll (ffaMsgSendDirectReq2 OdpFfa.strict ⟨silent⟩) [getTmp, getBix]) received
          frames (.done (log.map Exchange.served) line) := by
  obtain ⟨answers, happenings, fifos, log, line, hhistory, hended, haccounts, -⟩ :=
    @exists_ended_run uartBase 16 (by decide) OdpFfa.strict [getTmp, getBix] sampleReplies (by decide)
  have hcarries := uart_carries_session uartBase 16 OdpFfa.strict [getTmp, getBix] answers happenings
    fifos hhistory haccounts
  rw [hended] at hcarries
  exact ⟨answers, happenings, fifos, log, line, hhistory, hended, hcarries⟩

/-- **The services work from end to end.** If the bytes that arrive at the UART are those of the
replies of the EC, one for each request that names a known command, as far as they have arrived, a
session on the registers does not abort. Once it ends, the known requests have been answered with
the replies in order and the others refused; what has been stored is the frames of the known
requests, and the replies but no byte more have been loaded. -/
theorem uart_session_answered (base : UInt64) (depth : Nat) (odp : OdpFfa)
    (requests : List Request) (replies : List Reply) (answers : List UInt64)
    (happenings : List Happening) (fifos : Fifos)
    (hhistory : Fifos.History base depth ⟨[], []⟩ happenings fifos)
    (haccounts : (busReading base).Accounts (happenings.flatMap Happening.events) ⟨[], answers⟩
      (session ((registerPort base).ffaMsgSendDirectReq2 odp) requests ⟨[], answers⟩).line)
    (henough : (requestFrames requests).length ≤ replies.length)
    (harrived : happenings.flatMap Happening.arrived <+: replyBytes replies) :
    (∀ reason line', session ((registerPort base).ffaMsgSendDirectReq2 odp) requests ⟨[], answers⟩ ≠
      .panicked reason line') ∧
    ∀ log line', session ((registerPort base).ffaMsgSendDirectReq2 odp) requests ⟨[], answers⟩ =
        .done log line' →
      log.map Exchange.served = answersInOrder requests replies ∧
      happenings.flatMap Happening.left ++ fifos.tx = (requestFrames requests).flatten ∧
      happenings.flatMap Happening.arrived =
        replyBytes (replies.take (requestFrames requests).length) ++ fifos.rx := by
  constructor
  · intro reason line' hpanicked
    obtain ⟨received, frames, rest, -, -, hreplies, hmirrors⟩ :=
      mirrors_of_arrived hhistory haccounts harrived
    have hline := run_serveAll_of_all_replies odp henough
    rw [← hreplies] at hline
    rw [hpanicked] at hmirrors
    cases (hmirrors [] rest).symm.trans hline
  · intro log line' hdone
    rw [hdone] at haccounts
    exact answered_of_done hhistory hdone haccounts henough harrived

/-- The body of the reply to the battery request is in two packets. -/
theorem uart_session_answered_ended :
    ∃ answers happenings fifos log line,
      Fifos.History uartBase 16 ⟨[], []⟩ happenings fifos ∧
      session ((registerPort uartBase).ffaMsgSendDirectReq2 OdpFfa.strict) [getTmp, getBix]
        ⟨[], answers⟩ = .done log line ∧
      log.map Exchange.served =
        [(getTmp, okResponse getTmp [0xAA]), (getBix, okResponse getBix [0xB1, 0xB2])] ∧
      happenings.flatMap Happening.left ++ fifos.tx = getTmpFrame ++ getBixFrame ∧
      happenings.flatMap Happening.arrived = replyBytes sampleReplies ++ fifos.rx := by
  obtain ⟨answers, happenings, fifos, log, line, hhistory, hended, haccounts, harrived⟩ :=
    @exists_ended_run uartBase 16 (by decide) OdpFfa.strict [getTmp, getBix] sampleReplies (by decide)
  have hanswered := (uart_session_answered uartBase 16 OdpFfa.strict [getTmp, getBix] sampleReplies
    answers happenings fifos hhistory haccounts (by decide) harrived).2 log line hended
  exact ⟨answers, happenings, fifos, log, line, hhistory, hended, hanswered⟩

end OrionO6.Ec
