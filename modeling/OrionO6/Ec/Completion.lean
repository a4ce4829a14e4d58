import OrionO6.Ec.Replies
import OrionO6.Library.Resumption

/-!
# A session can always be completed

The driver polls for as long as the device tells it to. This never leads into a dead end: wherever a
session waits, the device can let the bytes leave that it has been given, and let those arrive that
the EC still owes, so that the session goes on from there to its end.
-/

namespace OrionO6.Ec

open Serial

/-- The queues of the UART, and the bytes on their way to it. -/
structure Wire where
  fifos : Fifos
  incoming : List UInt8

def BusEvent.answered : BusEvent → Bool
  | load _ answer => answer.isSome
  | store _ _ => true

/-- Every happening but a load that still waits. -/
def Happening.answered : Happening → Bool
  | access event => event.answered
  | arrives _ | leaves _ => true

theorem BusEvent.answered_iff (event : BusEvent) : event.answered = true ↔ ¬ event.Waits := by
  obtain ⟨_, _ | _⟩ | _ := event <;> simp [answered, Waits]

section

variable {base : UInt64} {depth : Nat}

/-! ### The device -/

theorem Fifos.History.append {fifos middle final : Fifos} {first second : List Happening}
    (hfirst : Fifos.History base depth fifos first middle)
    (hsecond : Fifos.History base depth middle second final) :
    Fifos.History base depth fifos (first ++ second) final := by
  induction hfirst with
  | nil fifos => exact hsecond
  | cons hstep _ ih => exact .cons hstep (ih hsecond)

/-- A load that waits has done nothing to the queues. -/
theorem Fifos.History.filter_answered {fifos final : Fifos} {happenings : List Happening}
    (hhistory : Fifos.History base depth fifos happenings final) :
    Fifos.History base depth fifos (happenings.filter Happening.answered) final := by
  induction hhistory with
  | nil fifos => exact .nil fifos
  | @cons _ _ _ happening _ hstep _ ih =>
      cases hanswered : happening.answered with
      | true =>
          rw [List.filter_cons_of_pos hanswered]
          exact .cons hstep ih
      | false =>
          rw [List.filter_cons_of_neg (ne_true_of_eq_false hanswered)]
          cases hstep with
          | waits address => exact ih
          | _ => cases hanswered

def uartDevice (base : UInt64) (depth : Nat) : Device Wire BusEvent UInt8 where
  holds wire := wire.fifos.rx ++ wire.incoming
  goes wire events wire' := ∃ happenings,
    Fifos.History base depth wire.fifos happenings wire'.fifos ∧
      happenings.flatMap Happening.events = events ∧
      wire.incoming = happenings.flatMap Happening.arrived ++ wire'.incoming
  goes_nil wire := ⟨[], .nil _, rfl, rfl⟩
  goes_append := by
    rintro wire middle final _ _ ⟨first, hfirst, rfl, hincoming⟩ ⟨second, hsecond, rfl, hincoming'⟩
    refine ⟨first ++ second, hfirst.append hsecond, List.flatMap_append, ?_⟩
    rw [hincoming, hincoming', List.flatMap_append, List.append_assoc]

variable {rx tx incoming : List UInt8}

theorem goes_of_step {fifos fifos' : Fifos} {event : BusEvent}
    (hstep : Fifos.Step base depth fifos (.access event) fifos') (incoming : List UInt8) :
    (uartDevice base depth).goes ⟨fifos, incoming⟩ [event] ⟨fifos', incoming⟩ :=
  ⟨[.access event], .cons hstep (.nil _), rfl, rfl⟩

/-- What has been stored can leave. -/
theorem goes_drained :
    (uartDevice base depth).goes ⟨⟨rx, tx⟩, incoming⟩ [] ⟨⟨rx, []⟩, incoming⟩ := by
  refine ⟨tx.map .leaves, ?_, ?_, ?_⟩
  · induction tx with
    | nil => exact .nil _
    | cons byte tx ih => exact .cons (.leaves byte) ih
  · simp [List.flatMap_map, Happening.events]
  · simp [List.flatMap_map, Happening.arrived]

/-- The next byte is there, or can arrive. -/
theorem exists_goes_arrived {wire : Wire} {byte : UInt8} {rest : List UInt8}
    (hholds : (uartDevice base depth).holds wire = byte :: rest) : ∃ rx incoming,
      rx ++ incoming = rest ∧
        (uartDevice base depth).goes wire [] ⟨⟨byte :: rx, wire.fifos.tx⟩, incoming⟩ := by
  obtain ⟨⟨rx, tx⟩, incoming⟩ := wire
  cases rx with
  | cons first rx =>
      obtain ⟨rfl, hrest⟩ := List.cons.inj hholds
      exact ⟨rx, incoming, hrest, (uartDevice base depth).goes_nil _⟩
  | nil =>
      obtain rfl : incoming = byte :: rest := hholds
      exact ⟨[], rest, rfl, [.arrives byte], .cons (.arrives byte) (.nil _), rfl, rfl⟩

theorem exists_flags (rx tx : List UInt8) (depth : Nat) : ∃ word : UInt64,
    (word.toUInt32 &&& rxFifoEmpty = 0 ↔ rx ≠ []) ∧
      (word.toUInt32 &&& txFifoFull = 0 ↔ tx.length < depth) := by
  by_cases hrx : rx ≠ [] <;> by_cases htx : tx.length < depth
  · exact ⟨0x00, iff_of_true (by decide) hrx, iff_of_true (by decide) htx⟩
  · exact ⟨0x20, iff_of_true (by decide) hrx, iff_of_false (by decide) htx⟩
  · exact ⟨0x10, iff_of_false (by decide) hrx, iff_of_true (by decide) htx⟩
  · exact ⟨0x30, iff_of_false (by decide) hrx, iff_of_false (by decide) htx⟩

/-- Polls that have been answered, and answered accesses after them. -/
theorem polls_append_answered (words : List UInt64) {events : List BusEvent}
    (hevents : ∀ event ∈ events, ¬ event.Waits) :
    ∀ event ∈ polls base words ++ events, ¬ (busReading base).waits event := by
  apply List.forall_mem_append.mpr ⟨?_, hevents⟩
  intro event hevent
  obtain ⟨word, -, rfl⟩ := List.mem_map.mp hevent
  exact Option.some_ne_none word

/-! ### Bytes -/

theorem finishes_writeByte (hdepth : 0 < depth) {words : List UInt64}
    (hset : ∀ word ∈ words, word.toUInt32 &&& txFifoFull ≠ 0) (byte : UInt8)
    (sent : List (List UInt64)) :
    (busReading base).Finishes (uartDevice base depth) (writeByte base byte) (pure () : Uart Unit)
      (polls base words) ⟨sent, words⟩ := by
  intro wire upperSent upperSent' value rest hupper
  obtain ⟨⟨rx, tx⟩, incoming⟩ := wire
  obtain ⟨word, hempty, hfull⟩ := exists_flags rx [] depth
  obtain ⟨sent', hwrite⟩ := @writeByte_of_clear base _ hset _ (hfull.mpr hdepth) byte sent
  obtain ⟨hrun, haccounts⟩ := hwrite []
  have hgoes := (uartDevice base depth).goes_append (@goes_drained base depth rx tx incoming)
    ((uartDevice base depth).goes_append (goes_of_step (.flags hempty hfull) incoming)
      (goes_of_step (.takes byte.toUInt32 hdepth) incoming))
  have hrest : (busReading base).received = BusEvent.received base := rfl
  rw [hrest, (polls_silent words).1] at hupper
  cases hupper
  exact ⟨[word], _, sent', ⟨⟨rx, [byte.toUInt32.toUInt8]⟩, incoming⟩, rfl, hgoes, hrun,
    polls_append_answered words (by simp [BusEvent.Waits]), haccounts⟩

theorem resumes_writeByte (hdepth : 0 < depth) (byte : UInt8) :
    (busReading base).Resumes (uartDevice base depth) (writeByte base byte)
      (pure () : Uart Unit) where
  start := finishes_writeByte hdepth (List.forall_mem_nil _) byte
  waiting := by
    rintro ⟨sent, answers⟩ line' hblocked
    obtain hset | ⟨words, word, rest, rfl, hset, hclear⟩ := exists_first_clear txFifoFull answers
    · obtain ⟨line, hwrite, haccounts⟩ := @writeByte_of_set base _ hset byte sent
      obtain rfl := Outcome.blocked.inj (hblocked.symm.trans hwrite)
      exact ⟨_, _, haccounts, List.forall_mem_singleton.mpr rfl,
        finishes_writeByte hdepth hset byte sent⟩
    · obtain ⟨sent', hwrite⟩ := @writeByte_of_clear base _ hset _ hclear byte sent
      cases hblocked.symm.trans (hwrite rest).1
  ended := by
    rintro ⟨sent, answers⟩ value line' hdone
    obtain hset | ⟨words, word, rest, rfl, hset, hclear⟩ := exists_first_clear txFifoFull answers
    · obtain ⟨line, hwrite, -⟩ := @writeByte_of_set base _ hset byte sent
      cases hdone.symm.trans hwrite
    · obtain ⟨sent', hwrite⟩ := @writeByte_of_clear base _ hset _ hclear byte sent
      cases hdone.symm.trans (hwrite rest).1
      refine ⟨_, ?_, (hwrite rest).2, ?_, ?_⟩
      · exact polls_append_answered words (by simp [BusEvent.Waits])
      · intro upperSent later
        refine ⟨upperSent, ?_⟩
        simp [busReading, (polls_silent words).1, BusEvent.received, uartFr_ne_uartDr]
      · intro more
        rw [List.append_assoc]
        exact (hwrite (rest ++ more)).1

theorem resumes_writeBytes (hdepth : 0 < depth) (data : List UInt8) :
    (busReading base).Resumes (uartDevice base depth) (writeBytes base data)
      (Comp.send silent data) := by
  have hpure : (busReading base).Resumes (uartDevice base depth) (writeBytes base data)
      (pure () : Uart Unit) := by
    induction data with
    | nil => exact .pure ()
    | cons byte data ih => exact (resumes_writeByte hdepth byte).bind fun _ => ih
  apply hpure.of_upper
  intro sent pending value rest
  rw [Comp.run_send_silent, Comp.run_pure]
  simp

theorem toUInt8_byteWord (byte : UInt8) : byte.toUInt32.toUInt64.toUInt32.toUInt8 = byte := by
  simp

/-- The load of a byte that is there or can arrive. -/
theorem exists_goes_loaded {wire : Wire} {byte : UInt8} {rest : List UInt8}
    (hholds : (uartDevice base depth).holds wire = byte :: rest) : ∃ wire' datum word,
      word.toUInt32 &&& rxFifoEmpty = 0 ∧ datum.toUInt32.toUInt8 = byte ∧
        (uartDevice base depth).holds wire' = rest ∧
        (uartDevice base depth).goes wire [.load (uartDr base) (some datum)] wire' ∧
        (uartDevice base depth).goes wire
          [.load (uartFr base) (some word), .load (uartDr base) (some datum)] wire' := by
  obtain ⟨rx, incoming, hrest, harrived⟩ := exists_goes_arrived hholds
  obtain ⟨word, hempty, hfull⟩ := exists_flags (byte :: rx) wire.fifos.tx depth
  have hgives : Fifos.Step base depth ⟨byte.toUInt32.toUInt64.toUInt32.toUInt8 :: rx, wire.fifos.tx⟩
      (.access (.load (uartDr base) (some byte.toUInt32.toUInt64))) ⟨rx, wire.fifos.tx⟩ := .gives _
  have hload := goes_of_step hgives incoming
  rw [toUInt8_byteWord] at hload
  have hflags : Fifos.Step base depth ⟨byte :: rx, wire.fifos.tx⟩
      (.access (.load (uartFr base) (some word))) ⟨byte :: rx, wire.fifos.tx⟩ := .flags hempty hfull
  have hpoll := goes_of_step hflags incoming
  exact ⟨⟨⟨rx, wire.fifos.tx⟩, incoming⟩, _, word, hempty.mpr (List.cons_ne_nil byte rx),
    toUInt8_byteWord byte, hrest, (uartDevice base depth).goes_append harrived hload,
    (uartDevice base depth).goes_append harrived
      ((uartDevice base depth).goes_append hpoll hload)⟩

theorem holds_of_receiveOne {upperSent upperSent' : List (List UInt8)} {pending rest : List UInt8}
    {byte : UInt8} (hupper : (Comp.receiveOne : Uart UInt8).run ⟨upperSent, pending⟩ =
      .done byte ⟨upperSent', rest⟩) : pending = byte :: rest := by
  cases pending with
  | nil => cases hupper
  | cons first later =>
      cases hupper
      rfl

section

variable {words : List UInt64} (hset : ∀ word ∈ words, word.toUInt32 &&& rxFifoEmpty ≠ 0)

include hset

theorem finishes_readByte_polling (sent : List (List UInt64)) :
    (busReading base).Finishes (uartDevice base depth) (readByte base) Comp.receiveOne
      (polls base words) ⟨sent, words⟩ := by
  intro wire upperSent upperSent' byte rest hupper
  have hreceived : (polls base words).flatMap (busReading base).received = [] :=
    (polls_silent words).1
  rw [hreceived] at hupper
  obtain ⟨wire', datum, word, hclear, rfl, hholds, -, hgoes⟩ :=
    @exists_goes_loaded base depth _ _ _ (holds_of_receiveOne hupper)
  obtain ⟨sent', hread⟩ := @readByte_of_clear base _ hset _ hclear datum sent
  obtain ⟨hrun, haccounts⟩ := hread []
  exact ⟨[word, datum], _, sent', wire', hholds, hgoes, hrun,
    polls_append_answered words (by simp [BusEvent.Waits]), haccounts⟩

theorem finishes_readByte_loading {word : UInt64} (hclear : word.toUInt32 &&& rxFifoEmpty = 0)
    (sent : List (List UInt64)) :
    (busReading base).Finishes (uartDevice base depth) (readByte base) Comp.receiveOne
      (polls base words ++ [.load (uartFr base) (some word)]) ⟨sent, words ++ [word]⟩ := by
  intro wire upperSent upperSent' byte rest hupper
  have hreceived : (polls base words ++ [BusEvent.load (uartFr base) (some word)]).flatMap
      (busReading base).received = [] := by
    simp [busReading, (polls_silent words).1, BusEvent.received, uartFr_ne_uartDr]
  rw [hreceived] at hupper
  obtain ⟨wire', datum, -, -, rfl, hholds, hgoes, -⟩ :=
    @exists_goes_loaded base depth _ _ _ (holds_of_receiveOne hupper)
  obtain ⟨sent', hread⟩ := @readByte_of_clear base _ hset _ hclear datum sent
  obtain ⟨hrun, haccounts⟩ := hread []
  have hline : words ++ [word] ++ [datum] = words ++ [word, datum] := List.append_assoc _ _ _
  rw [← hline] at hrun haccounts
  refine ⟨[datum], _, sent', wire', hholds, hgoes, hrun, ?_, ?_⟩
  · rw [List.append_assoc]
    exact polls_append_answered words (by simp [BusEvent.Waits])
  · rw [List.append_assoc]
    exact haccounts

end

theorem resumes_readByte :
    (busReading base).Resumes (uartDevice base depth) (readByte base) Comp.receiveOne where
  start := finishes_readByte_polling (List.forall_mem_nil _)
  waiting := by
    rintro ⟨sent, answers⟩ line' hblocked
    obtain hset | ⟨words, word, rest, rfl, hset, hclear⟩ := exists_first_clear rxFifoEmpty answers
    · obtain ⟨line, hread, haccounts⟩ := @readByte_of_set base _ hset sent
      obtain rfl := Outcome.blocked.inj (hblocked.symm.trans hread)
      exact ⟨_, _, haccounts, List.forall_mem_singleton.mpr rfl,
        finishes_readByte_polling hset sent⟩
    cases rest with
    | nil =>
        obtain ⟨line, hread, haccounts⟩ := @readByte_of_pending base _ hset _ hclear sent
        obtain rfl := Outcome.blocked.inj (hblocked.symm.trans hread)
        refine ⟨polls base words ++ [.load (uartFr base) (some word)],
          [.load (uartDr base) none], ?_, List.forall_mem_singleton.mpr rfl,
          finishes_readByte_loading hset hclear sent⟩
        rw [List.append_assoc]
        exact haccounts
    | cons datum rest =>
        obtain ⟨sent', hread⟩ := @readByte_of_clear base _ hset _ hclear datum sent
        cases hblocked.symm.trans (hread rest).1
  ended := by
    rintro ⟨sent, answers⟩ byte line' hdone
    obtain hset | ⟨words, word, rest, rfl, hset, hclear⟩ := exists_first_clear rxFifoEmpty answers
    · obtain ⟨line, hread, -⟩ := @readByte_of_set base _ hset sent
      cases hdone.symm.trans hread
    cases rest with
    | nil =>
        obtain ⟨line, hread, -⟩ := @readByte_of_pending base _ hset _ hclear sent
        cases hdone.symm.trans hread
    | cons datum rest =>
        obtain ⟨sent', hread⟩ := @readByte_of_clear base _ hset _ hclear datum sent
        cases hdone.symm.trans (hread rest).1
        refine ⟨_, ?_, (hread rest).2, ?_, ?_⟩
        · exact polls_append_answered words (by simp [BusEvent.Waits])
        · intro upperSent later
          refine ⟨upperSent, ?_⟩
          simp [busReading, (polls_silent words).1, BusEvent.received, uartFr_ne_uartDr,
            Comp.receiveOne]
        · intro more
          rw [List.append_assoc]
          exact (hread (rest ++ more)).1

theorem resumes_serveAll (hdepth : 0 < depth) (odp : OdpFfa) (requests : List Request) :
    (busReading base).Resumes (uartDevice base depth)
      (serveAll ((registerPort base).ffaMsgSendDirectReq2 odp) requests)
      (serveAll (ffaMsgSendDirectReq2 odp ⟨silent⟩) requests) := by
  have hrel : Congruence fun α =>
      ((busReading base).Resumes (uartDevice base depth) : Bus α → Uart α → Prop) :=
    Reading.Resumes.congruence
  exact serveAll_related hrel (resumes_writeBytes hdepth) resumes_readByte odp requests

/-! ### Sessions -/

theorem events_filter_answered (happenings : List Happening) :
    (happenings.filter Happening.answered).flatMap Happening.events =
      (happenings.flatMap Happening.events).filter BusEvent.answered := by
  induction happenings with
  | nil => rfl
  | cons happening happenings ih =>
      rw [List.flatMap_cons, List.filter_append, ← ih]
      cases happening with
      | access event =>
          cases hanswered : event.answered <;>
            simp [Happening.answered, Happening.events, hanswered]
      | _ => rfl

theorem arrived_filter_answered (happenings : List Happening) :
    (happenings.filter Happening.answered).flatMap Happening.arrived =
      happenings.flatMap Happening.arrived := by
  induction happenings with
  | nil => rfl
  | cons happening happenings ih =>
      rw [List.flatMap_cons, ← ih]
      cases happening with
      | access event =>
          cases hanswered : event.answered <;>
            simp [Happening.answered, Happening.arrived, hanswered]
      | _ => rfl

/-- A load that waits gives no byte. -/
theorem received_of_waits {event : BusEvent} (hwaits : event.Waits) : event.received base = [] := by
  obtain ⟨address, _ | word⟩ | ⟨address, value⟩ := event
  · rfl
  · cases hwaits
  · rfl

/-- The accesses before a wait are those that were answered. -/
theorem filter_answered_eq {before waiting : List BusEvent}
    (hbefore : ∀ event ∈ before, ¬ event.Waits) (hwaiting : ∀ event ∈ waiting, event.Waits) :
    (before ++ waiting).filter BusEvent.answered = before := by
  have hnone : waiting.filter BusEvent.answered = [] := by
    apply List.filter_eq_nil_iff.mpr
    intro event hevent hanswered
    exact event.answered_iff.mp hanswered (hwaiting event hevent)
  rw [List.filter_append, hnone, List.append_nil]
  apply List.filter_eq_self.mpr
  intro event hevent
  exact event.answered_iff.mpr (hbefore event hevent)

/-- What has happened until a session waits: accesses that were answered and then one that was not. The
bytes that have arrived are those the session has loaded and those in the FIFO, and from here the
session can finish. -/
theorem exists_finishes_of_blocked (odp : OdpFfa) {requests : List Request} {answers : List UInt64}
    {happenings : List Happening} {fifos : Fifos} {line : Line UInt64} (hdepth : 0 < depth)
    (hhistory : Fifos.History base depth ⟨[], []⟩ happenings fifos)
    (hwaits : session ((registerPort base).ffaMsgSendDirectReq2 odp) requests ⟨[], answers⟩ =
      .blocked line)
    (haccounts : (busReading base).Accounts (happenings.flatMap Happening.events) ⟨[], answers⟩
      line) : ∃ before waiting,
      happenings.flatMap Happening.events = before ++ waiting ∧
        (∀ event ∈ waiting, event.Waits) ∧
        happenings.flatMap Happening.arrived =
          before.flatMap (busReading base).received ++ fifos.rx ∧
        (busReading base).Finishes (uartDevice base depth)
          (serveAll ((registerPort base).ffaMsgSendDirectReq2 odp) requests)
          (serveAll (ffaMsgSendDirectReq2 odp ⟨silent⟩) requests) before ⟨[], answers⟩ := by
  have hall : (busReading base).Accounts (happenings.flatMap Happening.events) ⟨[], answers⟩
      (session ((registerPort base).ffaMsgSendDirectReq2 odp) requests ⟨[], answers⟩).line := by
    rw [hwaits]
    exact haccounts
  obtain ⟨-, hpaced, -⟩ := transcript_of_accounts hall
  obtain ⟨hrx, -⟩ := hhistory.conserves (Or.inl hpaced)
  have hblocked : (serveAll ((registerPort base).ffaMsgSendDirectReq2 odp) requests).run
      ⟨[], answers⟩ = .blocked line := by
    rw [run_serveAll, hwaits]
    rfl
  obtain ⟨before, waiting, hsame, hwaiting, hfinishes⟩ :=
    (resumes_serveAll hdepth odp requests).waiting _ _ hblocked
  have hevents : happenings.flatMap Happening.events = before ++ waiting :=
    Reading.Accounts.unique (busReading_legible base) haccounts hsame
  have hnothing : waiting.flatMap (BusEvent.received base) = [] := by
    apply List.flatMap_eq_nil_iff.mpr
    intro event hevent
    exact received_of_waits (hwaiting event hevent)
  rw [List.nil_append, hevents, List.flatMap_append, hnothing, List.append_nil] at hrx
  exact ⟨before, waiting, hevents, hwaiting, hrx, hfinishes⟩

/-- Every session can be run from the start to its end, with no bytes arriving but those of the
replies. -/
theorem exists_ended_run (hdepth : 0 < depth) (odp : OdpFfa) {requests : List Request}
    {replies : List Reply} (henough : (requestFrames requests).length ≤ replies.length) :
    ∃ answers happenings fifos log line,
      Fifos.History base depth ⟨[], []⟩ happenings fifos ∧
      session ((registerPort base).ffaMsgSendDirectReq2 odp) requests ⟨[], answers⟩ =
        .done log line ∧
      (busReading base).Accounts (happenings.flatMap Happening.events) ⟨[], answers⟩
        (session ((registerPort base).ffaMsgSendDirectReq2 odp) requests ⟨[], answers⟩).line ∧
      happenings.flatMap Happening.arrived <+: replyBytes replies := by
  have hupper := run_serveAll_of_all_replies odp henough
  obtain ⟨answers, events, sent, wire, -, hcompletes⟩ := (@resumes_serveAll base _ hdepth odp
    requests).start [] ⟨⟨[], []⟩, replyBytes replies⟩ _ _ _ _ hupper
  obtain ⟨happenings, hhistory, rfl, harrived⟩ := hcompletes.goes
  obtain ⟨log, hsession, -⟩ := exists_session_of_serveAll_done hcompletes.run
  have hended : session ((registerPort base).ffaMsgSendDirectReq2 odp) requests ⟨[], answers⟩ =
      .done log ⟨sent, []⟩ := hsession
  refine ⟨answers, happenings, wire.fifos, log, _, hhistory, hended, ?_, wire.incoming,
    harrived.symm⟩
  rw [hended]
  exact hcompletes.accounts

end

/-- **A session that waits can be completed.** Whatever has happened until a session waits on the
registers, if what has arrived are bytes of the replies then the device can go on from there, letting
what was stored leave and the rest of the replies arrive, so that the session, with the same accesses
up to its wait, ends and all its requests are answered. -/
theorem uart_session_completable (base : UInt64) (depth : Nat) (odp : OdpFfa)
    (requests : List Request) (replies : List Reply) (answers : List UInt64)
    (happenings : List Happening) (fifos : Fifos) (line : Line UInt64) (hdepth : 0 < depth)
    (hhistory : Fifos.History base depth ⟨[], []⟩ happenings fifos)
    (hwaits : session ((registerPort base).ffaMsgSendDirectReq2 odp) requests ⟨[], answers⟩ =
      .blocked line)
    (haccounts : (busReading base).Accounts (happenings.flatMap Happening.events) ⟨[], answers⟩ line)
    (henough : (requestFrames requests).length ≤ replies.length)
    (harrived : happenings.flatMap Happening.arrived <+: replyBytes replies) :
    ∃ more whole fifos' log final,
      happenings.filter Happening.answered <+: whole ∧
      Fifos.History base depth ⟨[], []⟩ whole fifos' ∧
      session ((registerPort base).ffaMsgSendDirectReq2 odp) requests ⟨[], answers ++ more⟩ =
        .done log final ∧
      (busReading base).Accounts (whole.flatMap Happening.events) ⟨[], answers ++ more⟩ final ∧
      whole.flatMap Happening.arrived <+: replyBytes replies ∧
      log.map Exchange.served = answersInOrder requests replies := by
  obtain ⟨before, waiting, hevents, hwaiting, hrx, hfinishes⟩ :=
    exists_finishes_of_blocked odp hdepth hhistory hwaits haccounts
  obtain ⟨incoming, hincoming⟩ := harrived
  have hpending : before.flatMap (busReading base).received ++
      (uartDevice base depth).holds ⟨fifos, incoming⟩ = replyBytes replies ++ [] := by
    calc before.flatMap (busReading base).received ++ (fifos.rx ++ incoming)
      _ = happenings.flatMap Happening.arrived ++ incoming := by rw [hrx, List.append_assoc]
      _ = replyBytes replies ++ [] := by rw [hincoming, List.append_nil]
  have hupper := run_serveAll_of_replies odp [] requests replies [] henough
  rw [← hpending] at hupper
  obtain ⟨more, later, sent, wire, -, hcompletes⟩ := hfinishes _ _ _ _ _ hupper
  obtain ⟨tail, htail, htailEvents, hrest⟩ := hcompletes.goes
  obtain ⟨log, hsession, hlog⟩ := exists_session_of_serveAll_done hcompletes.run
  refine ⟨more, happenings.filter Happening.answered ++ tail, wire.fifos, log, _,
    List.prefix_append _ _, hhistory.filter_answered.append htail, hsession, ?_, ?_, hlog⟩
  · have hanswered := (List.forall_mem_append.mp hcompletes.answered).1
    rw [List.flatMap_append, events_filter_answered, hevents,
      filter_answered_eq hanswered hwaiting, htailEvents]
    exact hcompletes.accounts
  · refine ⟨wire.incoming, ?_⟩
    rw [List.flatMap_append, arrived_filter_answered, List.append_assoc, ← hrest]
    exact hincoming

/-! ### A session that waits -/

/-- One byte of a `GetBix` frame has left and one of an answer has arrived when the run waits for
the second poll. -/
def sampleHappenings : List Happening := [
  .access (.load (uartFr uartBase) (some 0x10)),
  .access (.store (uartDr uartBase) 0x02),
  .arrives 0x02,
  .leaves 0x02,
  .access (.load (uartFr uartBase) none)]

theorem sampleHappenings_history :
    Fifos.History uartBase 16 ⟨[], []⟩ sampleHappenings ⟨[0x02], []⟩ :=
  .cons (.flags (by decide) (by decide)) <| .cons (.takes 0x02 (by decide)) <|
    .cons (.arrives 0x02) <| .cons (.leaves 0x02) <| .cons (.waits _) <| .nil _

theorem writeBytes_of_sampleAnswers (byte next : UInt8) (bytes : List UInt8) :
    (writeBytes uartBase (byte :: next :: bytes)).run ⟨[], [0x10]⟩ = .blocked
      ⟨[[uartFr uartBase], [uartDr uartBase, byte.toUInt32.toUInt64], [uartFr uartBase]], []⟩ := by
  have hround : ((pollBody uartBase txFifoFull).round ()).run ⟨[], [0x10]⟩ =
      .done ((), true) ⟨[[uartFr uartBase]], []⟩ :=
    Comp.run_bind_of_done (readVolatile_cons _ _ _ _)
  have hbyte : (writeByte uartBase byte).run ⟨[], [0x10]⟩ =
      .done () ⟨[[uartFr uartBase], [uartDr uartBase, byte.toUInt32.toUInt64]], []⟩ :=
    Comp.run_bind_of_done ((pollBody uartBase txFifoFull).loop_of_stop hround)
  have hwait (sent : List (List UInt64)) : ((pollBody uartBase txFifoFull).round ()).run ⟨sent, []⟩ =
      .blocked ⟨sent ++ [[uartFr uartBase]], []⟩ :=
    Comp.run_bind_of_blocked (readVolatile_nil _ sent)
  have hnext : (writeBytes uartBase (next :: bytes)).run
      ⟨[[uartFr uartBase], [uartDr uartBase, byte.toUInt32.toUInt64]], []⟩ = .blocked
        ⟨[[uartFr uartBase], [uartDr uartBase, byte.toUInt32.toUInt64], [uartFr uartBase]], []⟩ :=
    Comp.run_bind_of_blocked
      (Comp.run_bind_of_blocked ((pollBody uartBase txFifoFull).loop_of_blocked (hwait _)))
  rw [writeBytes, Comp.run_bind_of_done hbyte]
  exact hnext

theorem session_of_sampleAnswers :
    session ((registerPort uartBase).ffaMsgSendDirectReq2 OdpFfa.strict) [getBix] ⟨[], [0x10]⟩ =
      .blocked ⟨[[uartFr uartBase], [uartDr uartBase, 0x02], [uartFr uartBase]], []⟩ := by
  have hinfo : getBix.info? = some ⟨0x1, 1, by decide⟩ := rfl
  have hframe := encodeFrame_eq OdpFfa.strict getBix.service.eid getBix.msg
    (payloadLen_lt_of_info hinfo)
  have hhandle : ((registerPort uartBase).ffaMsgSendDirectReq2 OdpFfa.strict getBix).run
      ⟨[], [0x10]⟩ = .blocked
        ⟨[[uartFr uartBase], [uartDr uartBase, 0x02], [uartFr uartBase]], []⟩ := by
    rw [ffaMsgSendDirectReq2_registerPort_of_known OdpFfa.strict hinfo, Port.handleMessage, hframe,
      Comp.orPanic_some, Comp.pure_bind]
    exact Comp.run_bind_of_blocked (Comp.run_bind_of_blocked
      (Comp.run_bind_of_blocked (writeBytes_of_sampleAnswers _ _ _)))
  rw [session, hhandle]
  rfl

theorem sampleHappenings_accounts :
    (busReading uartBase).Accounts (sampleHappenings.flatMap Happening.events) ⟨[], [0x10]⟩
      (session ((registerPort uartBase).ffaMsgSendDirectReq2 OdpFfa.strict) [getBix]
        ⟨[], [0x10]⟩).line := by
  rw [session_of_sampleAnswers]
  exact .cons nofun (.cons nofun (.cons (fun _ => rfl) (.nil _)))

def sampleReply : Reply where
  toMessage := getBixReply
  body_le := by decide

theorem sampleHappenings_waits :
    (busReading uartBase).Accounts (sampleHappenings.flatMap Happening.events) ⟨[], [0x10]⟩
      ⟨[[uartFr uartBase], [uartDr uartBase, 0x02], [uartFr uartBase]], []⟩ := by
  have haccounts := sampleHappenings_accounts
  rwa [session_of_sampleAnswers] at haccounts

theorem uart_session_completable_sample :
    ∃ more whole fifos' log final,
      sampleHappenings.filter Happening.answered <+: whole ∧
      Fifos.History uartBase 16 ⟨[], []⟩ whole fifos' ∧
      session ((registerPort uartBase).ffaMsgSendDirectReq2 OdpFfa.strict) [getBix]
        ⟨[], [0x10] ++ more⟩ = .done log final ∧
      (busReading uartBase).Accounts (whole.flatMap Happening.events) ⟨[], [0x10] ++ more⟩ final ∧
      whole.flatMap Happening.arrived <+: replyBytes [sampleReply] ∧
      log.map Exchange.served = answersInOrder [getBix] [sampleReply] :=
  uart_session_completable uartBase 16 OdpFfa.strict [getBix] [sampleReply] [0x10]
    sampleHappenings ⟨[0x02], []⟩ _ (by decide) sampleHappenings_history session_of_sampleAnswers
    sampleHappenings_waits (by decide) ⟨_, rfl⟩

end OrionO6.Ec
