import OrionO6.Ec.Registers
import OrionO6.Library.Transcript

/-!
# Flow control

What the driver does on the bus, access by access, with the words it is answered. Whatever the device
answers, the data register is loaded only right after a poll that found a byte waiting, and stored to
only right after a poll that found room for one.
-/

namespace OrionO6.Ec

open Serial

/-- An access with the word it is answered. A load may still wait for its answer. -/
inductive BusEvent where
  | load (address : UInt64) (answer : Option UInt64)
  | store (address : UInt64) (value : UInt32)

/-- The bits of the flag register that are polled: RXFE and TXFF. -/
def rxFifoEmpty : UInt32 := (1 : UInt32) <<< 4
def txFifoFull : UInt32 := (1 : UInt32) <<< 5

namespace BusEvent

def access : BusEvent → Access
  | load address _ => .load address
  | store address value => .store address value

def answers : BusEvent → List UInt64
  | load _ answer => answer.toList
  | store _ _ => []

/-- The load has not been answered. -/
def Waits : BusEvent → Prop
  | load _ answer => answer = none
  | store _ _ => False

variable (base : UInt64)

/-- The byte that a load of the data register gives. -/
def received : BusEvent → List UInt8
  | load address (some word) => if address = uartDr base then [word.toUInt32.toUInt8] else []
  | load _ none | store _ _ => []

/-- The byte that a store to the data register puts on the wire. -/
def transmitted : BusEvent → List UInt8
  | store address value => if address = uartDr base then [value.toUInt8] else []
  | load _ _ => []

end BusEvent

def busReading (base : UInt64) : Reading BusEvent UInt64 UInt8 where
  frame event := event.access.frame
  answer := BusEvent.answers
  waits := BusEvent.Waits
  received := BusEvent.received base
  transmitted := BusEvent.transmitted base

/-- The accesses of a driver that keeps to the flow control of the device: polls of the flag
register, each of which may be followed by one access to the data register if it found the flag for
this access clear. -/
inductive Paced (base : UInt64) : List BusEvent → Prop where
  | nil : Paced base []
  | poll (answer : Option UInt64) {events : List BusEvent} (rest : Paced base events) :
      Paced base (.load (uartFr base) answer :: events)
  | load {word : UInt64} (ready : word.toUInt32 &&& rxFifoEmpty = 0) (answer : Option UInt64)
      {events : List BusEvent} (rest : Paced base events) :
      Paced base (.load (uartFr base) (some word) :: .load (uartDr base) answer :: events)
  | store {word : UInt64} (ready : word.toUInt32 &&& txFifoFull = 0) (value : UInt32)
      {events : List BusEvent} (rest : Paced base events) :
      Paced base (.load (uartFr base) (some word) :: .store (uartDr base) value :: events)

section

variable {base : UInt64}

theorem paced_concatenable : Concatenable (Paced base) where
  nil := .nil
  append := by
    intro first second hfirst hsecond
    induction hfirst with
    | nil => exact hsecond
    | poll answer _ ih => exact .poll answer ih
    | load ready answer _ ih => exact .load ready answer ih
    | store ready value _ ih => exact .store ready value ih

theorem Paced.append {first second : List BusEvent} (hfirst : Paced base first)
    (hsecond : Paced base second) : Paced base (first ++ second) :=
  paced_concatenable.append hfirst hsecond

theorem uartFr_ne_uartDr : uartFr base ≠ uartDr base := by
  intro heq
  have hoffset : (0x18 : UInt64) = 0 := by
    calc (0x18 : UInt64)
      _ = 0x18 + base - base := (UInt64.add_sub_cancel _ _).symm
      _ = base + 0x18 - base := by rw [UInt64.add_comm]
      _ = base - base := congrArg (· - base) heq
      _ = 0 := UInt64.sub_self base
  exact absurd hoffset (by decide)

/-! ### Waiting -/

def polls (base : UInt64) (words : List UInt64) : List BusEvent :=
  words.map fun word => .load (uartFr base) (some word)

theorem paced_polls (words : List UInt64) {events : List BusEvent} (hevents : Paced base events) :
    Paced base (polls base words ++ events) := by
  induction words with
  | nil => exact hevents
  | cons word words ih => exact .poll _ ih

/-- Polls are silent on the wire. -/
theorem polls_silent (words : List UInt64) :
    (polls base words).flatMap (BusEvent.received base) = [] ∧
      (polls base words).flatMap (BusEvent.transmitted base) = [] := by
  constructor <;> rw [List.flatMap_eq_nil_iff] <;> intro event hevent <;>
    obtain ⟨word, -, rfl⟩ := List.mem_map.mp hevent
  · exact if_neg uartFr_ne_uartDr
  · rfl

theorem accounts_load_none (address : UInt64) (sent : List (List UInt64)) :
    (busReading base).Accounts [.load address none] ⟨sent, []⟩
      ⟨sent ++ [(Access.load address).frame], []⟩ :=
  .cons (fun _ => rfl) (.nil _)

theorem accounts_load (address word : UInt64) (sent : List (List UInt64)) (answers : List UInt64) :
    (busReading base).Accounts [.load address (some word)] ⟨sent, word :: answers⟩
      ⟨sent ++ [(Access.load address).frame], answers⟩ :=
  .cons nofun (.nil _)

theorem accounts_store (address : UInt64) (value : UInt32) (line : Line UInt64) :
    (busReading base).Accounts [.store address value] line
      ⟨line.sent ++ [(Access.store address value).frame], line.pending⟩ :=
  .cons nofun (.nil _)

/-- The words that a wait is answered have the flag set, all of them or up to the first clear one. -/
theorem exists_first_clear (flag : UInt32) (answers : List UInt64) :
    (∀ word ∈ answers, word.toUInt32 &&& flag ≠ 0) ∨ ∃ words word rest,
      answers = words ++ word :: rest ∧ (∀ word ∈ words, word.toUInt32 &&& flag ≠ 0) ∧
        word.toUInt32 &&& flag = 0 := by
  induction answers with
  | nil => exact Or.inl (List.forall_mem_nil _)
  | cons word answers ih =>
      by_cases hclear : word.toUInt32 &&& flag = 0
      · exact Or.inr ⟨[], word, answers, rfl, List.forall_mem_nil _, hclear⟩
      · apply ih.imp
        · intro hset
          exact List.forall_mem_cons.mpr ⟨hclear, hset⟩
        · rintro ⟨words, last, rest, rfl, hset, hlast⟩
          exact ⟨word :: words, last, rest, rfl, List.forall_mem_cons.mpr ⟨hclear, hset⟩, hlast⟩

theorem round_poll (flag : UInt32) (word : UInt64) (sent : List (List UInt64))
    (answers : List UInt64) : ((pollBody base flag).round ()).run ⟨sent, word :: answers⟩ =
      .done ((), decide (word.toUInt32 &&& flag = 0))
        ⟨sent ++ [(Access.load (uartFr base)).frame], answers⟩ :=
  Comp.run_bind_of_done (readVolatile_cons _ word sent answers)

section

variable {flag : UInt32} {words : List UInt64}

theorem waitClear_of_set (hset : ∀ word ∈ words, word.toUInt32 &&& flag ≠ 0)
    (sent : List (List UInt64)) : ∃ line', (waitClear base flag).run ⟨sent, words⟩ = .blocked line' ∧
      (busReading base).Accounts (polls base words ++ [.load (uartFr base) none])
        ⟨sent, words⟩ line' := by
  induction words generalizing sent with
  | nil =>
      refine ⟨_, (pollBody base flag).loop_of_blocked ?_, accounts_load_none _ _⟩
      exact Comp.run_bind_of_blocked (readVolatile_nil _ sent)
  | cons word words ih =>
      obtain ⟨hword, hwords⟩ := List.forall_mem_cons.mp hset
      have hround := @round_poll base flag word sent words
      rw [decide_eq_false hword] at hround
      obtain ⟨line', hblocked, haccounts⟩ := ih hwords _
      exact ⟨line', ((pollBody base flag).loop_of_continue hround).trans hblocked,
        (accounts_load _ _ _ _).append haccounts⟩

theorem waitClear_of_clear (hset : ∀ word ∈ words, word.toUInt32 &&& flag ≠ 0) {word : UInt64}
    (hclear : word.toUInt32 &&& flag = 0) (sent : List (List UInt64)) : ∃ sent', ∀ rest,
      (waitClear base flag).run ⟨sent, words ++ word :: rest⟩ = .done () ⟨sent', rest⟩ ∧
        (busReading base).Accounts (polls base words ++ [.load (uartFr base) (some word)])
          ⟨sent, words ++ word :: rest⟩ ⟨sent', rest⟩ := by
  induction words generalizing sent with
  | nil =>
      refine ⟨_, fun rest => ⟨(pollBody base flag).loop_of_stop ?_, accounts_load _ _ _ _⟩⟩
      have hround := @round_poll base flag word sent rest
      rwa [decide_eq_true hclear] at hround
  | cons first words ih =>
      obtain ⟨hfirst, hwords⟩ := List.forall_mem_cons.mp hset
      obtain ⟨sent', hwait⟩ := ih hwords (sent ++ [(Access.load (uartFr base)).frame])
      refine ⟨sent', fun rest => ?_⟩
      have hround := @round_poll base flag first sent (words ++ word :: rest)
      rw [decide_eq_false hfirst] at hround
      obtain ⟨hdone, haccounts⟩ := hwait rest
      exact ⟨((pollBody base flag).loop_of_continue hround).trans hdone,
        (accounts_load _ _ _ _).append haccounts⟩

end

/-! ### Bytes -/

/-- A computation that stores exactly these bytes, if it comes to an end, and never aborts. -/
def Emits (base : UInt64) (data : List UInt8) (comp : Bus Unit) : Prop :=
  ∀ line, ∃ events, (busReading base).Accounts events line (comp.run line).line ∧
    Paced base events ∧ ((∃ line', comp.run line = .blocked line') ∨
      (∃ line', comp.run line = .done () line') ∧ events.flatMap (BusEvent.received base) = [] ∧
        events.flatMap (BusEvent.transmitted base) = data)

theorem Emits.bind {first second : List UInt8} {comp next : Bus Unit}
    (hcomp : Emits base first comp) (hnext : Emits base second next) :
    Emits base (first ++ second) (comp >>= fun _ => next) := by
  intro line
  obtain ⟨events, haccounts, hpaced, ⟨middle, hblocked⟩ | ⟨⟨middle, hdone⟩, hreceived, hsent⟩⟩ :=
    hcomp line
  · rw [hblocked] at haccounts
    rw [Comp.run_bind_of_blocked hblocked]
    exact ⟨events, haccounts, hpaced, Or.inl ⟨middle, rfl⟩⟩
  · rw [hdone] at haccounts
    obtain ⟨later, haccounts', hpaced', hends⟩ := hnext middle
    rw [Comp.run_bind_of_done hdone]
    refine ⟨events ++ later, haccounts.append haccounts', hpaced.append hpaced', ?_⟩
    refine hends.imp_right fun ⟨hdone', hreceived', hsent'⟩ => ⟨hdone', ?_, ?_⟩
    · rw [List.flatMap_append, hreceived, hreceived', List.append_nil]
    · rw [List.flatMap_append, hsent, hsent']

theorem writeByte_of_set {words : List UInt64}
    (hset : ∀ word ∈ words, word.toUInt32 &&& txFifoFull ≠ 0) (byte : UInt8)
    (sent : List (List UInt64)) : ∃ line', (writeByte base byte).run ⟨sent, words⟩ = .blocked line' ∧
      (busReading base).Accounts (polls base words ++ [.load (uartFr base) none])
        ⟨sent, words⟩ line' := by
  obtain ⟨line', hblocked, haccounts⟩ := @waitClear_of_set base _ _ hset sent
  exact ⟨line', Comp.run_bind_of_blocked hblocked, haccounts⟩

theorem writeByte_of_clear {words : List UInt64}
    (hset : ∀ word ∈ words, word.toUInt32 &&& txFifoFull ≠ 0) {word : UInt64}
    (hclear : word.toUInt32 &&& txFifoFull = 0) (byte : UInt8) (sent : List (List UInt64)) :
    ∃ sent', ∀ rest,
      (writeByte base byte).run ⟨sent, words ++ word :: rest⟩ = .done () ⟨sent', rest⟩ ∧
        (busReading base).Accounts (polls base words ++ [.load (uartFr base) (some word),
          .store (uartDr base) byte.toUInt32]) ⟨sent, words ++ word :: rest⟩ ⟨sent', rest⟩ := by
  obtain ⟨sent', hwait⟩ := @waitClear_of_clear base _ _ hset _ hclear sent
  refine ⟨sent' ++ [(Access.store (uartDr base) byte.toUInt32).frame], fun rest => ?_⟩
  obtain ⟨hdone, haccounts⟩ := hwait rest
  constructor
  · calc (writeByte base byte).run ⟨sent, words ++ word :: rest⟩
      _ = (writeVolatile (uartDr base) byte.toUInt32).run ⟨sent', rest⟩ :=
        Comp.run_bind_of_done hdone
      _ = _ := Comp.run_send_silent sent' rest _
  · have hboth := haccounts.append (accounts_store (uartDr base) byte.toUInt32 ⟨sent', rest⟩)
    rwa [List.append_assoc] at hboth

theorem emits_writeByte (byte : UInt8) : Emits base [byte] (writeByte base byte) := by
  rintro ⟨sent, answers⟩
  obtain hset | ⟨words, word, rest, rfl, hset, hclear⟩ := exists_first_clear txFifoFull answers
  · obtain ⟨line', hwrite, haccounts⟩ := @writeByte_of_set base _ hset byte sent
    rw [hwrite]
    exact ⟨_, haccounts, paced_polls answers (.poll none .nil), Or.inl ⟨line', rfl⟩⟩
  · obtain ⟨sent', hdone⟩ := @writeByte_of_clear base _ hset _ hclear byte sent
    obtain ⟨hwrite, haccounts⟩ := hdone rest
    rw [hwrite]
    refine ⟨_, haccounts, paced_polls words (.store hclear _ .nil), Or.inr ⟨⟨_, rfl⟩, ?_, ?_⟩⟩
    · simp [(polls_silent words).1, BusEvent.received, uartFr_ne_uartDr]
    · simp [(polls_silent words).2, BusEvent.transmitted]

theorem emits_writeBytes (data : List UInt8) : Emits base data (writeBytes base data) := by
  induction data with
  | nil =>
      intro line
      exact ⟨[], Reading.Accounts.nil line, .nil, Or.inr ⟨⟨line, rfl⟩, rfl, rfl⟩⟩
  | cons byte data ih => exact (emits_writeByte byte).bind ih

theorem transcribes_of_emits {data : List UInt8} {comp : Bus Unit}
    (hemits : Emits base data comp) :
    (busReading base).Transcribes (Paced base) comp (Comp.send silent data) := by
  intro line
  obtain ⟨events, haccounts, hpaced, ⟨line', hblocked⟩ | ⟨⟨line', hdone⟩, hreceived, hsent⟩⟩ :=
    hemits line
  · rw [hblocked] at haccounts
    exact ⟨events, Reading.transcript_of_blocked hblocked haccounts hpaced⟩
  · refine ⟨events, haccounts, hpaced, [data], ?_, ?_⟩
    · exact List.flatten_singleton.trans hsent.symm
    · have hreceived' : events.flatMap (busReading base).received = [] := hreceived
      rw [hdone, hreceived']
      exact fun sent rest => Comp.run_send_silent sent rest data

section

variable {words : List UInt64} (hset : ∀ word ∈ words, word.toUInt32 &&& rxFifoEmpty ≠ 0)

include hset

theorem readByte_of_set (sent : List (List UInt64)) :
    ∃ line', (readByte base).run ⟨sent, words⟩ = .blocked line' ∧
      (busReading base).Accounts (polls base words ++ [.load (uartFr base) none])
        ⟨sent, words⟩ line' := by
  obtain ⟨line', hblocked, haccounts⟩ := @waitClear_of_set base _ _ hset sent
  exact ⟨line', Comp.run_bind_of_blocked hblocked, haccounts⟩

variable {word : UInt64} (hclear : word.toUInt32 &&& rxFifoEmpty = 0)

include hclear

theorem readByte_of_pending (sent : List (List UInt64)) :
    ∃ line', (readByte base).run ⟨sent, words ++ [word]⟩ = .blocked line' ∧
      (busReading base).Accounts (polls base words ++ [.load (uartFr base) (some word),
        .load (uartDr base) none]) ⟨sent, words ++ [word]⟩ line' := by
  obtain ⟨sent', hwait⟩ := @waitClear_of_clear base _ _ hset _ hclear sent
  obtain ⟨hdone, haccounts⟩ := hwait []
  refine ⟨_, (Comp.run_bind_of_done hdone).trans
    (Comp.run_bind_of_blocked (readVolatile_nil _ sent')), ?_⟩
  have hboth := haccounts.append (accounts_load_none (uartDr base) sent')
  rwa [List.append_assoc] at hboth

theorem readByte_of_clear (datum : UInt64) (sent : List (List UInt64)) : ∃ sent', ∀ rest,
    (readByte base).run ⟨sent, words ++ word :: datum :: rest⟩ =
        .done datum.toUInt32.toUInt8 ⟨sent', rest⟩ ∧
      (busReading base).Accounts (polls base words ++ [.load (uartFr base) (some word),
        .load (uartDr base) (some datum)]) ⟨sent, words ++ word :: datum :: rest⟩
          ⟨sent', rest⟩ := by
  obtain ⟨sent', hwait⟩ := @waitClear_of_clear base _ _ hset _ hclear sent
  refine ⟨sent' ++ [(Access.load (uartDr base)).frame], fun rest => ?_⟩
  obtain ⟨hdone, haccounts⟩ := hwait (datum :: rest)
  refine ⟨(Comp.run_bind_of_done hdone).trans
    (Comp.run_bind_of_done (readVolatile_cons _ datum sent' rest)), ?_⟩
  have hboth := haccounts.append (accounts_load (uartDr base) datum sent' rest)
  rwa [List.append_assoc] at hboth

end

theorem readByte_transcribes :
    (busReading base).Transcribes (Paced base) (readByte base) Comp.receiveOne := by
  rintro ⟨sent, answers⟩
  obtain hset | ⟨words, word, rest, rfl, hset, hclear⟩ := exists_first_clear rxFifoEmpty answers
  · obtain ⟨line', hblocked, haccounts⟩ := @readByte_of_set base _ hset sent
    exact ⟨_, Reading.transcript_of_blocked hblocked haccounts (paced_polls _ (.poll none .nil))⟩
  have hpaced (answer : Option UInt64) : Paced base
      (polls base words ++ [.load (uartFr base) (some word), .load (uartDr base) answer]) :=
    paced_polls words (.load hclear answer .nil)
  cases rest with
  | nil =>
      obtain ⟨line', hblocked, haccounts⟩ := @readByte_of_pending base _ hset _ hclear sent
      exact ⟨_, Reading.transcript_of_blocked hblocked haccounts (hpaced none)⟩
  | cons datum rest =>
      obtain ⟨sent', hdone⟩ := @readByte_of_clear base _ hset _ hclear datum sent
      obtain ⟨hread, haccounts⟩ := hdone rest
      rw [hread]
      refine ⟨_, haccounts, hpaced (some datum), [], ?_, ?_⟩
      · simp [busReading, (polls_silent words).2, BusEvent.transmitted]
      · intro sent rest
        simp [busReading, (polls_silent words).1, BusEvent.received, uartFr_ne_uartDr,
          Comp.receiveOne]

/-- Reading byte by byte relates to receiving as reading one byte does. -/
theorem readBytes_of_readByte {rel : (α : Type) → Bus α → Uart α → Prop} (hrel : Congruence rel)
    (hbyte : rel UInt8 (readByte base) Comp.receiveOne) (count : Nat) :
    rel (List UInt8) (readBytes base count) (Comp.receive count) := by
  induction count with
  | zero => exact hrel.pure []
  | succ count ih =>
      exact hrel.bind hbyte fun byte => hrel.bind ih fun bytes => hrel.pure (byte :: bytes)

end

/-! ### The service -/

namespace Port

variable {β γ : Type} {port : Port β} {upper : Port γ}
  {rel : (α : Type) → Comp Panic β α → Comp Panic γ α → Prop} (hrel : Congruence rel)
  (hwrite : ∀ data, rel Unit (port.write data) (upper.write data))
  (hread : ∀ count, rel (List UInt8) (port.read count) (upper.read count))

include hrel hread

theorem readInto_related (buffer : List UInt8) (start stop : Nat) :
    rel (List UInt8) (port.readInto buffer start stop) (upper.readInto buffer start stop) := by
  apply hrel.bind (hrel.orPanic _ _)
  intro window
  exact hrel.bind (hread window.length) fun bytes => hrel.orPanic _ _

theorem receivePacket_related (out : Reassembly) :
    rel (Reassembly × Bool) (port.receivePacket out) (upper.receivePacket out) := by
  apply hrel.bind (readInto_related hrel hread _ _ _)
  intro buffer
  dsimp only
  split
  · apply hrel.bind (readInto_related hrel hread _ _ _)
    intro buffer
    apply hrel.bind (hrel.orPanic _ _)
    intro outSlice
    exact hrel.bind (hrel.orPanic _ _) fun outBuf => hrel.pure _
  · exact hrel.panic _

include hwrite

theorem sendCmd_related (odp : OdpFfa) (data : List UInt8) :
    rel (Except ErrorCode DirectMessagePayload) (port.sendCmd odp data)
      (upper.sendCmd odp data) := by
  have hround : ∀ out, rel (Reassembly × Bool) (port.packetBody.round out)
      (upper.packetBody.round out) :=
    receivePacket_related hrel hread
  have hloop : rel Reassembly (port.packetBody.loop Reassembly.empty)
      (upper.packetBody.loop Reassembly.empty) :=
    hrel.loop hround _
  apply hrel.bind (hwrite data)
  intro _
  apply hrel.bind hloop
  intro out
  apply hrel.bind (hrel.orPanic _ _)
  intro received
  exact hrel.bind (hrel.orPanic _ _) fun payload => hrel.pure _

theorem handleMessage_related (odp : OdpFfa) (service : Service) (msg : MsgSendDirectReq2)
    (len : Nat) : rel (Except ErrorCode DirectMessagePayload)
      (port.handleMessage odp service msg len) (upper.handleMessage odp service msg len) := by
  apply hrel.bind (hrel.orPanic _ _)
  intro frame
  apply hrel.bind (sendCmd_related hrel hwrite hread odp frame)
  intro result
  cases result with
  | ok value => exact hrel.pure _
  | error code => exact hrel.bind (hrel.orPanic _ _) fun payload => hrel.pure _

/-- A relation between the operations of two ports carries over to the whole service. -/
theorem ffaMsgSendDirectReq2_related (odp : OdpFfa) (request : Request) :
    rel (Except ErrorCode MsgSendDirectResp2) (port.ffaMsgSendDirectReq2 odp request)
      (upper.ffaMsgSendDirectReq2 odp request) := by
  apply hrel.bind (hrel.orPanic _ _)
  intro cmd
  dsimp only
  split
  · exact hrel.pure _
  · exact hrel.bind (handleMessage_related hrel hwrite hread odp _ _ _)
      fun payload => hrel.pure _

end Port

section

variable {base : UInt64} {rel : (α : Type) → Bus α → Uart α → Prop} (hrel : Congruence rel)
  (hwrite : ∀ data, rel Unit (writeBytes base data) (Comp.send silent data))
  (hbyte : rel UInt8 (readByte base) Comp.receiveOne)

include hrel hwrite hbyte

/-- What relates the driver to a line, byte by byte, relates whole sessions. -/
theorem serveAll_related (odp : OdpFfa) (requests : List Request) :
    rel (List (Request × Except ErrorCode MsgSendDirectResp2))
      (serveAll ((registerPort base).ffaMsgSendDirectReq2 odp) requests)
      (serveAll (ffaMsgSendDirectReq2 odp ⟨silent⟩) requests) := by
  apply hrel.serveAll
  intro request
  exact @Port.ffaMsgSendDirectReq2_related _ _ (registerPort base) (linePort ⟨silent⟩) rel hrel
    hwrite (readBytes_of_readByte hrel hbyte) odp request

end

/-- A session on the registers is transcribed by its accesses, all of them paced. -/
theorem serveAll_transcribes (base : UInt64) (odp : OdpFfa) (requests : List Request) :
    (busReading base).Transcribes (Paced base)
      (serveAll ((registerPort base).ffaMsgSendDirectReq2 odp) requests)
      (serveAll (ffaMsgSendDirectReq2 odp ⟨silent⟩) requests) := by
  have hrel : Congruence fun α =>
      ((busReading base).Transcribes (Paced base) : Bus α → Uart α → Prop) :=
    Reading.Transcribes.congruence paced_concatenable
  exact serveAll_related hrel (fun data => transcribes_of_emits (emits_writeBytes data))
    readByte_transcribes odp requests

/-- **The driver keeps to flow control.** Whatever the device answers, a session of any length is a
sequence of polls, each answered by a load of the flag register, and every access to the data
register comes right after a poll that found the flag for it clear. -/
theorem session_keeps_flow_control (base : UInt64) (odp : OdpFfa) (requests : List Request)
    (line : Line UInt64) :
    ∃ events, (busReading base).Accounts events line
        (session ((registerPort base).ffaMsgSendDirectReq2 odp) requests line).line ∧
      Paced base events := by
  obtain ⟨events, haccounts, hpaced, -⟩ := serveAll_transcribes base odp requests line
  rw [run_serveAll, Outcome.line_map] at haccounts
  exact ⟨events, haccounts, hpaced⟩

end OrionO6.Ec
