import OrionO6.Ec.DeviceRegions
import OrionO6.Ec.FlowControl

/-!
# The FIFOs of the UART

Between the registers and the wire lie two queues, the one towards the wire of bounded depth and the
other of none. Bytes arrive at one of them and leave the other at any time, between any two accesses;
a load from an empty queue gives a byte that never arrived, and a store to a full one is lost. The
driver runs into neither, so what the service takes off the line is what has arrived, and what it puts
on the line is what leaves.
-/

namespace OrionO6.Ec

open Serial

/-- The bytes that have arrived and were not loaded, and those stored that have not left. The receive
queue has no depth: a byte that arrives is never lost to an overrun. -/
structure Fifos where
  rx : List UInt8
  tx : List UInt8

inductive Happening where
  | arrives (byte : UInt8)
  | leaves (byte : UInt8)
  | access (event : BusEvent)

namespace Happening

def arrived : Happening → List UInt8
  | arrives byte => [byte]
  | leaves _ | access _ => []

def left : Happening → List UInt8
  | leaves byte => [byte]
  | arrives _ | access _ => []

def events : Happening → List BusEvent
  | access event => [event]
  | arrives _ | leaves _ => []

end Happening

/-- What the device does. The flag register tells whether there is a byte to load, and whether there
is room for one to store. -/
inductive Fifos.Step (base : UInt64) (depth : Nat) : Fifos → Happening → Fifos → Prop where
  | arrives {rx tx : List UInt8} (byte : UInt8) :
      Step base depth ⟨rx, tx⟩ (.arrives byte) ⟨rx ++ [byte], tx⟩
  | leaves {rx tx : List UInt8} (byte : UInt8) :
      Step base depth ⟨rx, byte :: tx⟩ (.leaves byte) ⟨rx, tx⟩
  | flags {rx tx : List UInt8} {word : UInt64}
      (hempty : word.toUInt32 &&& rxFifoEmpty = 0 ↔ rx ≠ [])
      (hfull : word.toUInt32 &&& txFifoFull = 0 ↔ tx.length < depth) :
      Step base depth ⟨rx, tx⟩ (.access (.load (uartFr base) (some word))) ⟨rx, tx⟩
  | waits {rx tx : List UInt8} (address : UInt64) :
      Step base depth ⟨rx, tx⟩ (.access (.load address none)) ⟨rx, tx⟩
  | gives {rx tx : List UInt8} (word : UInt64) :
      Step base depth ⟨word.toUInt32.toUInt8 :: rx, tx⟩
        (.access (.load (uartDr base) (some word))) ⟨rx, tx⟩
  | underruns {tx : List UInt8} (word : UInt64) :
      Step base depth ⟨[], tx⟩ (.access (.load (uartDr base) (some word))) ⟨[], tx⟩
  | takes {rx tx : List UInt8} (value : UInt32) (hroom : tx.length < depth) :
      Step base depth ⟨rx, tx⟩ (.access (.store (uartDr base) value)) ⟨rx, tx ++ [value.toUInt8]⟩
  | overruns {rx tx : List UInt8} (value : UInt32) (hfull : depth ≤ tx.length) :
      Step base depth ⟨rx, tx⟩ (.access (.store (uartDr base) value)) ⟨rx, tx⟩

inductive Fifos.History (base : UInt64) (depth : Nat) :
    Fifos → List Happening → Fifos → Prop where
  | nil (fifos : Fifos) : History base depth fifos [] fifos
  | cons {fifos middle final : Fifos} {happening : Happening} {happenings : List Happening}
      (hstep : Step base depth fifos happening middle)
      (hrest : History base depth middle happenings final) :
      History base depth fifos (happening :: happenings) final

section

variable {base : UInt64} {depth : Nat} {fifos fifos' : Fifos} {event : BusEvent}
  {events : List BusEvent}

/-! ### No byte is lost -/

/-- The accesses to come are paced, where a poll that came before may already have cleared the next
one. -/
def Ready (base : UInt64) (depth : Nat) (fifos : Fifos) (events : List BusEvent) : Prop :=
  Paced base events ∨ ∃ word, Paced base (.load (uartFr base) (some word) :: events) ∧
    (word.toUInt32 &&& rxFifoEmpty = 0 → fifos.rx ≠ []) ∧
      (word.toUInt32 &&& txFifoFull = 0 → fifos.tx.length < depth)

theorem Ready.cases (hready : Ready base depth fifos (event :: events)) :
    Paced base (event :: events) ∨
      (fifos.rx ≠ [] ∧ Paced base events ∧ ∃ answer, event = .load (uartDr base) answer) ∨
        (fifos.tx.length < depth ∧ Paced base events ∧
          ∃ value, event = .store (uartDr base) value) := by
  obtain hpaced | ⟨word, hpaced, hrx, htx⟩ := hready
  · exact Or.inl hpaced
  · cases hpaced with
    | poll _ hrest => exact Or.inl hrest
    | load hclear answer hrest => exact Or.inr (Or.inl ⟨hrx hclear, hrest, answer, rfl⟩)
    | store hclear value hrest => exact Or.inr (Or.inr ⟨htx hclear, hrest, value, rfl⟩)

theorem Paced.head_eq (hpaced : Paced base (event :: events)) :
    ∃ answer, event = .load (uartFr base) answer := by
  cases hpaced <;> exact ⟨_, rfl⟩

theorem Ready.load (word : UInt64)
    (hready : Ready base depth fifos (.load (uartDr base) (some word) :: events)) :
    fifos.rx ≠ [] ∧ Paced base events := by
  obtain hpaced | ⟨hrx, hpaced, -⟩ | ⟨-, -, value, hstore⟩ := hready.cases
  · obtain ⟨answer, hload⟩ := hpaced.head_eq
    exact absurd (BusEvent.load.inj hload).1.symm uartFr_ne_uartDr
  · exact ⟨hrx, hpaced⟩
  · cases hstore

theorem Ready.store (value : UInt32)
    (hready : Ready base depth fifos (.store (uartDr base) value :: events)) :
    fifos.tx.length < depth ∧ Paced base events := by
  obtain hpaced | ⟨-, -, answer, hload⟩ | ⟨htx, hpaced, -⟩ := hready.cases
  · obtain ⟨answer, hload⟩ := hpaced.head_eq
    cases hload
  · cases hload
  · exact ⟨htx, hpaced⟩

theorem Ready.wait (address : UInt64)
    (hready : Ready base depth fifos (.load address none :: events)) : Paced base events := by
  obtain hpaced | ⟨-, hpaced, -⟩ | ⟨-, hpaced, -⟩ := hready.cases
  · cases hpaced with
    | poll _ hrest => exact hrest
  · exact hpaced
  · exact hpaced

theorem Ready.flags (word : UInt64)
    (hready : Ready base depth fifos (.load (uartFr base) (some word) :: events)) :
    Paced base (.load (uartFr base) (some word) :: events) := by
  obtain hpaced | ⟨-, -, answer, hload⟩ | ⟨-, -, value, hstore⟩ := hready.cases
  · exact hpaced
  · exact absurd (BusEvent.load.inj hload).1 uartFr_ne_uartDr
  · cases hstore

/-- What the queues hold changes by what arrives, leaves, is loaded and is stored. -/
structure Conserves (base : UInt64) (fifos : Fifos) (happenings : List Happening) (fifos' : Fifos) :
    Prop where
  rx_eq : fifos.rx ++ happenings.flatMap Happening.arrived =
    (happenings.flatMap Happening.events).flatMap (BusEvent.received base) ++ fifos'.rx
  tx_eq : fifos.tx ++ (happenings.flatMap Happening.events).flatMap (BusEvent.transmitted base) =
    happenings.flatMap Happening.left ++ fifos'.tx

theorem Ready.arrives (byte : UInt8) {rx tx : List UInt8}
    (hready : Ready base depth ⟨rx, tx⟩ events) : Ready base depth ⟨rx ++ [byte], tx⟩ events :=
  hready.imp_right fun ⟨word, hpaced, _, htx⟩ =>
    ⟨word, hpaced, fun _ => List.append_ne_nil_of_right_ne_nil rx (List.cons_ne_nil byte []), htx⟩

theorem Ready.leaves {byte : UInt8} {rx tx : List UInt8}
    (hready : Ready base depth ⟨rx, byte :: tx⟩ events) : Ready base depth ⟨rx, tx⟩ events :=
  hready.imp_right fun ⟨word, hpaced, hrx, htx⟩ =>
    ⟨word, hpaced, hrx, fun hclear => Nat.lt_of_succ_lt (htx hclear)⟩

/-- One step of the device, with the accesses to come. -/
theorem Fifos.Step.conserves {happening : Happening}
    (hstep : Fifos.Step base depth fifos happening fifos')
    (hready : Ready base depth fifos (happening.events ++ events)) :
    Conserves base fifos [happening] fifos' ∧ Ready base depth fifos' events := by
  cases hstep with
  | arrives byte =>
      refine ⟨⟨?_, ?_⟩, hready.arrives byte⟩ <;> simp [Happening.arrived, Happening.events,
        Happening.left]
  | leaves byte =>
      refine ⟨⟨?_, ?_⟩, hready.leaves⟩ <;> simp [Happening.arrived, Happening.events,
        Happening.left]
  | flags hempty hfull =>
      refine ⟨⟨?_, ?_⟩, Or.inr ⟨_, Ready.flags _ hready, hempty.mp, hfull.mp⟩⟩ <;>
        simp [Happening.arrived, Happening.events, Happening.left, BusEvent.received,
          BusEvent.transmitted, uartFr_ne_uartDr]
  | waits address =>
      refine ⟨⟨?_, ?_⟩, Or.inl (Ready.wait address hready)⟩ <;>
        simp [Happening.arrived, Happening.events, Happening.left, BusEvent.received,
          BusEvent.transmitted]
  | gives word =>
      refine ⟨⟨?_, ?_⟩, Or.inl (Ready.load word hready).2⟩ <;>
        simp [Happening.arrived, Happening.events, Happening.left, BusEvent.received,
          BusEvent.transmitted]
  | underruns word => exact absurd rfl (Ready.load word hready).1
  | takes value hroom =>
      refine ⟨⟨?_, ?_⟩, Or.inl (Ready.store value hready).2⟩ <;>
        simp [Happening.arrived, Happening.events, Happening.left, BusEvent.received,
          BusEvent.transmitted]
  | overruns value hfull => exact absurd hfull (Nat.not_le_of_lt (Ready.store value hready).1)

theorem Conserves.cons {happening : Happening} {happenings : List Happening} {middle : Fifos}
    (hfirst : Conserves base fifos [happening] middle)
    (hrest : Conserves base middle happenings fifos') :
    Conserves base fifos (happening :: happenings) fifos' := by
  obtain ⟨hrx, htx⟩ := hfirst
  rw [List.flatMap_singleton, List.flatMap_singleton] at hrx htx
  constructor
  · calc fifos.rx ++ (happening :: happenings).flatMap Happening.arrived
      _ = fifos.rx ++ happening.arrived ++ happenings.flatMap Happening.arrived := by
        rw [List.flatMap_cons, List.append_assoc]
      _ = happening.events.flatMap (BusEvent.received base) ++
          (middle.rx ++ happenings.flatMap Happening.arrived) := by
        rw [hrx, List.append_assoc]
      _ = _ := by
        rw [hrest.rx_eq, List.flatMap_cons, List.flatMap_append, List.append_assoc]
  · calc fifos.tx ++ ((happening :: happenings).flatMap Happening.events).flatMap
          (BusEvent.transmitted base)
      _ = fifos.tx ++ happening.events.flatMap (BusEvent.transmitted base) ++
          (happenings.flatMap Happening.events).flatMap (BusEvent.transmitted base) := by
        rw [List.flatMap_cons, List.flatMap_append, List.append_assoc]
      _ = happening.left ++ (middle.tx ++ (happenings.flatMap Happening.events).flatMap
          (BusEvent.transmitted base)) := by
        rw [htx, List.append_assoc]
      _ = _ := by
        rw [hrest.tx_eq, List.flatMap_cons, List.append_assoc]

/-- Along paced accesses the device loses and makes up nothing. -/
theorem Fifos.History.conserves {happenings : List Happening}
    (hhistory : Fifos.History base depth fifos happenings fifos')
    (hready : Ready base depth fifos (happenings.flatMap Happening.events)) :
    Conserves base fifos happenings fifos' := by
  induction hhistory with
  | nil fifos => exact ⟨List.append_nil _, (List.append_nil _)⟩
  | cons hstep _ ih =>
      rw [List.flatMap_cons] at hready
      obtain ⟨hfirst, hready'⟩ := hstep.conserves hready
      exact hfirst.cons (ih hready')

end

/-! ### Sessions -/

/-- An access and its answer are read off the line. -/
theorem busReading_legible (base : UInt64) {event event' : BusEvent} {rest rest' : List UInt64}
    (hframe : (busReading base).frame event = (busReading base).frame event')
    (hanswer : (busReading base).answer event ++ rest = (busReading base).answer event' ++ rest')
    (hwaits : (busReading base).waits event → rest = [])
    (hwaits' : (busReading base).waits event' → rest' = []) : event = event' := by
  rcases event with ⟨address, _ | word⟩ | ⟨address, value⟩ <;>
    rcases event' with ⟨address', _ | word'⟩ | ⟨address', value'⟩ <;>
    simp_all [busReading, BusEvent.access, BusEvent.answers, BusEvent.Waits, Access.frame,
      UInt32.toUInt64_inj]

/-- The accesses a session has made transcribe it. -/
theorem transcript_of_accounts {base : UInt64} {odp : OdpFfa} {requests : List Request}
    {events : List BusEvent} {line : Line UInt64}
    (haccounts : (busReading base).Accounts events line
      (session ((registerPort base).ffaMsgSendDirectReq2 odp) requests line).line) :
    (busReading base).Transcript (Paced base) (serveAll (ffaMsgSendDirectReq2 odp ⟨silent⟩) requests)
      events line ((session ((registerPort base).ffaMsgSendDirectReq2 odp) requests line).map
        (List.map Exchange.served)) := by
  obtain ⟨events', htranscript⟩ := serveAll_transcribes base odp requests line
  rw [run_serveAll] at htranscript
  have haccounts' := htranscript.accounts
  rw [Outcome.line_map] at haccounts'
  rwa [Reading.Accounts.unique (busReading_legible base) haccounts haccounts']

end OrionO6.Ec
