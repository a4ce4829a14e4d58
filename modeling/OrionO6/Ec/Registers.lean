import OrionO6.Ec.Port

/-!
# The registers of the EC UART

The driver below the service: every byte is a poll of the flag register followed by an access to
the data register. A run is a line of 64-bit words. The frames sent are the accesses in order, and
the words received are what the device answers loads with; a poll goes on for as long as the device
keeps the flag set.
-/

namespace OrionO6.Ec

open Serial

abbrev Bus (α : Type) := Comp Panic UInt64 α

inductive Access where
  | load (address : UInt64)
  | store (address : UInt64) (value : UInt32)
  deriving DecidableEq

namespace Access

def address : Access → UInt64
  | load address => address
  | store address _ => address

def frame : Access → List UInt64
  | load address => [address]
  | store address value => [address, value.toUInt64]

end Access

def uartBase : UInt64 := 0x040E0000
def uartDr (base : UInt64) : UInt64 := base
def uartFr (base : UInt64) : UInt64 := base + 0x18

def readVolatile (address : UInt64) : Bus UInt32 := do
  Comp.send silent (Access.load address).frame
  let word ← Comp.receiveOne
  pure word.toUInt32

def writeVolatile (address : UInt64) (value : UInt32) : Bus Unit :=
  Comp.send silent (Access.store address value).frame

theorem readVolatile_nil (address : UInt64) (sent : List (List UInt64)) :
    (readVolatile address).run ⟨sent, []⟩ =
      .blocked ⟨sent ++ [(Access.load address).frame], []⟩ := by
  rw [readVolatile, Comp.run_bind_of_done (Comp.run_send_silent sent [] _)]
  rfl

theorem readVolatile_cons (address word : UInt64) (sent : List (List UInt64))
    (answers : List UInt64) :
    (readVolatile address).run ⟨sent, word :: answers⟩ =
      .done word.toUInt32 ⟨sent ++ [(Access.load address).frame], answers⟩ := by
  rw [readVolatile, Comp.run_bind_of_done (Comp.run_send_silent sent _ _)]
  rfl

theorem takes_readVolatile (address : UInt64) : Comp.Takes 1 (readVolatile address) := by
  rintro ⟨sent, answers⟩ line' value hdone
  cases answers with
  | nil =>
      rw [readVolatile_nil] at hdone
      cases hdone
  | cons word answers =>
      rw [readVolatile_cons] at hdone
      cases hdone
      exact Nat.le_refl _

/-! ### The driver -/

section

variable (base : UInt64)

/-- One load of the flag register, and whether the flag is clear. -/
def pollBody (flag : UInt32) : Body Panic UInt64 Unit where
  round _ := do
    let flags ← readVolatile (uartFr base)
    pure ((), decide (flags &&& flag = 0))
  takes _ := Comp.Takes.bind 1 0 (takes_readVolatile _) fun _ => Comp.Takes.pure _

def waitClear (flag : UInt32) : Bus Unit := (pollBody base flag).loop ()

/-- The TX FIFO is not full once bit 5 is clear. -/
def writeByte (c : UInt8) : Bus Unit := do
  waitClear base ((1 : UInt32) <<< 5)
  writeVolatile (uartDr base) c.toUInt32

/-- The RX FIFO is not empty once bit 4 is clear. -/
def readByte : Bus UInt8 := do
  waitClear base ((1 : UInt32) <<< 4)
  let value ← readVolatile (uartDr base)
  pure value.toUInt8

def writeBytes : List UInt8 → Bus Unit
  | [] => pure ()
  | byte :: bytes => do
      writeByte base byte
      writeBytes bytes

def readBytes : Nat → Bus (List UInt8)
  | 0 => pure []
  | count + 1 => do
      let byte ← readByte base
      let bytes ← readBytes count
      pure (byte :: bytes)

/-- A wait loads the flag register at least once, and does nothing else. -/
theorem waitClear_cases (flag : UInt32) (answers : List UInt64) :
    ∀ sent : List (List UInt64), ∃ polls,
      (waitClear base flag).run ⟨sent, answers⟩ =
          .blocked ⟨sent ++ List.replicate (polls + 1) (Access.load (uartFr base)).frame, []⟩ ∨
        ∃ rest, rest.length < answers.length ∧ (waitClear base flag).run ⟨sent, answers⟩ =
          .done () ⟨sent ++ List.replicate (polls + 1) (Access.load (uartFr base)).frame, rest⟩ := by
  induction answers with
  | nil =>
      intro sent
      refine ⟨0, Or.inl ((pollBody base flag).loop_of_blocked ?_)⟩
      exact Comp.run_bind_of_blocked (readVolatile_nil _ sent)
  | cons word answers ih =>
      intro sent
      have hround : ((pollBody base flag).round ()).run ⟨sent, word :: answers⟩ =
          .done ((), decide (word.toUInt32 &&& flag = 0))
            ⟨sent ++ [(Access.load (uartFr base)).frame], answers⟩ :=
        Comp.run_bind_of_done (readVolatile_cons _ word sent answers)
      by_cases hclear : word.toUInt32 &&& flag = 0
      · rw [decide_eq_true hclear] at hround
        exact ⟨0, Or.inr ⟨answers, Nat.lt_succ_self _, (pollBody base flag).loop_of_stop hround⟩⟩
      · rw [decide_eq_false hclear] at hround
        have hagain := (pollBody base flag).loop_of_continue hround
        obtain ⟨polls, hwait⟩ := ih (sent ++ [(Access.load (uartFr base)).frame])
        rw [List.append_assoc, List.singleton_append, ← List.replicate_succ] at hwait
        refine ⟨polls + 1, hwait.imp hagain.trans ?_⟩
        rintro ⟨rest, hrest, hdone⟩
        exact ⟨rest, Nat.lt_succ_of_lt hrest, hagain.trans hdone⟩

theorem takes_waitClear (flag : UInt32) : Comp.Takes 1 (waitClear base flag) := by
  rintro ⟨sent, answers⟩ line' value hdone
  obtain ⟨polls, hblocked | ⟨rest, hrest, hwait⟩⟩ := waitClear_cases base flag answers sent
  · rw [hblocked] at hdone
    cases hdone
  · rw [hwait] at hdone
    cases hdone
    exact hrest

theorem takes_readByte : Comp.Takes 2 (readByte base) :=
  Comp.Takes.bind 1 1 (takes_waitClear base _) fun _ =>
    Comp.Takes.bind 1 0 (takes_readVolatile _) fun _ => Comp.Takes.pure _

theorem takes_readBytes (count : Nat) : Comp.Takes count (readBytes base count) := by
  induction count with
  | zero => exact Comp.Takes.pure _
  | succ count ih =>
      have hbyte : Comp.Takes 1 (readByte base) := (takes_readByte base).mono (by decide)
      have hrest : Comp.Takes (1 + count) (readBytes base (count + 1)) :=
        Comp.Takes.bind 1 count hbyte fun byte =>
          Comp.Takes.bind count 0 ih fun bytes => Comp.Takes.pure _
      rwa [Nat.add_comm] at hrest

/-- `EcUart` as the service uses it, on the registers at a base address. -/
def registerPort : Port UInt64 where
  write := writeBytes base
  read := readBytes base
  takes_read := takes_readBytes base

/-! ### What the driver touches -/

section

variable {base} {invariant : List (List UInt64) → Prop}

/-- An access may be made without harm to an invariant of the history. -/
def Allows (invariant : List (List UInt64) → Prop) (access : Access) : Prop :=
  ∀ sent, invariant sent → invariant (sent ++ [access.frame])

variable (hfr : Allows invariant (.load (uartFr base)))
  (hdr : Allows invariant (.load (uartDr base)))
  (hstore : ∀ value, Allows invariant (.store (uartDr base) value))

theorem preserves_readVolatile {address : UInt64} (haddress : Allows invariant (.load address)) :
    Comp.Preserves invariant (readVolatile address) := by
  refine (Comp.Preserves.send _ haddress).bind fun _ => ?_
  exact Comp.Preserves.receiveOne.bind fun word => Comp.Preserves.pure _

include hfr

theorem preserves_waitClear (flag : UInt32) : Comp.Preserves invariant (waitClear base flag) :=
  (pollBody base flag).preserves_loop
    (fun _ => (preserves_readVolatile hfr).bind fun _ => Comp.Preserves.pure _) ()

include hdr in
theorem preserves_readBytes (count : Nat) : Comp.Preserves invariant (readBytes base count) := by
  induction count with
  | zero => exact Comp.Preserves.pure _
  | succ count ih =>
      have hbyte : Comp.Preserves invariant (readByte base) :=
        (preserves_waitClear hfr _).bind fun _ =>
          (preserves_readVolatile hdr).bind fun value => Comp.Preserves.pure _
      exact hbyte.bind fun byte => ih.bind fun bytes => Comp.Preserves.pure _

include hstore in
theorem preserves_writeBytes (data : List UInt8) :
    Comp.Preserves invariant (writeBytes base data) := by
  induction data with
  | nil => exact Comp.Preserves.pure _
  | cons byte data ih =>
      have hbyte : Comp.Preserves invariant (writeByte base byte) :=
        (preserves_waitClear hfr _).bind fun _ => Comp.Preserves.send _ (hstore _)
      exact hbyte.bind fun _ => ih

include hdr hstore in
/-- **The service touches two registers.** An invariant of the history that allows loads of the
flag register and loads and stores of the data register holds throughout every request. -/
theorem preserves_registerPort (odp : OdpFfa) (request : Request) :
    Comp.Preserves invariant ((registerPort base).ffaMsgSendDirectReq2 odp request) :=
  Port.preserves_ffaMsgSendDirectReq2 (preserves_writeBytes hfr hstore)
    (preserves_readBytes hfr hdr) odp request

end

/-! ### The bytes behind the accesses -/

/-- What a store to the data register puts on the wire. -/
def storedBytes : List UInt64 → List UInt8
  | [address, value] => if address = uartDr base then [value.toUInt8] else []
  | _ => []

/-- A computation that stores exactly these bytes, if it comes to an end, and never aborts. -/
def Stores (bytes : List UInt8) (comp : Bus Unit) : Prop :=
  ∀ line, ∃ steps, (comp.run line).line.sent = line.sent ++ steps ∧
    ((∃ line', comp.run line = .blocked line') ∨
      (∃ line', comp.run line = .done () line') ∧ steps.flatMap (storedBytes base) = bytes)

variable {base}

theorem Stores.bind {first second : List UInt8} {comp next : Bus Unit}
    (hcomp : Stores base first comp) (hnext : Stores base second next) :
    Stores base (first ++ second) (comp >>= fun _ => next) := by
  intro line
  obtain ⟨steps, hsteps, ⟨line', hblocked⟩ | ⟨⟨line', hdone⟩, hfirst⟩⟩ := hcomp line
  · rw [hblocked] at hsteps
    rw [Comp.run_bind_of_blocked hblocked]
    exact ⟨steps, hsteps, Or.inl ⟨line', rfl⟩⟩
  · rw [hdone] at hsteps
    obtain ⟨later, hlater, hends⟩ := hnext line'
    rw [Comp.run_bind_of_done hdone]
    refine ⟨steps ++ later, ?_, hends.imp_right fun hsecond => ⟨hsecond.1, ?_⟩⟩
    · rw [hlater, ← List.append_assoc]
      exact congrArg (· ++ later) hsteps
    · rw [List.flatMap_append, hfirst, hsecond.2]

theorem stores_waitClear (flag : UInt32) : Stores base [] (waitClear base flag) := by
  rintro ⟨sent, answers⟩
  obtain ⟨polls, hblocked | ⟨rest, -, hdone⟩⟩ := waitClear_cases base flag answers sent
  · exact ⟨_, by rw [hblocked]; rfl, Or.inl ⟨_, hblocked⟩⟩
  · refine ⟨_, by rw [hdone]; rfl, Or.inr ⟨⟨_, hdone⟩, ?_⟩⟩
    rw [List.flatMap_eq_nil_iff]
    intro frame hframe
    rw [List.eq_of_mem_replicate hframe]
    rfl

theorem stores_writeByte (byte : UInt8) : Stores base [byte] (writeByte base byte) := by
  have hstore : Stores base [byte] (writeVolatile (uartDr base) byte.toUInt32) := by
    intro line
    refine ⟨[(Access.store (uartDr base) byte.toUInt32).frame], rfl, Or.inr ⟨⟨_, rfl⟩, ?_⟩⟩
    rw [List.flatMap_singleton, Access.frame, storedBytes, if_pos rfl]
    simp
  exact (stores_waitClear _).bind hstore

theorem stores_writeBytes (data : List UInt8) : Stores base data (writeBytes base data) := by
  induction data with
  | nil =>
      intro line
      exact ⟨[], (List.append_nil _).symm, Or.inr ⟨⟨line, rfl⟩, rfl⟩⟩
  | cons byte data ih => exact (stores_writeByte byte).bind ih

/-- Bytes stored one by one are the frame that the line takes at once. -/
theorem refines_of_stores {data : List UInt8} {comp : Bus Unit} (hstores : Stores base data comp) :
    Refines (storedBytes base) comp (Comp.send silent data) := by
  intro line
  obtain ⟨steps, hsteps, ⟨line', hblocked⟩ | ⟨⟨line', hdone⟩, hdata⟩⟩ := hstores line
  · rw [hblocked] at hsteps
    exact Refines.exists_of_blocked hblocked hsteps
  · refine ⟨steps, [], [data], hsteps, ?_, ?_⟩
    · rw [hdata, List.flatten_singleton]
    · rw [hdone]
      intro sent rest
      exact Comp.run_send_silent sent rest data

theorem refines_pure_of_stores {comp : Bus Unit} (hstores : Stores base [] comp) :
    Refines (storedBytes base) comp (pure () : Uart Unit) := by
  intro line
  obtain ⟨steps, hsteps, ⟨line', hblocked⟩ | ⟨⟨line', hdone⟩, hnone⟩⟩ := hstores line
  · rw [hblocked] at hsteps
    exact Refines.exists_of_blocked hblocked hsteps
  · refine ⟨steps, [], [], hsteps, hnone, ?_⟩
    rw [hdone]
    intro sent rest
    rw [List.append_nil]
    rfl

theorem loadByte_refines :
    Refines (storedBytes base)
      (readVolatile (uartDr base) >>= fun value => pure value.toUInt8 : Bus UInt8)
      (Comp.receiveOne : Uart UInt8) := by
  rintro ⟨sent, answers⟩
  cases answers with
  | nil =>
      have hblocked : (readVolatile (uartDr base) >>= fun value => pure value.toUInt8 :
          Bus UInt8).run ⟨sent, []⟩ =
            .blocked ⟨sent ++ [(Access.load (uartDr base)).frame], []⟩ :=
        Comp.run_bind_of_blocked (readVolatile_nil _ sent)
      exact Refines.exists_of_blocked hblocked rfl
  | cons word answers =>
      rw [Comp.run_bind_of_done (readVolatile_cons _ word sent answers)]
      refine ⟨_, [word.toUInt32.toUInt8], [], rfl, rfl, fun sent rest => ?_⟩
      rw [List.append_nil]
      rfl

theorem readByte_refines : Refines (storedBytes base) (readByte base) Comp.receiveOne :=
  (refines_pure_of_stores (stores_waitClear _)).bind fun _ => loadByte_refines

theorem readBytes_refines (count : Nat) :
    Refines (storedBytes base) (readBytes base count) (Comp.receive count) := by
  induction count with
  | zero => exact Refines.pure _
  | succ count ih => exact readByte_refines.bind fun byte => ih.bind fun bytes => Refines.pure _

/-- **The registers carry the service of the line.** Whatever the device answers, a request handled
on the registers ends as it does on a line that begins with the bytes the data register gave. -/
theorem registerPort_refines (odp : OdpFfa) (request : Request) :
    Refines (storedBytes base) ((registerPort base).ffaMsgSendDirectReq2 odp request)
      (ffaMsgSendDirectReq2 odp ⟨silent⟩ request) :=
  @Port.ffaMsgSendDirectReq2_refines _ _ (registerPort base) (linePort ⟨silent⟩) _
    (fun data => refines_of_stores (stores_writeBytes data)) readBytes_refines odp request

end

end OrionO6.Ec
