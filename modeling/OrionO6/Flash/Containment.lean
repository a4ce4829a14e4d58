import Mathlib.Algebra.Order.Ring.Nat
import OrionO6.Flash.Fvb

/-!
# Where FVB transfers go

`FvbRead` and `FvbWrite` add the block they are asked for to the first block of the region, modulo
2 ^ 64, and do not compare it with the number of blocks. A run stays inside the region exactly when
all of its requests ask for a block that exists, or for something else that is rejected first.
-/

namespace OrionO6.Flash

inductive TransferRequest where
  | read (lba offset numBytes : UInt64) (buffer : Buffer)
  | write (lba offset numBytes : UInt64) (buffer : Buffer)

namespace TransferRequest

def lba : TransferRequest → UInt64
  | read lba _ _ _ | write lba _ _ _ => lba

def handle {σ : Type} (lib : NorFlashLib σ) (nor : NorFlashInstance) :
    TransferRequest → Driver σ Transfer
  | read lba offset numBytes buffer => fvbRead lib nor lba offset numBytes buffer
  | write lba offset numBytes buffer => fvbWrite lib nor lba offset numBytes buffer

def Rejected (nor : NorFlashInstance) : TransferRequest → Prop
  | read _ offset numBytes _ => TransferRejected nor offset numBytes
  | write _ offset numBytes _ =>
      nor.media.readOnly = true ∨ TransferRejected nor offset numBytes

/-- The block exists in the region, and its number on the device is a 64-bit number. -/
def BlockExists (nor : NorFlashInstance) (request : TransferRequest) : Prop :=
  request.lba < nor.blocks ∧ nor.startLba.toNat + request.lba.toNat < 2 ^ 64

end TransferRequest

/-! ### Device addresses -/

/-- The device bytes a call is about, as the first of them and their number. -/
def FlashOp.extent (nor : NorFlashInstance) : FlashOp → Nat × Nat
  | .read lba offset numBytes | .write lba offset numBytes =>
      (lba.toNat * nor.media.blockSize.toNat + offset.toNat, numBytes.toNat)
  | .readBlocks lba bufferSize | .writeBlocks lba bufferSize =>
      (lba.toNat * nor.media.blockSize.toNat, bufferSize.toNat)
  | .erase lba size => (lba.toNat * nor.media.blockSize.toNat, size.toNat)

def FlashOp.Touches (nor : NorFlashInstance) (op : FlashOp) (address : Nat) : Prop :=
  (op.extent nor).1 ≤ address ∧ address < (op.extent nor).1 + (op.extent nor).2

def InRegion (nor : NorFlashInstance) (address : Nat) : Prop :=
  nor.startLba.toNat * nor.media.blockSize.toNat ≤ address ∧
    address < (nor.startLba.toNat + nor.blocks.toNat) * nor.media.blockSize.toNat

/-- What is asked of every step: a block past the last one is refused without a call, and no byte
outside the region is read or modified. -/
def Contained (nor : NorFlashInstance) (step : Traced.Step TransferRequest Call Transfer) : Prop :=
  (nor.blocks ≤ step.request.lba → step.value.status.isError = true ∧ step.calls = []) ∧
    ∀ call ∈ step.calls, ∀ address, call.op.Touches nor address → InRegion nor address

theorem part_in_region_iff {size start blocks block first count : Nat} (hcount : 0 < count)
    (hpart : first + count ≤ size) :
    (∀ address, block * size + first ≤ address ∧ address < block * size + first + count →
        start * size ≤ address ∧ address < (start + blocks) * size) ↔
      start ≤ block ∧ block < start + blocks := by
  constructor
  · intro hall
    obtain ⟨hlow, hhigh⟩ := hall (block * size + first) ⟨Nat.le_refl _, by omega⟩
    constructor
    · by_contra hbefore
      have hle : (block + 1) * size ≤ start * size := Nat.mul_le_mul_right size (by omega)
      rw [Nat.add_mul] at hle
      omega
    · by_contra hafter
      have hle : (start + blocks) * size ≤ block * size := Nat.mul_le_mul_right size (by omega)
      omega
  · rintro ⟨hstart, hend⟩ address ⟨hlow, hhigh⟩
    have hfirst : start * size ≤ block * size := Nat.mul_le_mul_right size hstart
    have hlast : (block + 1) * size ≤ (start + blocks) * size := Nat.mul_le_mul_right size hend
    rw [Nat.add_mul block] at hlast
    omega

section

variable {nor : NorFlashInstance} {step : Traced.Step TransferRequest Call Transfer}

theorem contained_of_refused (hstatus : step.value.status.isError = true)
    (hcalls : step.calls = []) : Contained nor step := by
  refine ⟨fun _ => ⟨hstatus, hcalls⟩, ?_⟩
  rw [hcalls]
  intro call hcall
  cases hcall

theorem contained_iff_of_call {op : FlashOp} {status : EfiStatus} {first : Nat}
    (hcalls : step.calls = [{ op, status }])
    (hextent : (op.extent nor).1 =
      (nor.startLba + step.request.lba).toNat * nor.media.blockSize.toNat + first)
    (hcount : 0 < (op.extent nor).2)
    (hpart : first + (op.extent nor).2 ≤ nor.media.blockSize.toNat) :
    Contained nor step ↔ step.request.BlockExists nor := by
  have hblock := @part_in_region_iff _ nor.startLba.toNat nor.blocks.toNat
    (nor.startLba + step.request.lba).toNat first _ hcount hpart
  have hinside : (∀ address, op.Touches nor address → InRegion nor address) ↔
      nor.startLba.toNat ≤ (nor.startLba + step.request.lba).toNat ∧
        (nor.startLba + step.request.lba).toNat < nor.startLba.toNat + nor.blocks.toNat := by
    rw [← hblock]
    simp only [FlashOp.Touches, InRegion, hextent]
  have hstart := nor.startLba.toNat_lt
  have hlba := step.request.lba.toNat_lt
  rw [UInt64.toNat_add] at hinside
  rw [Contained, hcalls, List.forall_mem_singleton, hinside, TransferRequest.BlockExists,
    UInt64.lt_iff_toNat_lt, UInt64.le_iff_toNat_le]
  simp only [List.cons_ne_nil, and_false]
  omega

end

/-! ### Runs -/

section

variable {σ : Type} (lib : NorFlashLib σ) (nor : NorFlashInstance)

theorem contained_of_rejected {request : TransferRequest} (hrejected : request.Rejected nor)
    (state : σ) : Contained nor (Traced.step (TransferRequest.handle lib nor) request state) := by
  cases request with
  | read lba offset numBytes buffer =>
      obtain ⟨count, hread⟩ := fvbRead_of_rejected lib lba buffer hrejected
      rw [Traced.step_of_pure (TransferRequest.handle lib nor) (.read lba offset numBytes buffer) hread]
      exact contained_of_refused rfl rfl
  | write lba offset numBytes buffer =>
      cases hreadOnly : nor.media.readOnly with
      | true =>
          rw [Traced.step_of_pure (TransferRequest.handle lib nor)
            (.write lba offset numBytes buffer) (fvbWrite_of_readOnly lib lba buffer hreadOnly)]
          exact contained_of_refused rfl rfl
      | false =>
          obtain ⟨count, hwrite⟩ := fvbWrite_of_rejected lib lba buffer hreadOnly
            (hrejected.resolve_left (by simp [hreadOnly]))
          rw [Traced.step_of_pure (TransferRequest.handle lib nor)
            (.write lba offset numBytes buffer) hwrite]
          exact contained_of_refused rfl rfl

/-- **One transfer.** It is contained exactly when it is rejected or its block exists. -/
theorem contained_step_iff (request : TransferRequest) (state : σ) :
    Contained nor (Traced.step (TransferRequest.handle lib nor) request state) ↔
      request.Rejected nor ∨ request.BlockExists nor := by
  by_cases hrejected : request.Rejected nor
  · exact iff_of_true (contained_of_rejected lib nor hrejected state) (Or.inl hrejected)
  · rw [or_iff_right hrejected]
    cases request with
    | read lba offset numBytes buffer =>
        obtain ⟨hoffset, hbytes, hpos⟩ := not_transferRejected_iff.mp hrejected
        rcases UInt64.lt_or_eq_of_le hbytes with hlt | hwhole
        · rw [Traced.step_of_call (TransferRequest.handle lib nor)
            (.read lba offset numBytes buffer) (fvbRead_of_part lib lba buffer hrejected hlt)]
          exact contained_iff_of_call rfl rfl (bytesServed_pos hoffset hbytes hpos)
            (offset_add_bytesServed_le hoffset hbytes)
        · rw [Traced.step_of_call (TransferRequest.handle lib nor)
            (.read lba offset numBytes buffer) (fvbRead_of_whole lib lba buffer hrejected hwhole)]
          refine contained_iff_of_call rfl (Nat.add_zero _).symm (toNat_pos_of_ne_zero hpos) ?_
          exact (Nat.zero_add _).trans_le (toNat_of_whole hwhole).le
    | write lba offset numBytes buffer =>
        rw [TransferRequest.Rejected, not_or, Bool.not_eq_true] at hrejected
        obtain ⟨hwritable, haccepted⟩ := hrejected
        obtain ⟨hoffset, hbytes, hpos⟩ := not_transferRejected_iff.mp haccepted
        rcases UInt64.lt_or_eq_of_le hbytes with hlt | hwhole
        · rw [Traced.step_of_call (TransferRequest.handle lib nor)
            (.write lba offset numBytes buffer)
            (fvbWrite_of_part lib lba buffer hwritable haccepted hlt)]
          exact contained_iff_of_call rfl rfl (bytesServed_pos hoffset hbytes hpos)
            (offset_add_bytesServed_le hoffset hbytes)
        · rw [Traced.step_of_call (TransferRequest.handle lib nor)
            (.write lba offset numBytes buffer)
            (fvbWrite_of_whole lib lba buffer hwritable haccepted hwhole)]
          refine contained_iff_of_call rfl (Nat.add_zero _).symm (toNat_pos_of_ne_zero hpos) ?_
          exact (Nat.zero_add _).trans_le (toNat_of_whole hwhole).le

/-- **Runs of transfers.** Whatever the device does, a run of reads and writes stays inside the
region, and refuses every block past the last one, exactly when each of its requests is rejected for
another reason or is for a block that exists. -/
theorem contained_steps_iff (requests : List TransferRequest) (state : σ) :
    (∀ step ∈ Traced.steps (TransferRequest.handle lib nor) requests state, Contained nor step) ↔
      ∀ request ∈ requests, request.Rejected nor ∨ request.BlockExists nor :=
  Traced.forall_steps_iff _ (contained_step_iff lib nor) requests state

end

/-- A write to the first block after the region goes through. -/
theorem write_past_region :
    ∃ step ∈ Traced.steps (TransferRequest.handle NorFlashLib.idle (sampleInstance false))
        [.write 0x60 0 1 sampleBuffer] (),
      (sampleInstance false).blocks ≤ step.request.lba ∧ step.value.status = .success ∧
        step.calls = [{ op := .write 0x760 0 1, status := .success }] ∧
        ¬ Contained (sampleInstance false) step := by
  refine ⟨_, List.mem_singleton.mpr rfl, by decide, rfl, rfl, ?_⟩
  intro hcontained
  obtain ⟨_, hcalls⟩ := hcontained.1 (by decide)
  cases hcalls

end OrionO6.Flash
