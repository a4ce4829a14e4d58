import OrionO6.Flash.Fvb
import OrionO6.Flash.Region

/-!
# Erasing ranges of blocks

`FvbEraseBlocks` checks every range before it erases the first, but with an addition that wraps
around at 2 ^ 64. It does what it should for every list without a range that wraps, and for every list
that one of its own checks rejects.
-/

namespace OrionO6.Flash

structure LbaRange where
  startingLba : UInt64
  numOfLba : UInt64
  ne_terminator : startingLba ≠ efiLbaListTerminator

namespace LbaRange

def args (ranges : List LbaRange) : List UInt64 :=
  ranges.flatMap (fun range => [range.startingLba, range.numOfLba]) ++ [efiLbaListTerminator]

def Names (range : LbaRange) (index : Nat) : Prop :=
  range.startingLba.toNat ≤ index ∧ index < range.startingLba.toNat + range.numOfLba.toNat

/-- The range is empty or names a block that does not exist. -/
def Invalid (nor : NorFlashInstance) (range : LbaRange) : Prop :=
  range.numOfLba = 0 ∨ ∃ index, range.Names index ∧ nor.blocks.toNat ≤ index

def Rejected (nor : NorFlashInstance) (range : LbaRange) : Prop :=
  range.numOfLba = 0 ∨ range.startingLba + range.numOfLba > nor.blocks

def Fits (range : LbaRange) : Prop := range.startingLba.toNat + range.numOfLba.toNat < 2 ^ 64

def eraseOp (nor : NorFlashInstance) (range : LbaRange) : FlashOp :=
  .erase (nor.startLba + range.startingLba) (range.numOfLba * nor.media.blockSize.toUInt64)

theorem invalid_iff {nor : NorFlashInstance} {range : LbaRange} :
    range.Invalid nor ↔ range.numOfLba = 0 ∨
      nor.blocks.toNat < range.startingLba.toNat + range.numOfLba.toNat := by
  constructor
  · rintro (hzero | ⟨index, ⟨_, hlast⟩, hblocks⟩)
    · exact Or.inl hzero
    · exact Or.inr (Nat.lt_of_le_of_lt hblocks hlast)
  · rintro (hzero | hlarge)
    · exact Or.inl hzero
    · by_cases hzero : range.numOfLba = 0
      · exact Or.inl hzero
      · have hpos := toNat_pos_of_ne_zero hzero
        refine Or.inr ⟨range.startingLba.toNat + range.numOfLba.toNat - 1, ?_, ?_⟩
        · constructor <;> omega
        · omega

/-- Without wrapping, the check of the first pass is right. -/
theorem rejected_iff_of_fits {nor : NorFlashInstance} {range : LbaRange} (hfits : range.Fits) :
    range.Rejected nor ↔ range.Invalid nor := by
  rw [invalid_iff, Rejected, gt_iff_lt, UInt64.lt_iff_toNat_lt, UInt64.toNat_add,
    Nat.mod_eq_of_lt hfits]

theorem invalid_of_rejected {nor : NorFlashInstance} {range : LbaRange}
    (hrejected : range.Rejected nor) : range.Invalid nor := by
  rw [invalid_iff]
  rw [Rejected, gt_iff_lt, UInt64.lt_iff_toNat_lt, UInt64.toNat_add] at hrejected
  refine hrejected.imp_right fun hlarge => Nat.lt_of_lt_of_le hlarge (Nat.mod_le _ _)

/-- A range that wraps is invalid, whatever the first pass makes of it. -/
theorem invalid_of_not_fits {nor : NorFlashInstance} {range : LbaRange} (hwraps : ¬ range.Fits) :
    range.Invalid nor := by
  have hblocks := nor.blocks.toNat_lt
  rw [invalid_iff]
  rw [Fits] at hwraps
  omega

end LbaRange

def FlashOp.ErasesBlock (nor : NorFlashInstance) (block : Nat) : FlashOp → Prop
  | .erase lba size => lba.toNat ≤ block ∧
      block * nor.media.blockSize.toNat < lba.toNat * nor.media.blockSize.toNat + size.toNat
  | _ => False

/-! ### The two passes -/

theorem eraseArgsAccepted_iff (nor : NorFlashInstance) (ranges : List LbaRange) :
    eraseArgsAccepted nor (LbaRange.args ranges) = true ↔
      ∀ range ∈ ranges, ¬ range.Rejected nor := by
  induction ranges with
  | nil => simp [LbaRange.args, eraseArgsAccepted]
  | cons range ranges ih =>
      have hargs : LbaRange.args (range :: ranges) =
          range.startingLba :: range.numOfLba :: LbaRange.args ranges := rfl
      rw [hargs, eraseArgsAccepted, if_neg range.ne_terminator, List.forall_mem_cons, ← ih]
      by_cases hrejected : range.numOfLba = 0 ∨ range.startingLba + range.numOfLba > nor.blocks
      · rw [if_pos hrejected]
        exact iff_of_false (by simp) fun hall => hall.1 hrejected
      · rw [if_neg hrejected]
        exact (and_iff_right hrejected).symm

section

variable {σ : Type} (lib : NorFlashLib σ) (nor : NorFlashInstance)

theorem eraseRanges_cons (status : EfiStatus) (range : LbaRange) (ranges : List LbaRange) :
    eraseRanges lib nor status (LbaRange.args (range :: ranges)) = (do
      let status ← lib.norFlashErase nor (nor.startLba + range.startingLba)
        (range.numOfLba * nor.media.blockSize.toUInt64)
      if status.isError then pure .deviceError
      else eraseRanges lib nor status (LbaRange.args ranges)) := by
  have hargs : LbaRange.args (range :: ranges) =
      range.startingLba :: range.numOfLba :: LbaRange.args ranges := rfl
  rw [hargs, eraseRanges, if_neg range.ne_terminator]

theorem eraseRanges_of_success (ranges : List LbaRange) :
    ∀ state : σ,
      (∀ call ∈ ((eraseRanges lib nor .success (LbaRange.args ranges)).run state).calls,
        call.status = .success) →
      ((eraseRanges lib nor .success (LbaRange.args ranges)).run state).value = .success ∧
        ((eraseRanges lib nor .success (LbaRange.args ranges)).run state).calls.map Call.op =
          ranges.map (LbaRange.eraseOp nor) := by
  induction ranges with
  | nil =>
      intro state _
      exact ⟨rfl, rfl⟩
  | cons range ranges ih =>
      intro state hsuccess
      rw [eraseRanges_cons] at hsuccess ⊢
      have hfirst : (lib.erase nor (nor.startLba + range.startingLba)
          (range.numOfLba * nor.media.blockSize.toUInt64) state).1 = .success :=
        hsuccess _ List.mem_cons_self
      have hnoError : EfiStatus.success.isError = false := by decide
      simp only [NorFlashLib.norFlashErase, Traced.run_bind, Traced.run_call, hfirst, hnoError,
        Bool.false_eq_true, if_false] at hsuccess ⊢
      obtain ⟨hvalue, hops⟩ := ih _ fun call hcall => hsuccess call (List.mem_cons_of_mem _ hcall)
      refine ⟨hvalue, ?_⟩
      rw [List.singleton_append, List.map_cons, List.map_cons, hops]
      rfl

/-- The second pass starts with the first range, however that ends. -/
theorem calls_eraseRanges_ne_nil (status : EfiStatus) (range : LbaRange) (ranges : List LbaRange)
    (state : σ) :
    ((eraseRanges lib nor status (LbaRange.args (range :: ranges))).run state).calls ≠ [] := by
  rw [eraseRanges_cons]
  exact List.cons_ne_nil _ _

end

/-! ### The contract -/

/-- What `FvbEraseBlocks` should do. A list with an invalid range is refused before anything is
erased; any other list, if every erase succeeds, erases the blocks that it names, all of them in the
region, and nothing else. -/
structure ErasesAsAsked {σ : Type} (nor : NorFlashInstance) (ranges : List LbaRange)
    (ran : Ran σ Call EfiStatus) : Prop where
  refuses : (∃ range ∈ ranges, range.Invalid nor) →
    ran.value = .invalidParameter ∧ ran.calls = []
  succeeds : (∀ range ∈ ranges, ¬ range.Invalid nor) →
    (∀ call ∈ ran.calls, call.status = .success) → ran.value = .success
  erases : (∀ range ∈ ranges, ¬ range.Invalid nor) →
    (∀ call ∈ ran.calls, call.status = .success) → ∀ block,
      (∃ call ∈ ran.calls, call.op.ErasesBlock nor block) ↔
        ∃ range ∈ ranges, ∃ index, range.Names index ∧ block = nor.startLba.toNat + index
  inside : (∀ range ∈ ranges, ¬ range.Invalid nor) →
    (∀ call ∈ ran.calls, call.status = .success) → ∀ block,
      (∃ call ∈ ran.calls, call.op.ErasesBlock nor block) →
        nor.startLba.toNat ≤ block ∧ block < nor.startLba.toNat + nor.blocks.toNat

theorem erasesBlock_eraseOp_iff (nor : FvbInstance) {range : LbaRange}
    (hvalid : ¬ range.Invalid nor.toNorFlashInstance) (block : Nat) :
    (range.eraseOp nor.toNorFlashInstance).ErasesBlock nor.toNorFlashInstance block ↔
      ∃ index, range.Names index ∧ block = nor.startLba.toNat + index := by
  rw [LbaRange.invalid_iff, not_or, not_lt] at hvalid
  obtain ⟨hnonempty, hinside⟩ := hvalid
  have hpos := toNat_pos_of_ne_zero hnonempty
  have hregion := nor.region_le
  have hsize := nor.size_lt
  have hblockSize := nor.blockSize_pos
  have hstart := calc (nor.startLba + range.startingLba).toNat
    _ = (nor.startLba.toNat + range.startingLba.toNat) % 2 ^ 64 := UInt64.toNat_add _ _
    _ = nor.startLba.toNat + range.startingLba.toNat := Nat.mod_eq_of_lt (by omega)
  have hinRegion : range.numOfLba.toNat * nor.media.blockSize.toNat ≤
      nor.blocks.toNat * nor.media.blockSize.toNat := Nat.mul_le_mul_right _ (by omega)
  have hbytes := calc (range.numOfLba * nor.media.blockSize.toUInt64).toNat
    _ = range.numOfLba.toNat * nor.media.blockSize.toNat % 2 ^ 64 := by
          rw [UInt64.toNat_mul, UInt32.toNat_toUInt64]
    _ = range.numOfLba.toNat * nor.media.blockSize.toNat :=
          Nat.mod_eq_of_lt (Nat.lt_of_le_of_lt hinRegion hsize)
  rw [LbaRange.eraseOp, FlashOp.ErasesBlock, hstart, hbytes, ← Nat.add_mul,
    Nat.mul_lt_mul_right hblockSize]
  constructor
  · rintro ⟨hlow, hhigh⟩
    exact ⟨block - nor.startLba.toNat, ⟨by omega, by omega⟩, by omega⟩
  · rintro ⟨index, ⟨hlow, hhigh⟩, rfl⟩
    omega

section

variable {σ : Type} (lib : NorFlashLib σ) (nor : FvbInstance)

theorem fvbEraseBlocks_of_rejected (hwritable : nor.media.readOnly = false) {ranges : List LbaRange}
    (hrejected : ∃ range ∈ ranges, range.Rejected nor.toNorFlashInstance) :
    fvbEraseBlocks lib nor.toNorFlashInstance (LbaRange.args ranges) = pure .invalidParameter := by
  have hargs : ¬ eraseArgsAccepted nor.toNorFlashInstance (LbaRange.args ranges) = true := by
    rw [eraseArgsAccepted_iff]
    obtain ⟨range, hrange, hbad⟩ := hrejected
    exact fun hall => hall range hrange hbad
  rw [fvbEraseBlocks, if_neg (by simp [hwritable]), if_neg hargs]

theorem fvbEraseBlocks_of_accepted (hwritable : nor.media.readOnly = false) {ranges : List LbaRange}
    (haccepted : ∀ range ∈ ranges, ¬ range.Rejected nor.toNorFlashInstance) :
    fvbEraseBlocks lib nor.toNorFlashInstance (LbaRange.args ranges) =
      eraseRanges lib nor.toNorFlashInstance .success (LbaRange.args ranges) := by
  rw [fvbEraseBlocks, if_neg (by simp [hwritable]), if_pos ((eraseArgsAccepted_iff _ _).mpr haccepted)]

theorem erased_iff_named {ranges : List LbaRange} {calls : List Call}
    (hvalid : ∀ range ∈ ranges, ¬ range.Invalid nor.toNorFlashInstance)
    (hops : calls.map Call.op = ranges.map (LbaRange.eraseOp nor.toNorFlashInstance)) (block : Nat) :
    (∃ call ∈ calls, call.op.ErasesBlock nor.toNorFlashInstance block) ↔
      ∃ range ∈ ranges, ∃ index, range.Names index ∧ block = nor.startLba.toNat + index := by
  constructor
  · rintro ⟨call, hcall, herases⟩
    have hop : call.op ∈ calls.map Call.op := List.mem_map_of_mem hcall
    rw [hops] at hop
    obtain ⟨range, hrange, heq⟩ := List.mem_map.mp hop
    rw [← heq] at herases
    exact ⟨range, hrange, (erasesBlock_eraseOp_iff nor (hvalid range hrange) block).mp herases⟩
  · rintro ⟨range, hrange, hnamed⟩
    have hop : range.eraseOp nor.toNorFlashInstance ∈
        ranges.map (LbaRange.eraseOp nor.toNorFlashInstance) := List.mem_map_of_mem hrange
    rw [← hops] at hop
    obtain ⟨call, hcall, heq⟩ := List.mem_map.mp hop
    refine ⟨call, hcall, ?_⟩
    rw [heq]
    exact (erasesBlock_eraseOp_iff nor (hvalid range hrange) block).mpr hnamed

theorem erasesAsAsked_of_rejected (hwritable : nor.media.readOnly = false) {ranges : List LbaRange}
    (hrejected : ∃ range ∈ ranges, range.Rejected nor.toNorFlashInstance) (state : σ) :
    ErasesAsAsked nor.toNorFlashInstance ranges
      ((fvbEraseBlocks lib nor.toNorFlashInstance (LbaRange.args ranges)).run state) := by
  rw [fvbEraseBlocks_of_rejected lib nor hwritable hrejected, Traced.run_pure]
  obtain ⟨range, hrange, hbad⟩ := hrejected
  have hinvalid := LbaRange.invalid_of_rejected hbad
  exact {
    refuses := fun _ => ⟨rfl, rfl⟩
    succeeds := fun hvalid => absurd hinvalid (hvalid range hrange)
    erases := fun hvalid => absurd hinvalid (hvalid range hrange)
    inside := fun hvalid => absurd hinvalid (hvalid range hrange) }

/-- A range that wraps around should be refused, and nothing is refused any more. -/
theorem fits_of_erasesAsAsked {ranges : List LbaRange} {state : σ}
    (hasked : ErasesAsAsked nor.toNorFlashInstance ranges
      ((eraseRanges lib nor.toNorFlashInstance .success (LbaRange.args ranges)).run state)) :
    ∀ range ∈ ranges, range.Fits := by
  intro range hrange
  by_contra hwraps
  obtain ⟨_, hcalls⟩ := hasked.refuses ⟨range, hrange, LbaRange.invalid_of_not_fits hwraps⟩
  cases ranges with
  | nil => cases hrange
  | cons first ranges => exact calls_eraseRanges_ne_nil lib _ _ first ranges state hcalls

theorem erasesAsAsked_of_valid {ranges : List LbaRange} (state : σ)
    (hvalid : ∀ range ∈ ranges, ¬ range.Invalid nor.toNorFlashInstance) :
    ErasesAsAsked nor.toNorFlashInstance ranges
      ((eraseRanges lib nor.toNorFlashInstance .success (LbaRange.args ranges)).run state) := by
  have hpass := eraseRanges_of_success lib nor.toNorFlashInstance ranges state
  refine ⟨?_, fun _ hsuccess => (hpass hsuccess).1, ?_, ?_⟩
  · rintro ⟨range, hrange, hinvalid⟩
    exact absurd hinvalid (hvalid range hrange)
  · intro _ hsuccess block
    exact erased_iff_named nor hvalid (hpass hsuccess).2 block
  · intro _ hsuccess block herased
    obtain ⟨range, hrange, index, ⟨hlow, hhigh⟩, rfl⟩ :=
      (erased_iff_named nor hvalid (hpass hsuccess).2 block).mp herased
    have hinside := hvalid range hrange
    rw [LbaRange.invalid_iff, not_or, not_lt] at hinside
    omega

/-- **When erasing is right.** `FvbEraseBlocks` does as asked exactly when no range wraps around, or
one of the ranges is rejected all the same. -/
theorem erasesAsAsked_iff (hwritable : nor.media.readOnly = false) (ranges : List LbaRange)
    (state : σ) :
    ErasesAsAsked nor.toNorFlashInstance ranges
        ((fvbEraseBlocks lib nor.toNorFlashInstance (LbaRange.args ranges)).run state) ↔
      (∃ range ∈ ranges, range.Rejected nor.toNorFlashInstance) ∨
        ∀ range ∈ ranges, range.Fits := by
  by_cases hrejected : ∃ range ∈ ranges, range.Rejected nor.toNorFlashInstance
  · exact iff_of_true (erasesAsAsked_of_rejected lib nor hwritable hrejected state)
      (Or.inl hrejected)
  · rw [or_iff_right hrejected]
    have haccepted : ∀ range ∈ ranges, ¬ range.Rejected nor.toNorFlashInstance :=
      fun range hrange hbad => hrejected ⟨range, hrange, hbad⟩
    rw [fvbEraseBlocks_of_accepted lib nor hwritable haccepted]
    constructor
    · intro hasked
      exact fits_of_erasesAsAsked lib nor hasked
    · intro hfits
      apply erasesAsAsked_of_valid lib nor state
      intro range hrange hinvalid
      exact haccepted range hrange
        ((LbaRange.rejected_iff_of_fits (hfits range hrange)).mpr hinvalid)

end

/-- 0x20 blocks whose last index is 0xF, modulo 2 ^ 64. -/
def wrappingRange : LbaRange where
  startingLba := 0xFFFFFFFFFFFFFFF0
  numOfLba := 0x20
  ne_terminator := by decide

/-- The wrapping range is erased: sixteen blocks before the region go with it. -/
theorem erases_wrappingRange :
    ((fvbEraseBlocks NorFlashLib.idle sampleFvb.toNorFlashInstance
        (LbaRange.args [wrappingRange])).run ()).calls =
        [{ op := .erase 0x6F0 0x20000, status := .success }] ∧
      ¬ ErasesAsAsked sampleFvb.toNorFlashInstance [wrappingRange]
        ((fvbEraseBlocks NorFlashLib.idle sampleFvb.toNorFlashInstance
          (LbaRange.args [wrappingRange])).run ()) := by
  constructor
  · rfl
  · intro hasked
    have hinvalid : wrappingRange.Invalid sampleFvb.toNorFlashInstance :=
      LbaRange.invalid_of_not_fits
        (by decide : ¬ (0xFFFFFFFFFFFFFFF0 : UInt64).toNat + (0x20 : UInt64).toNat < 2 ^ 64)
    obtain ⟨_, hcalls⟩ := hasked.refuses ⟨wrappingRange, List.mem_singleton.mpr rfl, hinvalid⟩
    cases hcalls

theorem erasesAsAsked_iff_sample :
    ErasesAsAsked sampleFvb.toNorFlashInstance [⟨0, 2, by decide⟩, ⟨4, 1, by decide⟩]
        ((fvbEraseBlocks NorFlashLib.idle sampleFvb.toNorFlashInstance
          (LbaRange.args [⟨0, 2, by decide⟩, ⟨4, 1, by decide⟩])).run ()) ↔
      (∃ range ∈ [(⟨0, 2, by decide⟩ : LbaRange), ⟨4, 1, by decide⟩],
        range.Rejected sampleFvb.toNorFlashInstance) ∨
        ∀ range ∈ [(⟨0, 2, by decide⟩ : LbaRange), ⟨4, 1, by decide⟩], range.Fits :=
  erasesAsAsked_iff NorFlashLib.idle sampleFvb rfl _ ()

end OrionO6.Flash
