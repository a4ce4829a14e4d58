import Mathlib.Data.Nat.Bitwise
import OrionO6.Library.Collect

/-!
# The cores of the platform

The table of cores that the PEI core publishes. A register has a bit for each of twelve cores, which
is clear where the core lives; the living ones are counted, and then get an entry each with their
`MPIDR`. The position of a core is read back from that.
-/

namespace OrionO6.Platform

/-- `ARM_CORE_INFO`, as far as it is not left zero. -/
structure ArmCoreInfo where
  mpidr : UInt64
  deriving DecidableEq

def bit (index : Nat) : UInt64 := 1 <<< UInt64.ofNat index

def coreBitMask (regVal : UInt32) : UInt64 := ((regVal ^^^ 0xFFF) &&& 0xFFF).toUInt64

def isLiving (regVal : UInt32) (index : Nat) : Bool := coreBitMask regVal &&& bit index ≠ 0

def coreInfo (index : Nat) : ArmCoreInfo where
  mpidr := UInt64.ofNat index <<< 8

/-- The table and the number of cores. The pool for the table is zeroed, and there is one; `none`
where an entry is written behind its end. -/
def getArmCoreInfoFromReg (regVal : UInt32) : Option (List ArmCoreInfo × Nat) := do
  let coreCount := Collect.count (isLiving regVal) (List.range 12)
  let cixCoreInfoTable := List.replicate coreCount { mpidr := 0 }
  let (table, _) ← Collect.fill (isLiving regVal) coreInfo cixCoreInfoTable (List.range 12)
  pure (table, coreCount)

/-- `ARM_CLUSTER_MASK`: the second affinity field of an `MPIDR`. -/
def armClusterMask : UInt64 := 0xFF00

def armPlatformGetCorePosition (mpId : UInt64) : UInt64 := (mpId &&& armClusterMask) >>> 8

/-! ### The register -/

/-- The cores whose bit is clear, in order. -/
def livingCores (regVal : UInt32) : List Nat :=
  (List.range 12).filter fun index => !regVal.toNat.testBit index

theorem toNat_coreBitMask (regVal : UInt32) :
    (coreBitMask regVal).toNat = (regVal.toNat ^^^ (2 ^ 12 - 1)) &&& (2 ^ 12 - 1) := by
  rw [coreBitMask, UInt32.toNat_toUInt64, UInt32.toNat_and, UInt32.toNat_xor]
  rfl

theorem toNat_bit {index : Nat} (hindex : index < 12) : (bit index).toNat = 2 ^ index := by
  have hall : ∀ index < 12, (bit index).toNat = 2 ^ index := by decide
  exact hall index hindex

/-- The mask has the bits of the register the other way round. -/
theorem testBit_coreBitMask (regVal : UInt32) {index : Nat} (hindex : index < 12) :
    (coreBitMask regVal).toNat.testBit index = !regVal.toNat.testBit index := by
  rw [toNat_coreBitMask, Nat.testBit_and, Nat.testBit_xor, Nat.testBit_two_pow_sub_one,
    decide_eq_true hindex, Bool.and_true, Bool.xor_true]

theorem isLiving_eq (regVal : UInt32) {index : Nat} (hindex : index < 12) :
    isLiving regVal index = !regVal.toNat.testBit index := by
  have hmask : (coreBitMask regVal &&& bit index).toNat =
      (!regVal.toNat.testBit index).toNat * 2 ^ index := by
    rw [UInt64.toNat_and, toNat_bit hindex, Nat.and_two_pow, testBit_coreBitMask regVal hindex]
  simp only [isLiving, ne_eq, ← UInt64.toNat_inj, hmask]
  cases regVal.toNat.testBit index <;> simp

theorem filter_isLiving (regVal : UInt32) :
    (List.range 12).filter (isLiving regVal) = livingCores regVal := by
  apply List.filter_congr
  intro index hindex
  exact isLiving_eq regVal (List.mem_range.mp hindex)

theorem armPlatformGetCorePosition_coreInfo {index : Nat} (hindex : index < 12) :
    armPlatformGetCorePosition (coreInfo index).mpidr = UInt64.ofNat index := by
  have hall : ∀ index < 12,
      armPlatformGetCorePosition (coreInfo index).mpidr = UInt64.ofNat index := by decide
  exact hall index hindex

/-! ### The table -/

theorem getArmCoreInfoFromReg_eq (regVal : UInt32) :
    getArmCoreInfoFromReg regVal =
      some ((livingCores regVal).map coreInfo, (livingCores regVal).length) := by
  rw [getArmCoreInfoFromReg, Collect.fill_replicate_count, Collect.count_eq, filter_isLiving]
  rfl

/-- **The table lists the living cores.** Whatever the register says, the entries fit the pool that
was counted for them, there is one for each core whose bit is clear and for no other, and the
positions read back from them are the numbers of those cores, each once and in order. -/
theorem getArmCoreInfoFromReg_lists (regVal : UInt32) :
    ∃ table coreCount, getArmCoreInfoFromReg regVal = some (table, coreCount) ∧
      table.length = coreCount ∧
      table.map (fun info => armPlatformGetCorePosition info.mpidr) =
        (livingCores regVal).map UInt64.ofNat ∧
      (table.map fun info => (armPlatformGetCorePosition info.mpidr).toNat).Pairwise (· < ·) := by
  have hpositions (index : Nat) (hmem : index ∈ livingCores regVal) :
      armPlatformGetCorePosition (coreInfo index).mpidr = UInt64.ofNat index :=
    armPlatformGetCorePosition_coreInfo (List.mem_range.mp (List.mem_of_mem_filter hmem))
  refine ⟨_, _, getArmCoreInfoFromReg_eq regVal, List.length_map _, ?_, ?_⟩
  · rw [List.map_map]
    exact List.map_congr_left hpositions
  · rw [List.map_map]
    have hnumbers : (livingCores regVal).map
        ((fun info => (armPlatformGetCorePosition info.mpidr).toNat) ∘ coreInfo) =
          livingCores regVal := by
      rw [← List.map_id (livingCores regVal), List.map_map]
      apply List.map_congr_left
      intro index hmem
      have hindex := List.mem_range.mp (List.mem_of_mem_filter hmem)
      calc (armPlatformGetCorePosition (coreInfo index).mpidr).toNat
        _ = (UInt64.ofNat index).toNat := congrArg UInt64.toNat (hpositions index hmem)
        _ = index := UInt64.toNat_ofNat_of_lt' (Nat.lt_trans hindex (by decide))
    rw [hnumbers]
    exact List.pairwise_lt_range.filter _

end OrionO6.Platform
