import Mathlib.Algebra.Order.Ring.Nat
import OrionO6.Flash.Instance

/-!
# The region of the firmware volume

The PCDs say where the variable store, the FTW working space and the FTW spare space lie, and
`NorFlashFvbInitialize` derives the first block and the number of blocks from them. Whatever the
PCDs, the region it derives is a range of 64-bit block numbers, of 64-bit size.
-/

namespace OrionO6.Flash

/-- The PCDs about the NV storage. Each base has a 64-bit form, and a 32-bit one that is used where
the former is zero. -/
structure FlashPcds where
  variableBase64 : UInt64
  ftwWorkingBase64 : UInt64
  ftwSpareBase64 : UInt64
  variableBase32 : UInt32
  ftwWorkingBase32 : UInt32
  ftwSpareBase32 : UInt32
  variableSize : UInt32
  ftwWorkingSize : UInt32
  ftwSpareSize : UInt32

def baseOf (base64 : UInt64) (base32 : UInt32) : UInt64 :=
  if base64 ≠ 0 then base64 else base32.toUInt64

namespace FlashPcds

def variableBase (pcds : FlashPcds) : UInt64 := baseOf pcds.variableBase64 pcds.variableBase32

def ftwWorkingBase (pcds : FlashPcds) : UInt64 :=
  baseOf pcds.ftwWorkingBase64 pcds.ftwWorkingBase32

def ftwSpareBase (pcds : FlashPcds) : UInt64 := baseOf pcds.ftwSpareBase64 pcds.ftwSpareBase32

/-- The sum of the three sizes, which the source computes in 32 bits. -/
def totalSize (pcds : FlashPcds) : UInt32 :=
  pcds.variableSize + pcds.ftwWorkingSize + pcds.ftwSpareSize

end FlashPcds

/-- The part of `NorFlashFvbInitialize` before the header is validated. -/
def norFlashFvbInitializeRegion (pcds : FlashPcds) (nor : NorFlashInstance) : NorFlashInstance :=
  let flashNvStorageVariableBase := pcds.variableBase + nor.deviceBaseAddress
  { nor with
    regionBaseAddress := flashNvStorageVariableBase
    startLba := (flashNvStorageVariableBase - nor.deviceBaseAddress) / nor.media.blockSize.toUInt64
    blocks := (pcds.totalSize / nor.media.blockSize).toUInt64 }

/-- An instance with a region of blocks that exists on a device: neither the block numbers nor the
size in bytes leave 64 bits. -/
structure FvbInstance extends NorFlashInstance where
  blockSize_pos : 0 < media.blockSize.toNat
  region_le : startLba.toNat + blocks.toNat ≤ 2 ^ 64
  size_lt : blocks.toNat * media.blockSize.toNat < 2 ^ 64

theorem region_bounds (base : UInt64) (total blockSize : UInt32) (hsize : 2 ≤ blockSize.toNat) :
    (base / blockSize.toUInt64).toNat + (total / blockSize).toUInt64.toNat ≤ 2 ^ 64 ∧
      (total / blockSize).toUInt64.toNat * blockSize.toNat < 2 ^ 64 := by
  have hbase := base.toNat_lt
  have htotal := total.toNat_lt
  rw [UInt64.toNat_div, UInt32.toNat_toUInt64, UInt32.toNat_toUInt64, UInt32.toNat_div]
  have hstart : base.toNat / blockSize.toNat ≤ base.toNat / 2 :=
    Nat.div_le_div_left hsize (by decide)
  have hblocks : total.toNat / blockSize.toNat ≤ total.toNat / 2 :=
    Nat.div_le_div_left hsize (by decide)
  have hbytes : total.toNat / blockSize.toNat * blockSize.toNat ≤ total.toNat :=
    Nat.div_mul_le_self _ _
  omega

/-- What `NorFlashFvbInitialize` makes of an instance, for blocks of two bytes at least; the only
device of the driver has blocks of 4 KiB. -/
def FvbInstance.ofPcds (pcds : FlashPcds) (nor : NorFlashInstance)
    (hsize : 2 ≤ nor.media.blockSize.toNat) : FvbInstance where
  toNorFlashInstance := norFlashFvbInitializeRegion pcds nor
  blockSize_pos := Nat.lt_of_lt_of_le (by decide) hsize
  region_le := (region_bounds _ _ _ hsize).1
  size_lt := (region_bounds 0 _ _ hsize).2

def sampleFvb : FvbInstance where
  toNorFlashInstance := sampleInstance false
  blockSize_pos := (by decide : 0 < (0x1000 : UInt32).toNat)
  region_le := (by decide : (0x700 : UInt64).toNat + (0x60 : UInt64).toNat ≤ 2 ^ 64)
  size_lt := (by decide : (0x60 : UInt64).toNat * (0x1000 : UInt32).toNat < 2 ^ 64)

end OrionO6.Flash
