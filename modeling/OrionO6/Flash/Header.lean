import OrionO6.Flash.Region
import OrionO6.Library.Memory

/-!
# The headers of the NV firmware volume

`InitializeFvAndVariableStoreHeaders` writes a firmware volume header and a variable store header to
the start of the region, and `ValidateFvHeader` reads them back and checks them. The two functions
share nothing but the layout of the headers, so the checks are also stated as one condition on the
bytes that were read.
-/

namespace OrionO6.Flash

structure HeaderConstants where
  systemNvDataFvGuid : BitVec 128
  variableGuid : BitVec 128
  authenticatedVariableGuid : BitVec 128
  fvhSignature : UInt32
  fvhRevision : UInt8
  fvbAttributes : UInt32
  variableStoreFormatted : UInt8
  variableStoreHealthy : UInt8

/-! ### Layout of the headers

`EFI_FIRMWARE_VOLUME_HEADER`, here with a second entry in its block map, and the
`VARIABLE_STORE_HEADER` behind it.
-/

namespace FirmwareVolumeHeader

def fileSystemGuid : Memory.Field := { offset := 16, size := 16 }
def fvLength : Memory.Field := { offset := 32, size := 8 }
def signature : Memory.Field := { offset := 40, size := 4 }
def attributes : Memory.Field := { offset := 44, size := 4 }
def headerLength : Memory.Field := { offset := 48, size := 2 }
def checksum : Memory.Field := { offset := 50, size := 2 }
def revision : Memory.Field := { offset := 55, size := 1 }
def blockMapNumBlocks (entry : Nat) : Memory.Field := { offset := 56 + 8 * entry, size := 4 }
def blockMapLength (entry : Nat) : Memory.Field := { offset := 60 + 8 * entry, size := 4 }

end FirmwareVolumeHeader

namespace VariableStoreHeader

def signature : Memory.Field := { offset := 0, size := 16 }
def size : Memory.Field := { offset := 16, size := 4 }
def format : Memory.Field := { offset := 20, size := 1 }
def state : Memory.Field := { offset := 21, size := 1 }

end VariableStoreHeader

/-- `sizeof (EFI_FIRMWARE_VOLUME_HEADER) + sizeof (EFI_FV_BLOCK_MAP_ENTRY)`. -/
def firmwareVolumeHeaderLength : Nat := 64 + 8

/-- The size of both headers together: 28 bytes more. -/
def headersLength : UInt64 := 100

def calculateSum16 (buffer : Nat → UInt8) (length : Nat) : UInt16 :=
  Memory.sum16 buffer (length / 2)

def calculateCheckSum16 (buffer : Nat → UInt8) (length : Nat) : UInt16 :=
  0 - calculateSum16 buffer length

/-! ### Writing -/

/-- A buffer from `AllocateZeroPool`. -/
def zeroed (pool : Buffer) (length : UInt64) : Buffer :=
  { pool with bytes := Memory.overwrite pool.bytes 0 length.toNat fun _ => 0 }

theorem zeroed_bytes (pool : Buffer) {length : UInt64} {address : Nat}
    (haddress : address < length.toNat) : (zeroed pool length).bytes address = 0 :=
  Memory.overwrite_front pool.bytes (fun _ => 0) haddress

variable (constants : HeaderConstants) (pcds : FlashPcds)

open FirmwareVolumeHeader in
/-- The fields of the firmware volume header but for the checksum. -/
def setFirmwareVolumeFields (nor : NorFlashInstance) (headers : Nat → UInt8) : Nat → UInt8 :=
  let headers := fileSystemGuid.set constants.systemNvDataFvGuid.toNat headers
  let headers := fvLength.set pcds.totalSize.toNat headers
  let headers := signature.set constants.fvhSignature.toNat headers
  let headers := attributes.set constants.fvbAttributes.toNat headers
  let headers := headerLength.set firmwareVolumeHeaderLength headers
  let headers := revision.set constants.fvhRevision.toNat headers
  let headers := (blockMapNumBlocks 0).set nor.blocks.toNat headers
  let headers := (blockMapLength 0).set nor.media.blockSize.toNat headers
  let headers := (blockMapNumBlocks 1).set 0 headers
  (blockMapLength 1).set 0 headers

def setFirmwareVolumeHeader (nor : NorFlashInstance) (headers : Nat → UInt8) : Nat → UInt8 :=
  let headers := setFirmwareVolumeFields constants pcds nor headers
  let checksum := calculateCheckSum16 headers (FirmwareVolumeHeader.headerLength.get headers)
  FirmwareVolumeHeader.checksum.set checksum.toNat headers

/-- The variable store header, which begins where the firmware volume header says that it ends. -/
def setVariableStoreHeader (headers : Nat → UInt8) : Nat → UInt8 :=
  let headerLength := FirmwareVolumeHeader.headerLength.get headers
  let size := pcds.variableSize - UInt32.ofNat headerLength
  let headers := (VariableStoreHeader.signature.shift headerLength).set
    constants.authenticatedVariableGuid.toNat headers
  let headers := (VariableStoreHeader.size.shift headerLength).set size.toNat headers
  let headers := (VariableStoreHeader.format.shift headerLength).set
    constants.variableStoreFormatted.toNat headers
  (VariableStoreHeader.state.shift headerLength).set constants.variableStoreHealthy.toNat headers

def setHeaders (nor : NorFlashInstance) (headers : Nat → UInt8) : Nat → UInt8 :=
  setVariableStoreHeader constants pcds (setFirmwareVolumeHeader constants pcds nor headers)

section

variable {σ : Type} (lib : NorFlashLib σ)

/-- The source does not check that its `AllocateZeroPool` succeeds. Here it does, with `pool`. -/
def initializeFvAndVariableStoreHeaders (nor : NorFlashInstance) (pool : Buffer) :
    Driver σ EfiStatus :=
  let headers := zeroed pool headersLength
  let blockSize := nor.media.blockSize
  if pcds.variableBase + pcds.variableSize.toUInt64 ≠ pcds.ftwWorkingBase then
    pure .invalidParameter
  else if pcds.ftwWorkingBase + pcds.ftwWorkingSize.toUInt64 ≠ pcds.ftwSpareBase then
    pure .invalidParameter
  else if pcds.variableSize ≤ 0 ∨ pcds.variableSize / blockSize ≤ 0 then
    pure .invalidParameter
  else if pcds.ftwWorkingSize ≤ 0 ∨ pcds.ftwWorkingSize / blockSize ≤ 0 then
    pure .invalidParameter
  else if pcds.ftwSpareSize ≤ 0 ∨ pcds.ftwSpareSize / blockSize ≤ 0 then
    pure .invalidParameter
  else if pcds.variableBase % blockSize.toUInt64 ≠ 0 ∨
      pcds.ftwWorkingBase % blockSize.toUInt64 ≠ 0 ∨
      pcds.ftwSpareBase % blockSize.toUInt64 ≠ 0 then
    pure .invalidParameter
  else
    lib.norFlashWrite nor nor.startLba 0 headersLength
      { headers with bytes := setHeaders constants pcds nor headers.bytes }

/-! ### Checking -/

def checkFvHeader (fwVolHeader : Nat → UInt8) : EfiStatus :=
  let headerLength := FirmwareVolumeHeader.headerLength.get fwVolHeader
  let variableStoreSignature := (VariableStoreHeader.signature.shift headerLength).get fwVolHeader
  if FirmwareVolumeHeader.revision.get fwVolHeader ≠ constants.fvhRevision.toNat ∨
      FirmwareVolumeHeader.signature.get fwVolHeader ≠ constants.fvhSignature.toNat ∨
      FirmwareVolumeHeader.fvLength.get fwVolHeader ≠ pcds.totalSize.toNat then
    .notFound
  else if FirmwareVolumeHeader.fileSystemGuid.get fwVolHeader ≠
      constants.systemNvDataFvGuid.toNat then
    .notFound
  else if calculateSum16 fwVolHeader headerLength ≠ 0 then
    .notFound
  else if variableStoreSignature ≠ constants.variableGuid.toNat ∧
      variableStoreSignature ≠ constants.authenticatedVariableGuid.toNat then
    .notFound
  else if (VariableStoreHeader.size.shift headerLength).get fwVolHeader ≠
      (pcds.variableSize - UInt32.ofNat headerLength).toNat then
    .notFound
  else
    .success

/-- `pool` is what `AllocateZeroPool` returns. -/
def validateFvHeader (nor : NorFlashInstance) (pool : Option Buffer) : Driver σ EfiStatus :=
  match pool with
  | none => pure .outOfResources
  | some pool => do
      let (status, fwVolHeader) ←
        lib.norFlashRead nor nor.startLba 0 headersLength (zeroed pool headersLength)
      if status.isError then
        pure status
      else
        pure (checkFvHeader constants pcds fwVolHeader)

end

/-! ### What the functions check -/

structure LayoutAccepted (blockSize : UInt32) : Prop where
  ftwWorkingBase_eq : pcds.variableBase + pcds.variableSize.toUInt64 = pcds.ftwWorkingBase
  ftwSpareBase_eq : pcds.ftwWorkingBase + pcds.ftwWorkingSize.toUInt64 = pcds.ftwSpareBase
  variableSize_pos : ¬ (pcds.variableSize ≤ 0 ∨ pcds.variableSize / blockSize ≤ 0)
  ftwWorkingSize_pos : ¬ (pcds.ftwWorkingSize ≤ 0 ∨ pcds.ftwWorkingSize / blockSize ≤ 0)
  ftwSpareSize_pos : ¬ (pcds.ftwSpareSize ≤ 0 ∨ pcds.ftwSpareSize / blockSize ≤ 0)
  bases_aligned : ¬ (pcds.variableBase % blockSize.toUInt64 ≠ 0 ∨
    pcds.ftwWorkingBase % blockSize.toUInt64 ≠ 0 ∨ pcds.ftwSpareBase % blockSize.toUInt64 ≠ 0)

structure HeaderConsistent (fwVolHeader : Nat → UInt8) : Prop where
  revision_eq : FirmwareVolumeHeader.revision.get fwVolHeader = constants.fvhRevision.toNat
  signature_eq : FirmwareVolumeHeader.signature.get fwVolHeader = constants.fvhSignature.toNat
  fvLength_eq : FirmwareVolumeHeader.fvLength.get fwVolHeader = pcds.totalSize.toNat
  fileSystemGuid_eq :
    FirmwareVolumeHeader.fileSystemGuid.get fwVolHeader = constants.systemNvDataFvGuid.toNat
  sum_eq_zero :
    calculateSum16 fwVolHeader (FirmwareVolumeHeader.headerLength.get fwVolHeader) = 0
  storeSignature_eq :
    (VariableStoreHeader.signature.shift
          (FirmwareVolumeHeader.headerLength.get fwVolHeader)).get fwVolHeader =
        constants.variableGuid.toNat ∨
      (VariableStoreHeader.signature.shift
          (FirmwareVolumeHeader.headerLength.get fwVolHeader)).get fwVolHeader =
        constants.authenticatedVariableGuid.toNat
  storeSize_eq :
    (VariableStoreHeader.size.shift
        (FirmwareVolumeHeader.headerLength.get fwVolHeader)).get fwVolHeader =
      (pcds.variableSize -
        UInt32.ofNat (FirmwareVolumeHeader.headerLength.get fwVolHeader)).toNat

variable {constants pcds}

theorem checkFvHeader_of_consistent {fwVolHeader : Nat → UInt8}
    (hconsistent : HeaderConsistent constants pcds fwVolHeader) :
    checkFvHeader constants pcds fwVolHeader = .success := by
  obtain ⟨hrevision, hsignature, hlength, hguid, hsum, hstore, hsize⟩ := hconsistent
  rw [checkFvHeader, if_neg (by simp [hrevision, hsignature, hlength]), if_neg (not_not.mpr hguid),
    if_neg (not_not.mpr hsum), if_neg ?_, if_neg (not_not.mpr hsize)]
  rintro ⟨hvariable, hauthenticated⟩
  exact hstore.elim hvariable hauthenticated

theorem checkFvHeader_of_not_consistent {fwVolHeader : Nat → UInt8}
    (hinconsistent : ¬ HeaderConsistent constants pcds fwVolHeader) :
    checkFvHeader constants pcds fwVolHeader = .notFound := by
  rw [checkFvHeader]
  split_ifs with hfields hguid hsum hstore hsize <;> try rfl
  refine absurd ?_ hinconsistent
  simp only [not_or, not_not] at hfields hguid hsum hsize
  rw [not_and_or, not_not, not_not] at hstore
  exact ⟨hfields.1, hfields.2.1, hfields.2.2, hguid, hsum, hstore, hsize⟩

variable {σ : Type} {lib : NorFlashLib σ} {nor : NorFlashInstance} {pool : Buffer}

theorem initialize_of_layoutAccepted (hlayout : LayoutAccepted pcds nor.media.blockSize) :
    initializeFvAndVariableStoreHeaders constants pcds lib nor pool =
      lib.norFlashWrite nor nor.startLba 0 headersLength
        { pool with
          bytes := setHeaders constants pcds nor (zeroed pool headersLength).bytes } := by
  rw [initializeFvAndVariableStoreHeaders, if_neg (not_not.mpr hlayout.ftwWorkingBase_eq),
    if_neg (not_not.mpr hlayout.ftwSpareBase_eq), if_neg hlayout.variableSize_pos,
    if_neg hlayout.ftwWorkingSize_pos, if_neg hlayout.ftwSpareSize_pos,
    if_neg hlayout.bases_aligned]
  rfl

/-- A layout that is not accepted is reported, and the flash is left alone. -/
theorem initialize_of_not_layoutAccepted (hlayout : ¬ LayoutAccepted pcds nor.media.blockSize) :
    initializeFvAndVariableStoreHeaders constants pcds lib nor pool = pure .invalidParameter := by
  rw [initializeFvAndVariableStoreHeaders]
  split_ifs with hworking hspare hvariable hworkingSize hspareSize haligned <;> try rfl
  exact absurd ⟨not_not.mp hworking, not_not.mp hspare, hvariable, hworkingSize, hspareSize,
    haligned⟩ hlayout

end OrionO6.Flash
