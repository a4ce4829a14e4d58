import OrionO6.Library.Traced

/-!
# Flash instances

The instance that the three flash protocols share, and the library that drives the device. What the
library does is not part of the repository, so it enters as `NorFlashLib`: its functions answer with
a status, and each call is kept together with the answer.
-/

namespace OrionO6.Flash

/-- An `EFI_STATUS`. The top bit marks an error. -/
structure EfiStatus where
  code : UInt64
  deriving DecidableEq

namespace EfiStatus

def success : EfiStatus := ⟨0⟩
def invalidParameter : EfiStatus := ⟨0x8000000000000002⟩
def badBufferSize : EfiStatus := ⟨0x8000000000000004⟩
def deviceError : EfiStatus := ⟨0x8000000000000007⟩
def writeProtected : EfiStatus := ⟨0x8000000000000008⟩
def outOfResources : EfiStatus := ⟨0x8000000000000009⟩
def noMedia : EfiStatus := ⟨0x800000000000000C⟩
def mediaChanged : EfiStatus := ⟨0x800000000000000D⟩
def notFound : EfiStatus := ⟨0x800000000000000E⟩
def accessDenied : EfiStatus := ⟨0x800000000000000F⟩

/-- `EFI_ERROR`. -/
def isError (status : EfiStatus) : Bool := 0x8000000000000000 ≤ status.code

end EfiStatus

/-! ### The instance -/

/-- `EFI_BLOCK_IO_MEDIA`. -/
structure Media where
  mediaId : UInt32
  mediaPresent : Bool
  readOnly : Bool
  blockSize : UInt32
  ioAlign : UInt32

structure BlockIoProtocol where
  media : UInt64
  reset : UInt64
  readBlocks : UInt64
  writeBlocks : UInt64
  flushBlocks : UInt64

structure DiskIoProtocol where
  readDisk : UInt64
  writeDisk : UInt64

structure FvbProtocol where
  getAttributes : UInt64
  setAttributes : UInt64
  getPhysicalAddress : UInt64
  getBlockSize : UInt64
  read : UInt64
  write : UInt64
  eraseBlocks : UInt64

structure NorFlashInstance where
  deviceBaseAddress : UInt64
  shadowBuffer : UInt64
  media : Media
  blockIoProtocol : BlockIoProtocol
  diskIoProtocol : DiskIoProtocol
  regionBaseAddress : UInt64
  blocks : UInt64
  startLba : UInt64
  fvbProtocol : FvbProtocol

/-! ### The library -/

/-- A caller's buffer: where it is, and the bytes from there on. -/
structure Buffer where
  address : UInt64
  bytes : Nat → UInt8

/-- The functions of `NorFlashLib`, over the state of the device. Those that read also say what the
buffer holds afterwards. -/
structure NorFlashLib (σ : Type) where
  read : NorFlashInstance → (lba offset numBytes : UInt64) → Buffer → σ →
    (EfiStatus × (Nat → UInt8)) × σ
  readBlocks : NorFlashInstance → (lba bufferSize : UInt64) → Buffer → σ →
    (EfiStatus × (Nat → UInt8)) × σ
  write : NorFlashInstance → (lba offset numBytes : UInt64) → Buffer → σ → EfiStatus × σ
  writeBlocks : NorFlashInstance → (lba bufferSize : UInt64) → Buffer → σ → EfiStatus × σ
  erase : NorFlashInstance → (lba size : UInt64) → σ → EfiStatus × σ

inductive FlashOp where
  | read (lba offset numBytes : UInt64)
  | readBlocks (lba bufferSize : UInt64)
  | write (lba offset numBytes : UInt64)
  | writeBlocks (lba bufferSize : UInt64)
  | erase (lba size : UInt64)

def FlashOp.Mutates : FlashOp → Prop
  | .read _ _ _ | .readBlocks _ _ => False
  | .write _ _ _ | .writeBlocks _ _ | .erase _ _ => True

structure Call where
  op : FlashOp
  status : EfiStatus

abbrev Driver (σ α : Type) := Traced σ Call α

namespace NorFlashLib

variable {σ : Type} (lib : NorFlashLib σ) (nor : NorFlashInstance)

def norFlashRead (lba offset numBytes : UInt64) (buffer : Buffer) :
    Driver σ (EfiStatus × (Nat → UInt8)) :=
  Traced.call (lib.read nor lba offset numBytes buffer) fun answer =>
    { op := .read lba offset numBytes, status := answer.1 }

def norFlashReadBlocks (lba bufferSize : UInt64) (buffer : Buffer) :
    Driver σ (EfiStatus × (Nat → UInt8)) :=
  Traced.call (lib.readBlocks nor lba bufferSize buffer) fun answer =>
    { op := .readBlocks lba bufferSize, status := answer.1 }

def norFlashWrite (lba offset numBytes : UInt64) (buffer : Buffer) : Driver σ EfiStatus :=
  Traced.call (lib.write nor lba offset numBytes buffer) fun status =>
    { op := .write lba offset numBytes, status }

def norFlashWriteBlocks (lba bufferSize : UInt64) (buffer : Buffer) : Driver σ EfiStatus :=
  Traced.call (lib.writeBlocks nor lba bufferSize buffer) fun status =>
    { op := .writeBlocks lba bufferSize, status }

def norFlashErase (lba size : UInt64) : Driver σ EfiStatus :=
  Traced.call (lib.erase nor lba size) fun status => { op := .erase lba size, status }

end NorFlashLib

/-! ### An instance to try things on -/

/-- A library that always succeeds and leaves everything as it is. -/
def NorFlashLib.idle : NorFlashLib Unit where
  read _ _ _ _ buffer state := ((.success, buffer.bytes), state)
  readBlocks _ _ _ buffer state := ((.success, buffer.bytes), state)
  write _ _ _ _ _ state := (.success, state)
  writeBlocks _ _ _ _ state := (.success, state)
  erase _ _ _ state := (.success, state)

/-- A region of 0x60 blocks of 4 KiB from block 0x700 on. -/
def sampleInstance (readOnly : Bool) : NorFlashInstance where
  deviceBaseAddress := 0x10000000
  shadowBuffer := 0x1000
  media := { mediaId := 0, mediaPresent := true, readOnly, blockSize := 0x1000, ioAlign := 4 }
  blockIoProtocol := {
    media := 0x2000, reset := 0x3000, readBlocks := 0x3100, writeBlocks := 0x3200
    flushBlocks := 0x3300 }
  diskIoProtocol := { readDisk := 0x3400, writeDisk := 0x3500 }
  regionBaseAddress := 0x10700000
  blocks := 0x60
  startLba := 0x700
  fvbProtocol := {
    getAttributes := 0x3600, setAttributes := 0x3700, getPhysicalAddress := 0x3800
    getBlockSize := 0x3900, read := 0x3A00, write := 0x3B00, eraseBlocks := 0x3C00 }

def sampleBuffer : Buffer where
  address := 0x4000
  bytes := fun _ => 0

end OrionO6.Flash
