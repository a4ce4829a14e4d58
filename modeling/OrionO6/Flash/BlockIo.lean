import OrionO6.Flash.Instance

/-!
# The Block I/O and Disk I/O protocols

Both give access to the whole device: Block I/O by blocks, Disk I/O by bytes.
-/

namespace OrionO6.Flash

/-- An instance whose protocols have been installed. Before that, `BlockIoProtocol.Media` has been
made to point at the media of the instance itself. -/
structure PublishedInstance extends NorFlashInstance where
  media_ne_null : blockIoProtocol.media ≠ 0

def NorFlashInstance.blockIoMedia (nor : NorFlashInstance) : Option Media :=
  if nor.blockIoProtocol.media = 0 then none else some nor.media

section

variable {σ : Type} (lib : NorFlashLib σ)

def norFlashBlockIoReadBlocks (this : Option PublishedInstance) (mediaId : UInt32)
    (lba bufferSize : UInt64) (buffer : Buffer) : Driver σ (EfiStatus × Buffer) :=
  match this with
  | none => pure (.invalidParameter, buffer)
  | some nor =>
      match nor.blockIoMedia with
      | none => pure (.invalidParameter, buffer)
      | some media =>
          if media.mediaPresent = false then pure (.noMedia, buffer)
          else if media.mediaId ≠ mediaId then pure (.mediaChanged, buffer)
          else if media.ioAlign > 2 ∧ buffer.address &&& (media.ioAlign - 1).toUInt64 ≠ 0 then
            pure (.invalidParameter, buffer)
          else do
            let (status, bytes) ← lib.norFlashReadBlocks nor.toNorFlashInstance lba bufferSize buffer
            pure (status, { buffer with bytes })

variable (nor : PublishedInstance)

/-- `This->Media` is dereferenced without a check, which is right once it has been installed. -/
def norFlashBlockIoWriteBlocks (mediaId : UInt32) (lba bufferSize : UInt64) (buffer : Buffer) :
    Driver σ EfiStatus :=
  if nor.media.mediaPresent = false then pure .noMedia
  else if nor.media.mediaId ≠ mediaId then pure .mediaChanged
  else if nor.media.readOnly then pure .writeProtected
  else lib.norFlashWriteBlocks nor.toNorFlashInstance lba bufferSize buffer

def norFlashBlockIoFlushBlocks : Driver σ EfiStatus := pure .success

def divU64x32Remainder (dividend : UInt64) (divisor : UInt32) : UInt64 × UInt32 :=
  (dividend / divisor.toUInt64, (dividend % divisor.toUInt64).toUInt32)

def norFlashDiskIoReadDisk (mediaId : UInt32) (diskOffset bufferSize : UInt64) (buffer : Buffer) :
    Driver σ (EfiStatus × Buffer) :=
  if mediaId ≠ nor.media.mediaId then pure (.mediaChanged, buffer)
  else do
    let (lba, blockOffset) := divU64x32Remainder diskOffset nor.media.blockSize
    let (status, bytes) ← lib.norFlashRead nor.toNorFlashInstance lba blockOffset.toUInt64 bufferSize
      buffer
    pure (status, { buffer with bytes })

/-- Unlike its siblings, this does not look at `ReadOnly`. -/
def norFlashDiskIoWriteDisk (mediaId : UInt32) (diskOffset bufferSize : UInt64) (buffer : Buffer) :
    Driver σ EfiStatus :=
  if mediaId ≠ nor.media.mediaId then pure .mediaChanged
  else
    let (lba, blockOffset) := divU64x32Remainder diskOffset nor.media.blockSize
    lib.norFlashWrite nor.toNorFlashInstance lba blockOffset.toUInt64 bufferSize buffer

end

end OrionO6.Flash
