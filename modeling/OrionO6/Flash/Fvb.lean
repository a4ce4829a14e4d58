import OrionO6.Flash.Instance

/-!
# The Firmware Volume Block protocol

Reading, writing and erasing the blocks of the firmware volume. A read or a write makes one call of
the library at most; an erase checks its whole argument list before the first call. The functions
follow the source branch by branch, with its 64-bit additions wrapping around.
-/

namespace OrionO6.Flash

structure Transfer where
  status : EfiStatus
  numBytes : UInt64
  buffer : Buffer

/-- What `FvbGetBlockSize` hands back. The sizes are set on success only. -/
structure BlockSizeAnswer where
  status : EfiStatus
  blockSize : Option UInt64
  numberOfBlocks : Option UInt64

def fvbGetBlockSize (nor : NorFlashInstance) (lba : UInt64) : BlockSizeAnswer :=
  if lba ≥ nor.blocks then
    { status := .invalidParameter, blockSize := none, numberOfBlocks := none }
  else
    { status := .success
      blockSize := some nor.media.blockSize.toUInt64
      numberOfBlocks := some (nor.blocks - lba) }

theorem fvbGetBlockSize_isError_iff (nor : NorFlashInstance) (lba : UInt64) :
    (fvbGetBlockSize nor lba).status.isError = true ↔ nor.blocks ≤ lba := by
  by_cases hlba : lba ≥ nor.blocks
  · rw [fvbGetBlockSize, if_pos hlba]
    exact iff_of_true rfl hlba
  · rw [fvbGetBlockSize, if_neg hlba]
    exact iff_of_false Bool.false_ne_true hlba

section

variable {σ : Type} (lib : NorFlashLib σ) (nor : NorFlashInstance)

def fvbRead (lba offset numBytes : UInt64) (buffer : Buffer) : Driver σ Transfer :=
  let blockSize := nor.media.blockSize.toUInt64
  if offset ≥ blockSize ∨ numBytes > blockSize then
    pure { status := .badBufferSize, numBytes := 0, buffer }
  else
    let spaned := decide (offset + numBytes > blockSize)
    if numBytes = 0 then
      pure { status := .badBufferSize, numBytes, buffer }
    else if numBytes % blockSize ≠ 0 then do
      let numBytes := if spaned then (blockSize - offset).toUInt32.toUInt64 else numBytes
      let (status, bytes) ← lib.norFlashRead nor (nor.startLba + lba) offset numBytes buffer
      if status.isError then
        pure { status := .deviceError, numBytes, buffer := { buffer with bytes } }
      else
        -- a spanning read sets `Status`, which is not what is returned
        pure { status := .success, numBytes, buffer := { buffer with bytes } }
    else do
      let (status, bytes) ← lib.norFlashReadBlocks nor (nor.startLba + lba) blockSize buffer
      if status.isError then
        pure { status := .deviceError, numBytes, buffer := { buffer with bytes } }
      else
        pure { status := .success, numBytes, buffer := { buffer with bytes } }

def fvbWrite (lba offset numBytes : UInt64) (buffer : Buffer) : Driver σ Transfer :=
  if nor.media.readOnly then
    pure { status := .accessDenied, numBytes, buffer }
  else
    let blockSize := nor.media.blockSize.toUInt64
    if offset ≥ blockSize ∨ numBytes > blockSize then
      pure { status := .badBufferSize, numBytes := 0, buffer }
    else
      let spaned := decide (numBytes + offset > blockSize)
      if numBytes = 0 then
        pure { status := .badBufferSize, numBytes, buffer }
      else if numBytes % blockSize ≠ 0 then do
        let numBytes := if spaned then (blockSize - offset).toUInt32.toUInt64 else numBytes
        let status ← lib.norFlashWrite nor (nor.startLba + lba) offset numBytes buffer
        if status.isError then
          pure { status, numBytes, buffer }
        else
          pure { status := if spaned then .badBufferSize else status, numBytes, buffer }
      else do
        let status ← lib.norFlashWriteBlocks nor (nor.startLba + lba) blockSize buffer
        if status.isError then
          pure { status := .deviceError, numBytes, buffer }
        else
          pure { status, numBytes, buffer }

/-! ### What a transfer does

A request is rejected before any call, or it serves the bytes up to the block boundary, or it is for
as many bytes as a block has and takes the whole block, whatever its offset.
-/

def TransferRejected (offset numBytes : UInt64) : Prop :=
  nor.media.blockSize.toUInt64 ≤ offset ∨ nor.media.blockSize.toUInt64 < numBytes ∨ numBytes = 0

def bytesServed (offset numBytes : UInt64) : UInt64 :=
  if offset + numBytes > nor.media.blockSize.toUInt64 then
    (nor.media.blockSize.toUInt64 - offset).toUInt32.toUInt64
  else
    numBytes

section

variable {nor} {offset numBytes : UInt64}

theorem not_transferRejected_iff :
    ¬ TransferRejected nor offset numBytes ↔
      offset < nor.media.blockSize.toUInt64 ∧ numBytes ≤ nor.media.blockSize.toUInt64 ∧
        numBytes ≠ 0 := by
  rw [TransferRejected, not_or, not_or, UInt64.not_le, UInt64.not_lt]

/-- The first check of both functions. -/
theorem not_large_of_accepted (haccepted : ¬ TransferRejected nor offset numBytes) :
    ¬ (offset ≥ nor.media.blockSize.toUInt64 ∨ numBytes > nor.media.blockSize.toUInt64) := by
  obtain ⟨hoffset, hbytes, -⟩ := not_transferRejected_iff.mp haccepted
  rw [not_or]
  exact ⟨UInt64.not_le.mpr hoffset, UInt64.not_lt.mpr hbytes⟩

theorem eq_zero_of_transferRejected (hrejected : TransferRejected nor offset numBytes)
    (hlarge : ¬ (offset ≥ nor.media.blockSize.toUInt64 ∨
      numBytes > nor.media.blockSize.toUInt64)) : numBytes = 0 := by
  rcases hrejected with hoffset | hbytes | hzero
  · exact absurd (Or.inl hoffset) hlarge
  · exact absurd (Or.inr hbytes) hlarge
  · exact hzero

/-- The served bytes end at the block boundary. -/
theorem toNat_bytesServed (hoffset : offset < nor.media.blockSize.toUInt64)
    (hbytes : numBytes ≤ nor.media.blockSize.toUInt64) :
    (bytesServed nor offset numBytes).toNat =
      min numBytes.toNat (nor.media.blockSize.toNat - offset.toNat) := by
  have hsize := nor.media.blockSize.toNat_lt
  have hbefore := hoffset
  rw [UInt64.lt_iff_toNat_lt, UInt32.toNat_toUInt64] at hoffset
  rw [UInt64.le_iff_toNat_le, UInt32.toNat_toUInt64] at hbytes
  have hsum : (offset + numBytes).toNat = offset.toNat + numBytes.toNat := by
    rw [UInt64.toNat_add]
    exact Nat.mod_eq_of_lt (by omega)
  have hrest := calc (nor.media.blockSize.toUInt64 - offset).toNat
    _ = nor.media.blockSize.toUInt64.toNat - offset.toNat :=
          UInt64.toNat_sub_of_le _ _ (UInt64.le_of_lt hbefore)
    _ = nor.media.blockSize.toNat - offset.toNat := by rw [UInt32.toNat_toUInt64]
  unfold bytesServed
  split
  · rename_i hspans
    rw [gt_iff_lt, UInt64.lt_iff_toNat_lt, hsum, UInt32.toNat_toUInt64] at hspans
    rw [UInt32.toNat_toUInt64, UInt64.toNat_toUInt32, hrest, Nat.mod_eq_of_lt (by omega)]
    omega
  · rename_i hspans
    rw [gt_iff_lt, UInt64.lt_iff_toNat_lt, hsum, UInt32.toNat_toUInt64] at hspans
    omega

theorem toNat_pos_of_ne_zero (hpos : numBytes ≠ 0) : 0 < numBytes.toNat :=
  Nat.pos_of_ne_zero fun hzero => hpos (UInt64.toNat_inj.mp hzero)

theorem toNat_of_whole (hwhole : numBytes = nor.media.blockSize.toUInt64) :
    numBytes.toNat = nor.media.blockSize.toNat := by
  rw [hwhole, UInt32.toNat_toUInt64]

theorem bytesServed_pos (hoffset : offset < nor.media.blockSize.toUInt64)
    (hbytes : numBytes ≤ nor.media.blockSize.toUInt64) (hpos : numBytes ≠ 0) :
    0 < (bytesServed nor offset numBytes).toNat := by
  rw [toNat_bytesServed hoffset hbytes]
  rw [UInt64.lt_iff_toNat_lt, UInt32.toNat_toUInt64] at hoffset
  have hposNat := toNat_pos_of_ne_zero hpos
  omega

theorem offset_add_bytesServed_le (hoffset : offset < nor.media.blockSize.toUInt64)
    (hbytes : numBytes ≤ nor.media.blockSize.toUInt64) :
    offset.toNat + (bytesServed nor offset numBytes).toNat ≤ nor.media.blockSize.toNat := by
  rw [toNat_bytesServed hoffset hbytes]
  rw [UInt64.lt_iff_toNat_lt, UInt32.toNat_toUInt64] at hoffset
  omega

theorem mod_blockSize_ne_zero (hpos : numBytes ≠ 0)
    (hlt : numBytes < nor.media.blockSize.toUInt64) :
    numBytes % nor.media.blockSize.toUInt64 ≠ 0 := by
  intro hmod
  have hmodNat := congrArg UInt64.toNat hmod
  rw [UInt64.toNat_mod, Nat.mod_eq_of_lt (UInt64.lt_iff_toNat_lt.mp hlt)] at hmodNat
  exact hpos (UInt64.toNat_inj.mp hmodNat)

variable (lba : UInt64) (buffer : Buffer)

theorem fvbRead_of_rejected (hrejected : TransferRejected nor offset numBytes) :
    ∃ count, fvbRead lib nor lba offset numBytes buffer =
      pure { status := .badBufferSize, numBytes := count, buffer } := by
  unfold fvbRead
  by_cases hlarge : offset ≥ nor.media.blockSize.toUInt64 ∨
      numBytes > nor.media.blockSize.toUInt64
  · exact ⟨0, if_pos hlarge⟩
  · have hzero := eq_zero_of_transferRejected hrejected hlarge
    exact ⟨numBytes, by rw [if_neg hlarge, if_pos hzero]⟩

theorem fvbRead_of_part (haccepted : ¬ TransferRejected nor offset numBytes)
    (hlt : numBytes < nor.media.blockSize.toUInt64) :
    fvbRead lib nor lba offset numBytes buffer =
      lib.norFlashRead nor (nor.startLba + lba) offset (bytesServed nor offset numBytes) buffer >>=
        fun answer => pure {
          status := if answer.1.isError then .deviceError else .success
          numBytes := bytesServed nor offset numBytes
          buffer := { buffer with bytes := answer.2 } } := by
  obtain ⟨-, -, hpos⟩ := not_transferRejected_iff.mp haccepted
  unfold fvbRead
  rw [if_neg (not_large_of_accepted haccepted), if_neg hpos,
    if_pos (mod_blockSize_ne_zero hpos hlt)]
  simp only [decide_eq_true_eq]
  apply congrArg
  funext answer
  obtain ⟨status, bytes⟩ := answer
  dsimp only
  split <;> rfl

theorem fvbRead_of_whole (haccepted : ¬ TransferRejected nor offset numBytes)
    (hwhole : numBytes = nor.media.blockSize.toUInt64) :
    fvbRead lib nor lba offset numBytes buffer =
      lib.norFlashReadBlocks nor (nor.startLba + lba) numBytes buffer >>=
        fun answer => pure {
          status := if answer.1.isError then .deviceError else .success
          numBytes
          buffer := { buffer with bytes := answer.2 } } := by
  obtain ⟨-, -, hpos⟩ := not_transferRejected_iff.mp haccepted
  unfold fvbRead
  rw [if_neg (not_large_of_accepted haccepted), if_neg hpos,
    if_neg (by simp [hwhole]), ← hwhole]
  apply congrArg
  funext answer
  obtain ⟨status, bytes⟩ := answer
  dsimp only
  split <;> rfl

theorem fvbWrite_of_readOnly (hreadOnly : nor.media.readOnly = true) :
    fvbWrite lib nor lba offset numBytes buffer =
      pure { status := .accessDenied, numBytes, buffer } := by
  unfold fvbWrite
  rw [if_pos hreadOnly]

theorem fvbWrite_of_rejected (hwritable : nor.media.readOnly = false)
    (hrejected : TransferRejected nor offset numBytes) :
    ∃ count, fvbWrite lib nor lba offset numBytes buffer =
      pure { status := .badBufferSize, numBytes := count, buffer } := by
  unfold fvbWrite
  rw [if_neg (by simp [hwritable])]
  by_cases hlarge : offset ≥ nor.media.blockSize.toUInt64 ∨
      numBytes > nor.media.blockSize.toUInt64
  · exact ⟨0, if_pos hlarge⟩
  · have hzero := eq_zero_of_transferRejected hrejected hlarge
    exact ⟨numBytes, by rw [if_neg hlarge, if_pos hzero]⟩

theorem fvbWrite_of_part (hwritable : nor.media.readOnly = false)
    (haccepted : ¬ TransferRejected nor offset numBytes)
    (hlt : numBytes < nor.media.blockSize.toUInt64) :
    fvbWrite lib nor lba offset numBytes buffer =
      lib.norFlashWrite nor (nor.startLba + lba) offset (bytesServed nor offset numBytes) buffer >>=
        fun status => pure {
          status :=
            if status.isError = false ∧ offset + numBytes > nor.media.blockSize.toUInt64 then
              .badBufferSize
            else
              status
          numBytes := bytesServed nor offset numBytes
          buffer } := by
  obtain ⟨-, -, hpos⟩ := not_transferRejected_iff.mp haccepted
  unfold fvbWrite
  rw [if_neg (by simp [hwritable]), if_neg (not_large_of_accepted haccepted),
    if_neg hpos, if_pos (mod_blockSize_ne_zero hpos hlt)]
  simp only [decide_eq_true_eq, bytesServed, UInt64.add_comm numBytes offset]
  apply congrArg
  funext status
  cases herror : status.isError with
  | true => rfl
  | false => simp

theorem fvbWrite_of_whole (hwritable : nor.media.readOnly = false)
    (haccepted : ¬ TransferRejected nor offset numBytes)
    (hwhole : numBytes = nor.media.blockSize.toUInt64) :
    fvbWrite lib nor lba offset numBytes buffer =
      lib.norFlashWriteBlocks nor (nor.startLba + lba) numBytes buffer >>=
        fun status => pure {
          status := if status.isError then .deviceError else status
          numBytes
          buffer } := by
  obtain ⟨-, -, hpos⟩ := not_transferRejected_iff.mp haccepted
  unfold fvbWrite
  rw [if_neg (by simp [hwritable]), if_neg (not_large_of_accepted haccepted),
    if_neg hpos, if_neg (by simp [hwhole]), ← hwhole]
  apply congrArg
  funext status
  split <;> rfl

end

/-! ### Erasing -/

def efiLbaListTerminator : UInt64 := 0xFFFFFFFFFFFFFFFF

/-- The first pass over the variable arguments: is every range within bounds? A list that ends
without a terminator is not a call of the protocol. -/
def eraseArgsAccepted : List UInt64 → Bool
  | startingLba :: numOfLba :: args =>
      if startingLba = efiLbaListTerminator then true
      else if numOfLba = 0 ∨ startingLba + numOfLba > nor.blocks then false
      else eraseArgsAccepted args
  | _ => true

/-- The second pass, which erases. The status is that of the last erase. -/
def eraseRanges (status : EfiStatus) : List UInt64 → Driver σ EfiStatus
  | startingLba :: numOfLba :: args =>
      if startingLba = efiLbaListTerminator then pure status
      else do
        let status ← lib.norFlashErase nor (nor.startLba + startingLba)
          (numOfLba * nor.media.blockSize.toUInt64)
        if status.isError then
          pure .deviceError
        else
          eraseRanges status args
  | _ => pure status

def fvbEraseBlocks (args : List UInt64) : Driver σ EfiStatus :=
  if nor.media.readOnly then
    pure .accessDenied
  else if eraseArgsAccepted nor args then
    eraseRanges lib nor .success args
  else
    pure .invalidParameter

end

end OrionO6.Flash
