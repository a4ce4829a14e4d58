import OrionO6.Flash.Fvb
import OrionO6.Flash.Region
import OrionO6.Library.Memory

/-!
# What transfers move

With a library that moves exactly the bytes it is asked to move, a read or a write of part of a block
moves the requested bytes up to the block boundary. A request for as many bytes as a block has takes
the whole block from its first byte on, which is what was asked for at offset zero only.
-/

namespace OrionO6.Flash

section

variable {σ : Type}

def deviceAddress (nor : NorFlashInstance) (lba offset : UInt64) : Nat :=
  lba.toNat * nor.media.blockSize.toNat + offset.toNat

structure NorFlashLib.Writes (lib : NorFlashLib σ) (device : σ → Nat → UInt8) : Prop where
  write : ∀ nor lba offset numBytes buffer state,
    (lib.write nor lba offset numBytes buffer state).1.isError = false →
      device (lib.write nor lba offset numBytes buffer state).2 =
        Memory.overwrite (device state) (deviceAddress nor lba offset) numBytes.toNat buffer.bytes
  writeBlocks : ∀ nor lba bufferSize buffer state,
    (lib.writeBlocks nor lba bufferSize buffer state).1.isError = false →
      device (lib.writeBlocks nor lba bufferSize buffer state).2 =
        Memory.overwrite (device state) (deviceAddress nor lba 0) bufferSize.toNat buffer.bytes

structure NorFlashLib.Reads (lib : NorFlashLib σ) (device : σ → Nat → UInt8) : Prop where
  read : ∀ nor lba offset numBytes buffer state,
    (lib.read nor lba offset numBytes buffer state).1.1.isError = false →
      (lib.read nor lba offset numBytes buffer state).1.2 =
        Memory.overwrite buffer.bytes 0 numBytes.toNat
          fun index => device state (deviceAddress nor lba offset + index)
  readBlocks : ∀ nor lba bufferSize buffer state,
    (lib.readBlocks nor lba bufferSize buffer state).1.1.isError = false →
      (lib.readBlocks nor lba bufferSize buffer state).1.2 =
        Memory.overwrite buffer.bytes 0 bufferSize.toNat
          fun index => device state (deviceAddress nor lba 0 + index)

/-- A library that keeps both promises: the state is the device. -/
def NorFlashLib.ideal : NorFlashLib (Nat → UInt8) where
  read nor lba offset numBytes buffer device :=
    ((.success, Memory.overwrite buffer.bytes 0 numBytes.toNat
      fun index => device (deviceAddress nor lba offset + index)), device)
  readBlocks nor lba bufferSize buffer device :=
    ((.success, Memory.overwrite buffer.bytes 0 bufferSize.toNat
      fun index => device (deviceAddress nor lba 0 + index)), device)
  write nor lba offset numBytes buffer device :=
    (.success, Memory.overwrite device (deviceAddress nor lba offset) numBytes.toNat buffer.bytes)
  writeBlocks nor lba bufferSize buffer device :=
    (.success, Memory.overwrite device (deviceAddress nor lba 0) bufferSize.toNat buffer.bytes)
  erase nor lba size device :=
    (.success, Memory.overwrite device (deviceAddress nor lba 0) size.toNat fun _ => 0xFF)

theorem NorFlashLib.ideal_writes : NorFlashLib.ideal.Writes id where
  write _ _ _ _ _ _ _ := rfl
  writeBlocks _ _ _ _ _ _ := rfl

theorem NorFlashLib.ideal_reads : NorFlashLib.ideal.Reads id where
  read _ _ _ _ _ _ _ := rfl
  readBlocks _ _ _ _ _ _ := rfl

/-! ### What was asked for -/

/-- The number of bytes of a request up to the block boundary. -/
def bytesAsked (nor : NorFlashInstance) (offset numBytes : UInt64) : Nat :=
  min numBytes.toNat (nor.media.blockSize.toNat - offset.toNat)

def addressAsked (nor : NorFlashInstance) (lba offset : UInt64) : Nat :=
  (nor.startLba.toNat + lba.toNat) * nor.media.blockSize.toNat + offset.toNat

structure StoredAsAsked (device : σ → Nat → UInt8) (nor : NorFlashInstance)
    (lba offset numBytes : UInt64) (buffer : Buffer) (state : σ) (ran : Ran σ Call Transfer) :
    Prop where
  stored : ∀ index < bytesAsked nor offset numBytes,
    device ran.state (addressAsked nor lba offset + index) = buffer.bytes index
  unchanged : ∀ address,
    address < addressAsked nor lba offset ∨
        addressAsked nor lba offset + bytesAsked nor offset numBytes ≤ address →
      device ran.state address = device state address
  numBytes_eq : ran.value.numBytes.toNat = bytesAsked nor offset numBytes

structure FetchedAsAsked (device : σ → Nat → UInt8) (nor : NorFlashInstance)
    (lba offset numBytes : UInt64) (buffer : Buffer) (state : σ) (ran : Ran σ Call Transfer) :
    Prop where
  fetched : ∀ index < bytesAsked nor offset numBytes,
    ran.value.buffer.bytes index = device state (addressAsked nor lba offset + index)
  unchanged : ∀ index, bytesAsked nor offset numBytes ≤ index →
    ran.value.buffer.bytes index = buffer.bytes index
  numBytes_eq : ran.value.numBytes.toNat = bytesAsked nor offset numBytes

variable {nor : FvbInstance} {lba offset numBytes : UInt64} {buffer : Buffer} {state : σ}

theorem deviceAddress_add_startLba (hlba : lba < nor.blocks) (offset : UInt64) :
    deviceAddress nor.toNorFlashInstance (nor.startLba + lba) offset =
      addressAsked nor.toNorFlashInstance lba offset := by
  have hregion := nor.region_le
  rw [UInt64.lt_iff_toNat_lt] at hlba
  have hblock := calc (nor.startLba + lba).toNat
    _ = (nor.startLba.toNat + lba.toNat) % 2 ^ 64 := UInt64.toNat_add _ _
    _ = nor.startLba.toNat + lba.toNat := Nat.mod_eq_of_lt (by omega)
  rw [deviceAddress, addressAsked, hblock]

theorem storedAsAsked_of_overwrite {device : σ → Nat → UInt8} {ran : Ran σ Call Transfer}
    (hdevice : device ran.state = Memory.overwrite (device state)
      (addressAsked nor.toNorFlashInstance lba offset)
      (bytesAsked nor.toNorFlashInstance offset numBytes) buffer.bytes)
    (hnumBytes : ran.value.numBytes.toNat = bytesAsked nor.toNorFlashInstance offset numBytes) :
    StoredAsAsked device nor.toNorFlashInstance lba offset numBytes buffer state ran := by
  refine ⟨?_, ?_, hnumBytes⟩
  · intro index hindex
    rw [hdevice, Memory.overwrite_inside _ _ (by omega) (by omega), Nat.add_sub_cancel_left]
  · intro address houtside
    rw [hdevice, Memory.overwrite_outside _ _ houtside]

theorem fetchedAsAsked_of_overwrite {device : σ → Nat → UInt8} {ran : Ran σ Call Transfer}
    (hbuffer : ran.value.buffer.bytes = Memory.overwrite buffer.bytes 0
      (bytesAsked nor.toNorFlashInstance offset numBytes)
      fun index => device state (addressAsked nor.toNorFlashInstance lba offset + index))
    (hnumBytes : ran.value.numBytes.toNat = bytesAsked nor.toNorFlashInstance offset numBytes) :
    FetchedAsAsked device nor.toNorFlashInstance lba offset numBytes buffer state ran := by
  refine ⟨?_, ?_, hnumBytes⟩
  · intro index hindex
    rw [hbuffer, Memory.overwrite_front _ _ hindex]
  · intro index hindex
    rw [hbuffer, Memory.overwrite_outside _ _ (by omega)]

/-- A request for a whole block asks for as many bytes at offset zero only. -/
theorem bytesAsked_of_whole (hwhole : numBytes = nor.media.blockSize.toUInt64) :
    numBytes.toNat = bytesAsked nor.toNorFlashInstance offset numBytes ↔ offset = 0 := by
  have hsize := nor.blockSize_pos
  rw [bytesAsked, toNat_of_whole hwhole, ← UInt64.toNat_inj]
  simp only [UInt64.toNat_zero]
  omega

variable (lib : NorFlashLib σ) {device : σ → Nat → UInt8}

/-- **When a write stores what it is given.** -/
theorem storedAsAsked_iff (hlib : lib.Writes device) (hwritable : nor.media.readOnly = false)
    (hlba : lba < nor.blocks) (hoffset : offset < nor.media.blockSize.toUInt64)
    (hpos : numBytes ≠ 0) (hbytes : numBytes ≤ nor.media.blockSize.toUInt64)
    (hsuccess : ∀ call ∈
      ((fvbWrite lib nor.toNorFlashInstance lba offset numBytes buffer).run state).calls,
      call.status.isError = false) :
    StoredAsAsked device nor.toNorFlashInstance lba offset numBytes buffer state
        ((fvbWrite lib nor.toNorFlashInstance lba offset numBytes buffer).run state) ↔
      numBytes < nor.media.blockSize.toUInt64 ∨ offset = 0 := by
  have haccepted : ¬ TransferRejected nor.toNorFlashInstance offset numBytes :=
    not_transferRejected_iff.mpr ⟨hoffset, hbytes, hpos⟩
  rcases UInt64.lt_or_eq_of_le hbytes with hlt | hwhole
  · refine iff_of_true ?_ (Or.inl hlt)
    rw [fvbWrite_of_part lib lba buffer hwritable haccepted hlt] at hsuccess ⊢
    have hcall := hsuccess _ List.mem_cons_self
    have hserved := toNat_bytesServed hoffset hbytes
    refine storedAsAsked_of_overwrite ?_ hserved
    rw [← deviceAddress_add_startLba hlba, bytesAsked, ← hserved]
    exact hlib.write _ _ _ _ _ _ hcall
  · rw [or_iff_right (by rw [hwhole]; exact UInt64.lt_irrefl _)]
    rw [fvbWrite_of_whole lib lba buffer hwritable haccepted hwhole] at hsuccess ⊢
    have hcall := hsuccess _ List.mem_cons_self
    constructor
    · intro hstored
      exact (bytesAsked_of_whole hwhole).mp hstored.numBytes_eq
    · intro hzero
      have hasked := (bytesAsked_of_whole hwhole).mpr hzero
      refine storedAsAsked_of_overwrite ?_ hasked
      rw [← deviceAddress_add_startLba hlba, ← hasked, hzero]
      exact hlib.writeBlocks _ _ _ _ _ hcall

/-- **When a read fetches what it is asked for.** -/
theorem fetchedAsAsked_iff (hlib : lib.Reads device) (hlba : lba < nor.blocks)
    (hoffset : offset < nor.media.blockSize.toUInt64) (hpos : numBytes ≠ 0)
    (hbytes : numBytes ≤ nor.media.blockSize.toUInt64)
    (hsuccess : ∀ call ∈
      ((fvbRead lib nor.toNorFlashInstance lba offset numBytes buffer).run state).calls,
      call.status.isError = false) :
    FetchedAsAsked device nor.toNorFlashInstance lba offset numBytes buffer state
        ((fvbRead lib nor.toNorFlashInstance lba offset numBytes buffer).run state) ↔
      numBytes < nor.media.blockSize.toUInt64 ∨ offset = 0 := by
  have haccepted : ¬ TransferRejected nor.toNorFlashInstance offset numBytes :=
    not_transferRejected_iff.mpr ⟨hoffset, hbytes, hpos⟩
  rcases UInt64.lt_or_eq_of_le hbytes with hlt | hwhole
  · refine iff_of_true ?_ (Or.inl hlt)
    rw [fvbRead_of_part lib lba buffer haccepted hlt] at hsuccess ⊢
    have hcall := hsuccess _ List.mem_cons_self
    have hserved := toNat_bytesServed hoffset hbytes
    refine fetchedAsAsked_of_overwrite ?_ hserved
    rw [← deviceAddress_add_startLba hlba, bytesAsked, ← hserved]
    exact hlib.read _ _ _ _ _ _ hcall
  · rw [or_iff_right (by rw [hwhole]; exact UInt64.lt_irrefl _)]
    rw [fvbRead_of_whole lib lba buffer haccepted hwhole] at hsuccess ⊢
    have hcall := hsuccess _ List.mem_cons_self
    constructor
    · intro hfetched
      exact (bytesAsked_of_whole hwhole).mp hfetched.numBytes_eq
    · intro hzero
      have hasked := (bytesAsked_of_whole hwhole).mpr hzero
      refine fetchedAsAsked_of_overwrite ?_ hasked
      rw [← deviceAddress_add_startLba hlba, ← hasked, hzero]
      exact hlib.readBlocks _ _ _ _ _ hcall

end

/-! ### A whole block from offset 1 on -/

/-- Writing a block's worth of bytes from offset 1 on changes the byte at offset 0, and says that it
has written them all. -/
theorem fvbWrite_whole_from_one :
    ((fvbWrite NorFlashLib.ideal (sampleInstance false) 0 1 0x1000 sampleBuffer).run
        fun _ => 0xFF).state 0x700000 = 0 ∧
      ((fvbWrite NorFlashLib.ideal (sampleInstance false) 0 1 0x1000 sampleBuffer).run
        fun _ => 0xFF).value.numBytes = 0x1000 ∧
      ¬ StoredAsAsked id (sampleInstance false) 0 1 0x1000 sampleBuffer (fun _ => 0xFF)
        ((fvbWrite NorFlashLib.ideal (sampleInstance false) 0 1 0x1000 sampleBuffer).run
          fun _ => 0xFF) := by
  refine ⟨by decide, by decide, ?_⟩
  intro hstored
  have hnumBytes := hstored.numBytes_eq
  revert hnumBytes
  decide

theorem storedAsAsked_iff_sample :
    StoredAsAsked id sampleFvb.toNorFlashInstance 3 0xFFC 8 sampleBuffer (fun _ => 0xFF)
        ((fvbWrite NorFlashLib.ideal sampleFvb.toNorFlashInstance 3 0xFFC 8 sampleBuffer).run
          fun _ => 0xFF) ↔
      (8 : UInt64) < sampleFvb.media.blockSize.toUInt64 ∨ (0xFFC : UInt64) = 0 :=
  storedAsAsked_iff NorFlashLib.ideal NorFlashLib.ideal_writes rfl (by decide) (by decide)
    (by decide) (by decide) (by decide)

def countingDevice : Nat → UInt8 := UInt8.ofNat

/-- Reading a block's worth of bytes from offset 1 on returns the byte at offset 0 first. -/
theorem fvbRead_whole_from_one :
    ((fvbRead NorFlashLib.ideal (sampleInstance false) 0 1 0x1000 sampleBuffer).run
        countingDevice).value.buffer.bytes 0 = countingDevice 0x700000 ∧
      ((fvbRead NorFlashLib.ideal (sampleInstance false) 0 1 0x1000 sampleBuffer).run
        countingDevice).value.numBytes = 0x1000 ∧
      ¬ FetchedAsAsked id (sampleInstance false) 0 1 0x1000 sampleBuffer countingDevice
        ((fvbRead NorFlashLib.ideal (sampleInstance false) 0 1 0x1000 sampleBuffer).run
          countingDevice) := by
  refine ⟨by decide, by decide, ?_⟩
  intro hfetched
  have hnumBytes := hfetched.numBytes_eq
  revert hnumBytes
  decide

theorem fetchedAsAsked_iff_sample :
    FetchedAsAsked id sampleFvb.toNorFlashInstance 3 0xFFC 8 sampleBuffer countingDevice
        ((fvbRead NorFlashLib.ideal sampleFvb.toNorFlashInstance 3 0xFFC 8 sampleBuffer).run
          countingDevice) ↔
      (8 : UInt64) < sampleFvb.media.blockSize.toUInt64 ∨ (0xFFC : UInt64) = 0 :=
  fetchedAsAsked_iff NorFlashLib.ideal NorFlashLib.ideal_reads (by decide) (by decide) (by decide)
    (by decide) (by decide)

end OrionO6.Flash
