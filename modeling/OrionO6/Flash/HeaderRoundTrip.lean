import OrionO6.Flash.Header
import OrionO6.Flash.Transfer

/-!
# Round trip of the headers

What `InitializeFvAndVariableStoreHeaders` leaves on the flash passes `ValidateFvHeader`, and it
fails once any one word of the firmware volume header but its length has changed.
-/

namespace OrionO6.Flash

open Memory

section

variable {constants : HeaderConstants} {pcds : FlashPcds} {nor : NorFlashInstance}
  {headers : Nat → UInt8}

/-! ### The bytes that are written -/

theorem headerLength_setFirmwareVolumeFields :
    FirmwareVolumeHeader.headerLength.get (setFirmwareVolumeFields constants pcds nor headers) =
      firmwareVolumeHeaderLength := by
  simp (disch := decide) only [setFirmwareVolumeFields, Field.get_set_of_disjoint, Field.get_set]
  rfl

theorem headerLength_setFirmwareVolumeHeader :
    FirmwareVolumeHeader.headerLength.get (setFirmwareVolumeHeader constants pcds nor headers) =
      firmwareVolumeHeaderLength := by
  rw [setFirmwareVolumeHeader, Field.get_set_of_disjoint (by decide)]
  exact headerLength_setFirmwareVolumeFields

theorem checksum_setFirmwareVolumeFields
    (hzero : FirmwareVolumeHeader.checksum.get headers = 0) :
    FirmwareVolumeHeader.checksum.get (setFirmwareVolumeFields constants pcds nor headers) = 0 := by
  simp (disch := decide) only [setFirmwareVolumeFields, Field.get_set_of_disjoint, hzero]

/-- The checksum, computed while its own field is zero, makes the sum of the header zero. -/
theorem sum_setFirmwareVolumeHeader (hzero : FirmwareVolumeHeader.checksum.get headers = 0) :
    calculateSum16 (setFirmwareVolumeHeader constants pcds nor headers)
      firmwareVolumeHeaderLength = 0 := by
  rw [setFirmwareVolumeHeader, headerLength_setFirmwareVolumeFields]
  exact sum16_set_neg (by decide : 25 < 36) (checksum_setFirmwareVolumeFields hzero)

theorem setVariableStoreHeader_before {address : Nat}
    (hbefore : address < FirmwareVolumeHeader.headerLength.get headers) :
    setVariableStoreHeader constants pcds headers address = headers address := by
  have hset : ∀ (field : Field) (value : Nat) (memory : Nat → UInt8),
      (field.shift (FirmwareVolumeHeader.headerLength.get headers)).set value memory address =
        memory address := by
    intro field value memory
    exact overwrite_outside _ _ (Or.inl (Nat.lt_add_right _ hbefore))
  rw [setVariableStoreHeader, hset, hset, hset, hset]

theorem get_setVariableStoreHeader {field : Field}
    (hbefore : field.offset + field.size ≤ FirmwareVolumeHeader.headerLength.get headers) :
    field.get (setVariableStoreHeader constants pcds headers) = field.get headers :=
  Field.get_congr fun _ _ hto => setVariableStoreHeader_before (Nat.lt_of_lt_of_le hto hbefore)

theorem headerLength_setHeaders :
    FirmwareVolumeHeader.headerLength.get (setHeaders constants pcds nor headers) =
      firmwareVolumeHeaderLength := by
  rw [setHeaders, get_setVariableStoreHeader, headerLength_setFirmwareVolumeHeader]
  rw [headerLength_setFirmwareVolumeHeader]
  decide

theorem sum_setHeaders (hzero : FirmwareVolumeHeader.checksum.get headers = 0) :
    calculateSum16 (setHeaders constants pcds nor headers) firmwareVolumeHeaderLength = 0 := by
  rw [← sum_setFirmwareVolumeHeader hzero]
  refine sum16_congr fun address haddress => setVariableStoreHeader_before ?_
  rw [headerLength_setFirmwareVolumeHeader]
  exact haddress

/-- What is written after the fields of the firmware volume header changes its checksum only. -/
theorem get_setHeaders {field : Field}
    (hfield : field.offset + field.size ≤ firmwareVolumeHeaderLength)
    (hchecksum : field.Disjoint FirmwareVolumeHeader.checksum) :
    field.get (setHeaders constants pcds nor headers) =
      field.get (setFirmwareVolumeFields constants pcds nor headers) := by
  rw [setHeaders, get_setVariableStoreHeader, setFirmwareVolumeHeader,
    Field.get_set_of_disjoint hchecksum]
  rwa [headerLength_setFirmwareVolumeHeader]

/-- **The headers that are written pass every check.** -/
theorem headerConsistent_setHeaders (hzero : FirmwareVolumeHeader.checksum.get headers = 0) :
    HeaderConsistent constants pcds (setHeaders constants pcds nor headers) := by
  constructor
  · rw [get_setHeaders (by decide) (by decide)]
    simp (disch := decide) only [setFirmwareVolumeFields, Field.get_set_of_disjoint, Field.get_set]
    exact Nat.mod_eq_of_lt constants.fvhRevision.toNat_lt
  · rw [get_setHeaders (by decide) (by decide)]
    simp (disch := decide) only [setFirmwareVolumeFields, Field.get_set_of_disjoint, Field.get_set]
    exact Nat.mod_eq_of_lt constants.fvhSignature.toNat_lt
  · rw [get_setHeaders (by decide) (by decide)]
    simp (disch := decide) only [setFirmwareVolumeFields, Field.get_set_of_disjoint, Field.get_set]
    exact Nat.mod_eq_of_lt (Nat.lt_trans pcds.totalSize.toNat_lt (by decide))
  · rw [get_setHeaders (by decide) (by decide)]
    simp (disch := decide) only [setFirmwareVolumeFields, Field.get_set_of_disjoint, Field.get_set]
    exact Nat.mod_eq_of_lt constants.systemNvDataFvGuid.isLt
  · rw [headerLength_setHeaders]
    exact sum_setHeaders hzero
  · refine Or.inr ?_
    rw [headerLength_setHeaders, setHeaders, setVariableStoreHeader,
      headerLength_setFirmwareVolumeHeader]
    simp (disch := decide) only [Field.get_set_of_disjoint, Field.get_set]
    exact Nat.mod_eq_of_lt constants.authenticatedVariableGuid.isLt
  · rw [headerLength_setHeaders, setHeaders, setVariableStoreHeader,
      headerLength_setFirmwareVolumeHeader]
    simp (disch := decide) only [Field.get_set_of_disjoint, Field.get_set]
    exact Nat.mod_eq_of_lt (UInt32.toNat_lt _)

/-! ### The bytes that are read -/

theorem HeaderConsistent.congr {fwVolHeader : Nat → UInt8}
    (hconsistent : HeaderConsistent constants pcds headers)
    (hlength : FirmwareVolumeHeader.headerLength.get headers = firmwareVolumeHeaderLength)
    (hagree : ∀ address < headersLength.toNat, fwVolHeader address = headers address) :
    HeaderConsistent constants pcds fwVolHeader := by
  have hget : ∀ field : Field, field.offset + field.size ≤ headersLength.toNat →
      field.get fwVolHeader = field.get headers := fun field hfield =>
    Field.get_congr fun address _ hto => hagree address (Nat.lt_of_lt_of_le hto hfield)
  have hsame : FirmwareVolumeHeader.headerLength.get fwVolHeader = firmwareVolumeHeaderLength :=
    (hget _ (by decide)).trans hlength
  have hsum : calculateSum16 fwVolHeader firmwareVolumeHeaderLength =
      calculateSum16 headers firmwareVolumeHeaderLength :=
    sum16_congr fun address haddress => hagree address (Nat.lt_trans haddress (by decide))
  obtain ⟨hrevision, hsignature, hfvLength, hguid, hzero, hstore, hsize⟩ := hconsistent
  rw [hlength] at hzero hstore hsize
  constructor
  · rw [hget _ (by decide), hrevision]
  · rw [hget _ (by decide), hsignature]
  · rw [hget _ (by decide), hfvLength]
  · rw [hget _ (by decide), hguid]
  · rw [hsame, hsum, hzero]
  · rw [hsame, hget _ (by decide)]
    exact hstore
  · rw [hsame, hget _ (by decide), hsize]

theorem not_headerConsistent_of_word_changed {index : Nat} {value : UInt16}
    (hlength : FirmwareVolumeHeader.headerLength.get headers = firmwareVolumeHeaderLength)
    (hsum : calculateSum16 headers firmwareVolumeHeaderLength = 0)
    (hindex : index < firmwareVolumeHeaderLength / 2) (hother : index ≠ 24)
    (hvalue : value ≠ UInt16.ofNat ((word index).get headers)) :
    ¬ HeaderConsistent constants pcds ((word index).set value.toNat headers) := by
  intro hconsistent
  have hzero := hconsistent.sum_eq_zero
  have hkept : FirmwareVolumeHeader.headerLength.get ((word index).set value.toNat headers) =
      FirmwareVolumeHeader.headerLength.get headers :=
    Field.get_set_of_disjoint (word_disjoint hother.symm) _ _
  rw [hkept, hlength, ← hsum] at hzero
  exact sum16_set_ne hindex hvalue hzero

end

/-! ### Through the flash -/

section

variable {σ : Type} (lib : NorFlashLib σ)

/-- Reading so many bytes at a place succeeds and gives these. -/
def NorFlashLib.Holds (nor : NorFlashInstance) (lba offset numBytes : UInt64)
    (contents : Nat → UInt8) (state : σ) : Prop :=
  ∀ target : Buffer, (lib.read nor lba offset numBytes target state).1.1.isError = false ∧
    (lib.read nor lba offset numBytes target state).1.2 =
      overwrite target.bytes 0 numBytes.toNat contents

def NorFlashLib.ReadsBack (nor : NorFlashInstance) (lba offset numBytes : UInt64) : Prop :=
  ∀ source state, lib.Holds nor lba offset numBytes source.bytes
    (lib.write nor lba offset numBytes source state).2

variable {lib} {constants : HeaderConstants} {pcds : FlashPcds} {nor : NorFlashInstance}
  {lba offset numBytes : UInt64} {contents other : Nat → UInt8} {state : σ}

theorem NorFlashLib.Holds.agree (hcontents : lib.Holds nor lba offset numBytes contents state)
    (hother : lib.Holds nor lba offset numBytes other state) {address : Nat}
    (haddress : address < numBytes.toNat) : contents address = other address := by
  have hread := (hcontents ⟨0, fun _ => 0⟩).2.symm.trans (hother ⟨0, fun _ => 0⟩).2
  have hbyte := congrFun hread address
  rwa [overwrite_front _ _ haddress, overwrite_front _ _ haddress] at hbyte

/-- Where the header length is the usual one, `ValidateFvHeader` finds what the flash holds
valid just in case it is consistent. -/
theorem validateFvHeader_of_holds
    (hcontents : lib.Holds nor nor.startLba 0 headersLength contents state)
    (hlength : FirmwareVolumeHeader.headerLength.get contents = firmwareVolumeHeaderLength)
    (pool : Buffer) :
    (HeaderConsistent constants pcds contents →
        ((validateFvHeader constants pcds lib nor (some pool)).run state).value = .success) ∧
      (¬ HeaderConsistent constants pcds contents →
        ((validateFvHeader constants pcds lib nor (some pool)).run state).value = .notFound) := by
  obtain ⟨hstatus, hbytes⟩ := hcontents (zeroed pool headersLength)
  let fwVolHeader := overwrite (zeroed pool headersLength).bytes 0 headersLength.toNat contents
  have hagree : ∀ address < headersLength.toNat, fwVolHeader address = contents address :=
    fun address haddress => overwrite_front _ _ haddress
  have hvalue : ((validateFvHeader constants pcds lib nor (some pool)).run state).value =
      checkFvHeader constants pcds fwVolHeader := by
    rw [validateFvHeader, Traced.run_bind, NorFlashLib.norFlashRead, Traced.run_call]
    simp only [hstatus, Bool.false_eq_true, if_false, hbytes, Traced.run_pure]
    rfl
  rw [hvalue]
  constructor
  · intro hconsistent
    exact checkFvHeader_of_consistent (hconsistent.congr hlength hagree)
  · intro hinconsistent
    refine checkFvHeader_of_not_consistent fun hread => hinconsistent ?_
    refine hread.congr ?_ fun address haddress => (hagree address haddress).symm
    rw [← hlength]
    exact Field.get_congr fun address _ hto =>
      hagree address (Nat.lt_of_lt_of_le hto (by decide))

theorem checksum_zeroed (pool : Buffer) :
    FirmwareVolumeHeader.checksum.get (zeroed pool headersLength).bytes = 0 := by
  have hzeros : FirmwareVolumeHeader.checksum.get (zeroed pool headersLength).bytes =
      FirmwareVolumeHeader.checksum.get fun _ => 0 :=
    Field.get_congr fun _ _ hto => zeroed_bytes pool (Nat.lt_trans hto (by decide))
  rw [hzeros]
  decide

/-- Bytes that agree with the written headers have their length and their checksum. -/
theorem headers_of_agree {contents : Nat → UInt8} {pool : Buffer}
    (hagree : ∀ address < headersLength.toNat, contents address =
      setHeaders constants pcds nor (zeroed pool headersLength).bytes address) :
    FirmwareVolumeHeader.headerLength.get contents = firmwareVolumeHeaderLength ∧
      calculateSum16 contents firmwareVolumeHeaderLength = 0 := by
  constructor
  · calc
      FirmwareVolumeHeader.headerLength.get contents
      _ = FirmwareVolumeHeader.headerLength.get
            (setHeaders constants pcds nor (zeroed pool headersLength).bytes) :=
          Field.get_congr fun address _ hto =>
            hagree address (Nat.lt_of_lt_of_le hto (by decide))
      _ = firmwareVolumeHeaderLength := headerLength_setHeaders
  · calc
      calculateSum16 contents firmwareVolumeHeaderLength
      _ = calculateSum16 (setHeaders constants pcds nor (zeroed pool headersLength).bytes)
            firmwareVolumeHeaderLength :=
          sum16_congr fun address haddress =>
            hagree address (Nat.lt_trans haddress (by decide))
      _ = 0 := sum_setHeaders (checksum_zeroed pool)

theorem holds_written (hflash : lib.ReadsBack nor nor.startLba 0 headersLength)
    (hlayout : LayoutAccepted pcds nor.media.blockSize) (pool : Buffer) (state : σ) :
    lib.Holds nor nor.startLba 0 headersLength
      (setHeaders constants pcds nor (zeroed pool headersLength).bytes)
      ((initializeFvAndVariableStoreHeaders constants pcds lib nor pool).run state).state := by
  rw [initialize_of_layoutAccepted hlayout]
  exact hflash _ _

variable (lib) in
/-- **Round trip of the headers.** If the layout is accepted and what is written can be read, the
headers on the flash are found valid, and no longer so once one word has changed. -/
theorem validateFvHeader_initialize (constants : HeaderConstants) (pcds : FlashPcds)
    (nor : NorFlashInstance) (pool : Buffer) (state : σ)
    (hflash : lib.ReadsBack nor nor.startLba 0 headersLength)
    (hlayout : LayoutAccepted pcds nor.media.blockSize) :
    let left := ((initializeFvAndVariableStoreHeaders constants pcds lib nor pool).run state).state
    (∀ buffer,
        ((validateFvHeader constants pcds lib nor (some buffer)).run left).value = .success) ∧
      ∀ contents, lib.Holds nor nor.startLba 0 headersLength contents left →
        ∀ index < firmwareVolumeHeaderLength / 2, index ≠ 24 →
          ∀ value : UInt16, value ≠ UInt16.ofNat ((word index).get contents) →
            ∀ corrupted, lib.Holds nor nor.startLba 0 headersLength
                ((word index).set value.toNat contents) corrupted →
              ∀ buffer, ((validateFvHeader constants pcds lib nor (some buffer)).run
                corrupted).value = .notFound := by
  intro left
  have hwritten : lib.Holds nor nor.startLba 0 headersLength
      (setHeaders constants pcds nor (zeroed pool headersLength).bytes) left :=
    holds_written hflash hlayout pool state
  constructor
  · intro buffer
    exact (validateFvHeader_of_holds hwritten headerLength_setHeaders buffer).1
      (headerConsistent_setHeaders (checksum_zeroed pool))
  · intro contents hcontents index hindex hother value hvalue corrupted hcorrupted buffer
    have hagree : ∀ address < headersLength.toNat, contents address =
        setHeaders constants pcds nor (zeroed pool headersLength).bytes address :=
      fun address haddress => hcontents.agree hwritten haddress
    obtain ⟨hlength, hsum⟩ := headers_of_agree hagree
    refine (validateFvHeader_of_holds hcorrupted ?_ buffer).2
      (not_headerConsistent_of_word_changed hlength hsum hindex hother hvalue)
    rw [← hlength]
    exact Field.get_set_of_disjoint (word_disjoint hother.symm) _ _

end

/-! ### On a sample device -/

theorem NorFlashLib.ideal_readsBack (nor : NorFlashInstance) (lba offset numBytes : UInt64) :
    NorFlashLib.ideal.ReadsBack nor lba offset numBytes := by
  intro source device target
  refine ⟨rfl, ?_⟩
  funext address
  simp only [NorFlashLib.ideal, overwrite]
  split_ifs with hinside hdevice
  · rw [Nat.sub_zero, Nat.add_sub_cancel_left]
  · omega
  · rfl

def sampleConstants : HeaderConstants where
  systemNvDataFvGuid := 0x504F5B07472785A94C8B7696FFF12B8D
  variableGuid := 0x7DFE7F7085FEB69841643275DDCF3616
  authenticatedVariableGuid := 0x9277C34E142E80A1439A947BAAF32C78
  fvhSignature := 0x4856465F
  fvhRevision := 2
  fvbAttributes := 0xA36
  variableStoreFormatted := 0x5A
  variableStoreHealthy := 0xFE

def samplePcds : FlashPcds where
  variableBase64 := 0
  ftwWorkingBase64 := 0
  ftwSpareBase64 := 0x720000
  variableBase32 := 0x700000
  ftwWorkingBase32 := 0x710000
  ftwSpareBase32 := 0
  variableSize := 0x10000
  ftwWorkingSize := 0x10000
  ftwSpareSize := 0x40000

theorem samplePcds_layoutAccepted :
    LayoutAccepted samplePcds (sampleInstance false).media.blockSize := by
  constructor <;> decide

def sampleFlash : Nat → UInt8 :=
  ((initializeFvAndVariableStoreHeaders sampleConstants samplePcds NorFlashLib.ideal
    (sampleInstance false) sampleBuffer).run fun _ => 0xFF).state

/-- The headers of the sample device, with the lower half of the attributes cleared. -/
def sampleCorrupted : Nat → UInt8 :=
  (word 22).set (0 : UInt16).toNat
    (setHeaders sampleConstants samplePcds (sampleInstance false)
      (zeroed sampleBuffer headersLength).bytes)

theorem validateFvHeader_initialize_sample :
    ((validateFvHeader sampleConstants samplePcds NorFlashLib.ideal (sampleInstance false)
        (some sampleBuffer)).run sampleFlash).value = .success ∧
      ((validateFvHeader sampleConstants samplePcds NorFlashLib.ideal (sampleInstance false)
        (some sampleBuffer)).run (NorFlashLib.ideal.write (sampleInstance false) 0x700 0
          headersLength { sampleBuffer with bytes := sampleCorrupted } sampleFlash).2).value =
        .notFound := by
  obtain ⟨hvalid, hcorrupted⟩ := validateFvHeader_initialize NorFlashLib.ideal
    sampleConstants samplePcds (sampleInstance false) sampleBuffer (fun _ => 0xFF)
    (NorFlashLib.ideal_readsBack _ _ _ _) samplePcds_layoutAccepted
  refine ⟨hvalid _, ?_⟩
  refine hcorrupted _ (holds_written (NorFlashLib.ideal_readsBack _ _ _ _)
    samplePcds_layoutAccepted _ _) 22 (by decide) (by decide) 0 (by decide) _
    (NorFlashLib.ideal_readsBack _ _ _ _ { sampleBuffer with bytes := sampleCorrupted } sampleFlash)
    sampleBuffer

end OrionO6.Flash
