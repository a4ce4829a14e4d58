import OrionO6.Flash.HeaderRegion
import OrionO6.Flash.SharedStore

/-!
# A formatted volume

Once the headers have been written, clients go on using the volume through the three protocols. As
long as none of them touches the bytes of the headers, the headers stay valid and describe the volume
as the protocol itself does; once the first block has been erased they are not valid any more.
-/

namespace OrionO6.Flash

open Store Memory

/-! ### The queries of the protocol -/

namespace FvbAttributes

def readEnabledCap : UInt32 := 0x2
def readStatus : UInt32 := 0x4
def writeEnabledCap : UInt32 := 0x10
def writeStatus : UInt32 := 0x20
def stickyWrite : UInt32 := 0x200
def erasePolarity : UInt32 := 0x800

/-- The attributes in the firmware volume header. -/
def ofHeader : UInt32 :=
  readEnabledCap ||| readStatus ||| stickyWrite ||| erasePolarity ||| writeStatus ||| writeEnabledCap

end FvbAttributes

open FvbAttributes in
def fvbGetAttributes (nor : NorFlashInstance) : UInt32 :=
  let flashFvbAttributes := readEnabledCap ||| readStatus ||| stickyWrite ||| erasePolarity
  if nor.media.readOnly ≠ true then flashFvbAttributes ||| writeStatus ||| writeEnabledCap
  else flashFvbAttributes

/-- What a client learns from the queries of the protocol is what the header says: how many blocks
there are from each one on, how large they are, and, but for the two bits about writing, the
attributes. -/
structure DescribesVolume (nor : NorFlashInstance) (headers : Nat → UInt8) : Prop where
  refused_iff : ∀ lba : UInt64, (fvbGetBlockSize nor lba).status.isError = true ↔
    (FirmwareVolumeHeader.blockMapNumBlocks 0).get headers ≤ lba.toNat
  numberOfBlocks : ∀ lba count, (fvbGetBlockSize nor lba).numberOfBlocks = some count →
    lba.toNat + count.toNat = (FirmwareVolumeHeader.blockMapNumBlocks 0).get headers
  blockSize : ∀ lba size, (fvbGetBlockSize nor lba).blockSize = some size →
    size.toNat = (FirmwareVolumeHeader.blockMapLength 0).get headers
  attributes : fvbGetAttributes nor =
    if nor.media.readOnly then
      UInt32.ofNat (FirmwareVolumeHeader.attributes.get headers) &&&
        ~~~(FvbAttributes.writeStatus ||| FvbAttributes.writeEnabledCap)
    else UInt32.ofNat (FirmwareVolumeHeader.attributes.get headers)

section

variable {constants : HeaderConstants} {pcds : FlashPcds} {nor : NorFlashInstance}
  {headers : Nat → UInt8}

theorem attributes_setHeaders :
    FirmwareVolumeHeader.attributes.get (setHeaders constants pcds nor headers) =
      constants.fvbAttributes.toNat := by
  rw [get_setHeaders (by decide) (by decide)]
  simp (disch := decide) only [setFirmwareVolumeFields, Field.get_set_of_disjoint, Field.get_set]
  exact Nat.mod_eq_of_lt constants.fvbAttributes.toNat_lt

theorem fvbGetAttributes_eq (nor : NorFlashInstance) :
    fvbGetAttributes nor =
      if nor.media.readOnly then
        FvbAttributes.ofHeader &&& ~~~(FvbAttributes.writeStatus ||| FvbAttributes.writeEnabledCap)
      else FvbAttributes.ofHeader := by
  unfold fvbGetAttributes
  cases nor.media.readOnly <;> rfl

theorem describesVolume_of_fields
    (hblocks : (FirmwareVolumeHeader.blockMapNumBlocks 0).get headers = nor.blocks.toNat)
    (hsize : (FirmwareVolumeHeader.blockMapLength 0).get headers = nor.media.blockSize.toNat)
    (hattributes : FirmwareVolumeHeader.attributes.get headers = FvbAttributes.ofHeader.toNat) :
    DescribesVolume nor headers where
  refused_iff := by
    intro lba
    rw [fvbGetBlockSize_isError_iff, hblocks, UInt64.le_iff_toNat_le]
  numberOfBlocks := by
    intro lba count hcount
    rw [fvbGetBlockSize] at hcount
    split at hcount
    · cases hcount
    · rename_i hlba
      have hle : lba ≤ nor.blocks := UInt64.le_of_lt (UInt64.not_le.mp hlba)
      have hleNat := UInt64.le_iff_toNat_le.mp hle
      rw [hblocks, ← Option.some.inj hcount, UInt64.toNat_sub_of_le _ _ hle]
      omega
  blockSize := by
    intro lba size hanswer
    rw [fvbGetBlockSize] at hanswer
    split at hanswer
    · cases hanswer
    · rw [hsize, ← Option.some.inj hanswer, UInt32.toNat_toUInt64]
  attributes := by
    rw [hattributes, UInt32.ofNat_toNat]
    exact fvbGetAttributes_eq nor

end

/-! ### Clients after formatting -/

def headersStart (nor : NorFlashInstance) : Nat := deviceAddress nor nor.startLba 0

/-- The bytes of a store from the start of the headers on. -/
def headersAt (nor : NorFlashInstance) (store : Nat → UInt8) : Nat → UInt8 :=
  fun index => store (headersStart nor + index)

section

variable {σ : Type} {lib : NorFlashLib σ} {device : σ → Nat → UInt8} {constants : HeaderConstants}
  {pcds : FlashPcds} {nor : NorFlashInstance} {volume : Volume} {pool : Buffer} {state : σ}

theorem headersAt_initialize (hlib : lib.IsStore device)
    (hlayout : LayoutAccepted pcds nor.media.blockSize)
    (hsuccess : ∀ call ∈
      ((initializeFvAndVariableStoreHeaders constants pcds lib nor pool).run state).calls,
      Succeeds call)
    {index : Nat} (hindex : index < headersLength.toNat) :
    headersAt nor (device ((initializeFvAndVariableStoreHeaders constants pcds lib nor pool).run
        state).state) index =
      setHeaders constants pcds nor (zeroed pool headersLength).bytes index := by
  rw [initialize_of_layoutAccepted hlayout] at hsuccess ⊢
  have hwrite := hlib.write nor nor.startLba 0 headersLength
    { pool with bytes := setHeaders constants pcds nor (zeroed pool headersLength).bytes } state
    (hsuccess _ List.mem_cons_self).not_isError
  have hfrom : deviceAddress nor nor.startLba 0 ≤ headersStart nor + index := Nat.le_add_right _ _
  have hinside : headersStart nor + index < deviceAddress nor nor.startLba 0 + headersLength.toNat :=
    Nat.add_lt_add_left hindex _
  rw [NorFlashLib.norFlashWrite, Traced.run_call, headersAt, hwrite,
    overwrite_inside _ _ hfrom hinside]
  exact congrArg _ (Nat.add_sub_cancel_left _ _)

theorem value_validateFvHeader_of_isStore (hlib : lib.IsStore device)
    (hsuccess : ∀ call ∈
      ((validateFvHeader constants pcds lib nor (some pool)).run state).calls, Succeeds call) :
    ((validateFvHeader constants pcds lib nor (some pool)).run state).value =
      checkFvHeader constants pcds (overwrite (zeroed pool headersLength).bytes 0
        headersLength.toNat (headersAt nor (device state))) := by
  have hstatus : (lib.read nor nor.startLba 0 headersLength (zeroed pool headersLength)
      state).1.1 = .success := hsuccess _ List.mem_cons_self
  have hread := hlib.read nor nor.startLba 0 headersLength (zeroed pool headersLength) state
    (by rw [hstatus]; rfl)
  rw [validateFvHeader, Traced.run_bind, NorFlashLib.norFlashRead, Traced.run_call]
  simp only [hstatus, EfiStatus.isError, EfiStatus.success, hread]
  rfl

/-- A run whose edits stay away from the headers leaves them as they are. -/
theorem headersAt_flashAfter (hlib : lib.IsStore device) {requests : List FlashRequest}
    (hrun : RunSucceeds lib volume requests state)
    (huntouched : ∀ edit ∈ flashEdits volume requests, ∀ index < headersLength.toNat,
      ¬ edit.Covers (headersStart volume.toNorFlashInstance + index))
    {index : Nat} (hindex : index < headersLength.toNat) :
    headersAt volume.toNorFlashInstance (device (flashAfter lib volume requests state)) index =
      headersAt volume.toNorFlashInstance (device state) index := by
  rw [headersAt, device_flashAfter hlib hrun,
    applyAll_of_not_covers fun edit hedit => huntouched edit hedit index hindex]
  rfl

theorem checkFvHeader_of_setHeaders {contents memory : Nat → UInt8}
    (hcontents : ∀ index < headersLength.toNat, contents index =
      setHeaders constants pcds nor (zeroed pool headersLength).bytes index) :
    checkFvHeader constants pcds (overwrite memory 0 headersLength.toNat contents) = .success := by
  apply checkFvHeader_of_consistent
  apply (headerConsistent_setHeaders (checksum_zeroed pool)).congr headerLength_setHeaders
  intro index hindex
  rw [overwrite_front _ _ hindex]
  exact hcontents index hindex

/-- The headers written for one instance describe every other of the same blocks. -/
theorem describesVolume_of_setHeaders {region described : NorFlashInstance}
    {contents : Nat → UInt8} (hregion : region = norFlashFvbInitializeRegion pcds nor)
    (hblocks : described.blocks = region.blocks)
    (hsize : described.media.blockSize = region.media.blockSize)
    (hattributes : constants.fvbAttributes = FvbAttributes.ofHeader)
    (hcontents : ∀ index < headersLength.toNat, contents index =
      setHeaders constants pcds region (zeroed pool headersLength).bytes index) :
    DescribesVolume described contents := by
  have hget : ∀ field : Field, field.offset + field.size ≤ headersLength.toNat →
      field.get contents =
        field.get (setHeaders constants pcds region (zeroed pool headersLength).bytes) :=
    fun field hfield =>
      Field.get_congr fun index _ hto => hcontents index (Nat.lt_of_lt_of_le hto hfield)
  apply describesVolume_of_fields
  · rw [hget _ (by decide), hblocks, hregion, numBlocks_setHeaders, norFlashFvbInitializeRegion,
      UInt32.toNat_toUInt64, UInt32.toNat_div]
  · rw [hget _ (by decide), blockMapLength_setHeaders, hsize]
  · rw [hget _ (by decide), attributes_setHeaders, hattributes]

theorem get_revision (headers : Nat → UInt8) :
    FirmwareVolumeHeader.revision.get headers =
      (headers FirmwareVolumeHeader.revision.offset).toNat :=
  Nat.add_zero _

/-- Formatting, and then a run that stays away from the headers, leaves those that were written. -/
theorem headersAt_of_formatted {requests : List FlashRequest} {formatted : σ}
    (hlib : lib.IsStore device) (hlayout : LayoutAccepted pcds volume.media.blockSize)
    (hformatted : formatted = ((initializeFvAndVariableStoreHeaders constants pcds lib
      volume.toNorFlashInstance pool).run state).state)
    (hformat : ∀ call ∈ ((initializeFvAndVariableStoreHeaders constants pcds lib
      volume.toNorFlashInstance pool).run state).calls, Succeeds call)
    (hrun : RunSucceeds lib volume requests formatted)
    (huntouched : ∀ edit ∈ flashEdits volume requests, ∀ index < headersLength.toNat,
      ¬ edit.Covers (headersStart volume.toNorFlashInstance + index))
    {index : Nat} (hindex : index < headersLength.toNat) :
    headersAt volume.toNorFlashInstance (device (flashAfter lib volume requests formatted)) index =
      setHeaders constants pcds volume.toNorFlashInstance (zeroed pool headersLength).bytes index := by
  calc headersAt volume.toNorFlashInstance (device (flashAfter lib volume requests formatted)) index
    _ = headersAt volume.toNorFlashInstance (device formatted) index :=
        headersAt_flashAfter hlib hrun huntouched hindex
    _ = setHeaders constants pcds volume.toNorFlashInstance (zeroed pool headersLength).bytes
          index := by rw [hformatted]; exact headersAt_initialize hlib hlayout hformat hindex

theorem headersAt_revision_of_erased {requests : List FlashRequest} (hlib : lib.IsStore device)
    (hrun : RunSucceeds lib volume requests state)
    (herased : latest (headersStart volume.toNorFlashInstance + FirmwareVolumeHeader.revision.offset)
      (flashEdits volume requests) = some 0xFF) :
    headersAt volume.toNorFlashInstance (device (flashAfter lib volume requests state))
      FirmwareVolumeHeader.revision.offset = 0xFF := by
  rw [headersAt, device_flashAfter hlib hrun, applyAll_eq_latest, herased]
  rfl

theorem checkFvHeader_of_erased_revision {contents memory : Nat → UInt8}
    (hrevision : constants.fvhRevision ≠ 0xFF)
    (herased : contents FirmwareVolumeHeader.revision.offset = 0xFF) :
    checkFvHeader constants pcds (overwrite memory 0 headersLength.toNat contents) = .notFound := by
  apply checkFvHeader_of_not_consistent
  intro hconsistent
  have hread := hconsistent.revision_eq
  rw [get_revision, overwrite_front _ _ (by decide), herased] at hread
  exact hrevision (UInt8.toNat_inj.mp hread.symm)

/-- **A formatted volume stays one.** After the headers have been written, and after every run over
the three protocols that stays away from them, the headers are valid and describe the volume as its
own queries do. A later run that leaves the revision byte erased makes them invalid. -/
theorem formatted_volume_stays_valid (lib : NorFlashLib σ) (device : σ → Nat → UInt8)
    (constants : HeaderConstants) (pcds : FlashPcds) (nor : NorFlashInstance) (volume : Volume)
    (pool : Buffer) (requests : List FlashRequest) (state formatted : σ)
    (hlib : lib.IsStore device)
    (hregion : volume.toNorFlashInstance = norFlashFvbInitializeRegion pcds nor)
    (hattributes : constants.fvbAttributes = FvbAttributes.ofHeader)
    (hlayout : LayoutAccepted pcds volume.media.blockSize)
    (hformatted : formatted = ((initializeFvAndVariableStoreHeaders constants pcds lib
      volume.toNorFlashInstance pool).run state).state)
    (hformat : ∀ call ∈ ((initializeFvAndVariableStoreHeaders constants pcds lib
      volume.toNorFlashInstance pool).run state).calls, Succeeds call)
    (hrun : RunSucceeds lib volume requests formatted)
    (huntouched : ∀ edit ∈ flashEdits volume requests, ∀ index < headersLength.toNat,
      ¬ edit.Covers (headersStart volume.toNorFlashInstance + index)) :
    let validate := fun buffer =>
      (validateFvHeader constants pcds lib volume.toNorFlashInstance (some buffer)).run
    let left := flashAfter lib volume requests formatted
    (∀ buffer, (∀ call ∈ (validate buffer left).calls, Succeeds call) →
        (validate buffer left).value = .success) ∧
      DescribesVolume volume.toNorFlashInstance
        (headersAt volume.toNorFlashInstance (device left)) ∧
      ∀ more, RunSucceeds lib volume more left → constants.fvhRevision ≠ 0xFF →
        latest (headersStart volume.toNorFlashInstance + FirmwareVolumeHeader.revision.offset)
          (flashEdits volume more) = some 0xFF →
        ∀ buffer, (∀ call ∈ (validate buffer (flashAfter lib volume more left)).calls,
            Succeeds call) →
          (validate buffer (flashAfter lib volume more left)).value = .notFound := by
  intro validate left
  have hcontents : ∀ index < headersLength.toNat,
      headersAt volume.toNorFlashInstance (device left) index =
        setHeaders constants pcds volume.toNorFlashInstance (zeroed pool headersLength).bytes
          index := fun index hindex =>
    headersAt_of_formatted hlib hlayout hformatted hformat hrun huntouched hindex
  refine ⟨?_, describesVolume_of_setHeaders hregion rfl rfl hattributes hcontents, ?_⟩
  · intro buffer hvalidate
    rw [value_validateFvHeader_of_isStore hlib hvalidate]
    exact checkFvHeader_of_setHeaders hcontents
  · intro more hmore hrevision herased buffer hvalidate
    rw [value_validateFvHeader_of_isStore hlib hvalidate]
    exact checkFvHeader_of_erased_revision hrevision
      (headersAt_revision_of_erased hlib hmore herased)

end

/-! ### The sample volume -/

theorem sampleMedia_ne_null : (sampleInstance false).blockIoProtocol.media ≠ 0 := by decide

/-- The sample volume with the region that the sample PCDs give it. -/
def sampleFormattedVolume : Volume where
  toNorFlashInstance := norFlashFvbInitializeRegion samplePcds (sampleInstance false)
  media_ne_null := sampleMedia_ne_null
  blockSize_pos := sampleFvb.blockSize_pos
  region_le := sampleFvb.region_le
  size_lt := sampleFvb.size_lt

/-- A write to the variable store behind the headers, and one outside the region. -/
def requestsBehindHeaders : List FlashRequest := [
  .fvb (.write 0 100 8 sampleBuffer), .diskIoWriteDisk 0 0x100000 16 sampleBuffer]

theorem requestsBehindHeaders_untouched :
    ∀ edit ∈ flashEdits sampleFormattedVolume requestsBehindHeaders,
      ∀ index < headersLength.toNat,
        ¬ edit.Covers (headersStart sampleFormattedVolume.toNorFlashInstance + index) := by
  have hedits : (flashEdits sampleFormattedVolume requestsBehindHeaders).map Edit.toWindow =
      [⟨0x700064, 8⟩, ⟨0x100000, 16⟩] := rfl
  have hstart : headersStart sampleFormattedVolume.toNorFlashInstance = 0x700000 := rfl
  have hlength : headersLength.toNat = 100 := rfl
  intro edit hedit index hindex hcovers
  have hwindow := List.mem_map_of_mem (f := Edit.toWindow) hedit
  rw [hedits] at hwindow
  rw [hstart] at hcovers
  rw [hlength] at hindex
  rcases List.mem_pair.mp hwindow with hfirst | hsecond
  · rw [hfirst] at hcovers
    obtain ⟨hfrom, hto⟩ := hcovers
    simp only at hfrom hto
    omega
  · rw [hsecond] at hcovers
    obtain ⟨hfrom, hto⟩ := hcovers
    simp only at hfrom hto
    omega

def formattedDevice : Nat → UInt8 :=
  ((initializeFvAndVariableStoreHeaders sampleConstants samplePcds NorFlashLib.ideal
    sampleFormattedVolume.toNorFlashInstance sampleBuffer).run fun _ => 0xFF).state

/-- Erases the block that the headers are in. -/
def eraseHeaders : List FlashRequest := [.fvbEraseBlocks [0, 1, efiLbaListTerminator]]

theorem formatted_volume_stays_valid_sample :
    let validate := (validateFvHeader sampleConstants samplePcds NorFlashLib.ideal
      sampleFormattedVolume.toNorFlashInstance (some sampleBuffer)).run
    let left :=
      flashAfter NorFlashLib.ideal sampleFormattedVolume requestsBehindHeaders formattedDevice
    (validate left).value = .success ∧
      DescribesVolume sampleFormattedVolume.toNorFlashInstance
        (headersAt sampleFormattedVolume.toNorFlashInstance left) ∧
      (validate (flashAfter NorFlashLib.ideal sampleFormattedVolume eraseHeaders left)).value =
        .notFound := by
  have hstays := formatted_volume_stays_valid NorFlashLib.ideal id sampleConstants samplePcds
    (sampleInstance false) sampleFormattedVolume sampleBuffer requestsBehindHeaders (fun _ => 0xFF)
    formattedDevice NorFlashLib.ideal_isStore rfl rfl samplePcds_layoutAccepted rfl (by decide)
    (by decide) requestsBehindHeaders_untouched
  refine ⟨hstays.1 sampleBuffer (List.forall_mem_singleton.mpr rfl), hstays.2.1, ?_⟩
  exact hstays.2.2 eraseHeaders (by decide) (by decide) (by decide) sampleBuffer
    (List.forall_mem_singleton.mpr rfl)

end OrionO6.Flash
