import Mathlib.Data.List.Forall2
import OrionO6.Flash.Formatted
import OrionO6.Flash.Published

/-!
# After a restart

The driver forgets everything but the flash. When it starts again it reads the headers that an earlier
start and its clients have left there, and what it finds decides whether a device is published as a
firmware volume again.
-/

namespace OrionO6.Flash

open Store Memory

/-- A start of the driver on the flash that `state` has left, on a platform that comes up. Unless the
boot mode passes over the headers, what is said of one is what validating it gives, with a buffer to
read it into and no failing read, at some moment at which the flash holds the same bytes. -/
structure Restart {σ : Type} (lib : NorFlashLib σ) (device : σ → Nat → UInt8)
    (headerConstants : HeaderConstants) (pcds : FlashPcds) (state : σ) where
  constants : DriverConstants
  startup : StartupAnswers
  devices : List (NorFlashRegionDescription × DeviceAnswers)
  platform_initialized : startup.norFlashPlatformInitialization.isError = false
  header_read : startup.bootWithDefaultSettings = false →
    ∀ entry ∈ constructedFrom 0 devices, ∃ buffer reading, device reading = device state ∧
      let validation := (validateFvHeader headerConstants pcds lib
        (entry.device constants pcds).toNorFlashInstance (some buffer)).run reading
      (∀ call ∈ validation.calls, Succeeds call) ∧ entry.1.2.validateFvHeader = validation.value

section

variable {σ : Type} {lib : NorFlashLib σ} {device : σ → Nat → UInt8}
  {headerConstants : HeaderConstants} {pcds : FlashPcds} {state : σ}

def Restart.driver (restart : Restart lib device headerConstants pcds state) : NorFlashDriver :=
  (norFlashInitialise restart.constants pcds restart.startup restart.devices).2

def Restart.instanceFor (restart : Restart lib device headerConstants pcds state) (entry : Entry) :
    NorFlashInstance :=
  (entry.device restart.constants pcds).toNorFlashInstance

/-! ### The same region -/

theorem startLba_initializeRegion (nor : NorFlashInstance) :
    (norFlashFvbInitializeRegion pcds nor).startLba =
      pcds.variableBase / nor.media.blockSize.toUInt64 := by
  have hoffset : pcds.variableBase + nor.deviceBaseAddress - nor.deviceBaseAddress =
      pcds.variableBase := UInt64.add_sub_cancel _ _
  rw [norFlashFvbInitializeRegion, hoffset]

/-- Instances with blocks of one size find their headers at one place. -/
theorem headersStart_initializeRegion {nor other : NorFlashInstance}
    (hsize : nor.media.blockSize = other.media.blockSize) :
    headersStart (norFlashFvbInitializeRegion pcds nor) =
      headersStart (norFlashFvbInitializeRegion pcds other) := by
  rw [headersStart, headersStart, startLba_initializeRegion, startLba_initializeRegion, hsize]
  exact congrArg (fun size : UInt32 => _ * size.toNat + _) hsize

/-! ### What the header decides -/

variable {restart : Restart lib device headerConstants pcds state}

/-- What start-up publishes about an entry follows from the boot mode, from a check of the bytes on the
flash and from the event. -/
theorem Restart.publishes (hlib : lib.IsStore device) :
    List.Forall₂ (fun entry publication =>
        restart.driver.pool[publication.pointer]? =
            some (some (entry.device restart.constants pcds)) ∧
          ∃ memory, .firmwareVolumeBlock ∈ publication.protocols ↔
            (restart.startup.bootWithDefaultSettings = false ∧
              (checkFvHeader headerConstants pcds (overwrite memory 0 headersLength.toNat
                (headersAt (restart.instanceFor entry) (device state)))).isError = false) ∧
              entry.1.2.createFvbEvent.isError = false)
      (constructedFrom 0 restart.devices) restart.driver.published := by
  have hpublishes := (@published_entries restart.constants pcds restart.startup restart.devices
    restart.platform_initialized).1
  refine ((List.forall₂_and_left _ _).mpr ⟨fun _ => id, hpublishes⟩).imp ?_
  rintro entry publication ⟨hentry, hpublication⟩
  refine ⟨hpublication.pointer, ?_⟩
  rw [hpublication.firmwareVolume_iff, DeviceAnswers.HeaderValid]
  by_cases hboot : restart.startup.bootWithDefaultSettings = false
  · obtain ⟨buffer, reading, hreading, hcalls, hanswer⟩ :=
      restart.header_read hboot entry hentry
    refine ⟨(zeroed buffer headersLength).bytes, ?_⟩
    rw [hanswer, value_validateFvHeader_of_isStore hlib hcalls, hreading]
    rfl
  · -- no header is looked at, whatever the bytes are
    exact ⟨fun _ => 0, iff_of_false (fun hvolume => hboot hvolume.1.1)
      (fun hvolume => hboot hvolume.1.1)⟩

variable {nor : NorFlashInstance} {volume : Volume} {pool : Buffer} {entry : Entry}

theorem Restart.headersAt_instanceFor (restart : Restart lib device headerConstants pcds state)
    (hregion : volume.toNorFlashInstance = norFlashFvbInitializeRegion pcds nor)
    (hsize : entry.1.1.blockSize = volume.media.blockSize) (store : Nat → UInt8) :
    headersAt (restart.instanceFor entry) store = headersAt volume.toNorFlashInstance store := by
  have hstart : headersStart (restart.instanceFor entry) =
      headersStart volume.toNorFlashInstance := by
    rw [hregion] at hsize ⊢
    exact headersStart_initializeRegion hsize
  exact congrArg (fun start index => store (start + index)) hstart

theorem Restart.blocks_instanceFor (restart : Restart lib device headerConstants pcds state)
    (hregion : volume.toNorFlashInstance = norFlashFvbInitializeRegion pcds nor)
    (hsize : entry.1.1.blockSize = volume.media.blockSize) :
    (restart.instanceFor entry).blocks = volume.blocks := by
  rw [hregion] at hsize ⊢
  exact congrArg (fun size => (pcds.totalSize / size).toUInt64) hsize

/-- **A formatted volume is found again.** A volume has been formatted, and its clients have stayed
away from the headers. The header on the flash goes on describing every device of the same block size,
and a later start publishes such a device as a firmware volume just if it does not boot with default
settings and the event of the volume can be created. If the clients go on and leave the revision byte
erased, no later start publishes such a device as a firmware volume. -/
theorem formatted_volume_found_again (lib : NorFlashLib σ) (device : σ → Nat → UInt8)
    (constants : HeaderConstants) (pcds : FlashPcds) (nor : NorFlashInstance) (volume : Volume)
    (pool : Buffer) (requests : List FlashRequest) (state formatted : σ)
    (hlib : lib.IsStore device)
    (hregion : volume.toNorFlashInstance = norFlashFvbInitializeRegion pcds nor)
    (hattributes : constants.fvbAttributes = FvbAttributes.ofHeader)
    (hlayout : LayoutAccepted pcds volume.media.blockSize)
    (hformatted : formatted = ((initializeFvAndVariableStoreHeaders constants pcds lib
      volume.toNorFlashInstance pool).run state).state)
    (hformat : ∀ call ∈ ((initializeFvAndVariableStoreHeaders constants pcds lib
      volume.toNorFlashInstance pool).run state).calls, Succeeds call)
    (hrun : RunSucceeds lib volume requests formatted)
    (huntouched : ∀ edit ∈ flashEdits volume requests, ∀ index < headersLength.toNat,
      ¬ edit.Covers (headersStart volume.toNorFlashInstance + index)) :
    let left := flashAfter lib volume requests formatted
    (∀ restart : Restart lib device constants pcds left,
        List.Forall₂ (fun entry publication => entry.1.1.blockSize = volume.media.blockSize →
            restart.driver.pool[publication.pointer]? =
                some (some (entry.device restart.constants pcds)) ∧
              (.firmwareVolumeBlock ∈ publication.protocols ↔
                restart.startup.bootWithDefaultSettings = false ∧
                  entry.1.2.createFvbEvent.isError = false) ∧
              DescribesVolume (restart.instanceFor entry)
                (headersAt (restart.instanceFor entry) (device left)))
          (constructedFrom 0 restart.devices) restart.driver.published) ∧
      ∀ more, RunSucceeds lib volume more left → constants.fvhRevision ≠ 0xFF →
        latest (headersStart volume.toNorFlashInstance + FirmwareVolumeHeader.revision.offset)
          (flashEdits volume more) = some 0xFF →
        ∀ restart : Restart lib device constants pcds (flashAfter lib volume more left),
          List.Forall₂ (fun entry publication => entry.1.1.blockSize = volume.media.blockSize →
              .firmwareVolumeBlock ∉ publication.protocols)
            (constructedFrom 0 restart.devices) restart.driver.published := by
  intro left
  refine ⟨fun restart => ?_, fun more hmore hrevision herased restart => ?_⟩
  · refine (restart.publishes hlib).imp ?_
    rintro entry publication ⟨hpointer, memory, hvolume⟩ hsize
    rw [restart.headersAt_instanceFor hregion hsize] at hvolume ⊢
    have hcontents : ∀ index < headersLength.toNat,
        headersAt volume.toNorFlashInstance (device left) index =
          setHeaders constants pcds volume.toNorFlashInstance (zeroed pool headersLength).bytes
            index := fun index hindex =>
      headersAt_of_formatted hlib hlayout hformatted hformat hrun huntouched hindex
    rw [checkFvHeader_of_setHeaders hcontents] at hvolume
    refine ⟨hpointer, hvolume.trans ⟨?_, ?_⟩, describesVolume_of_setHeaders hregion
      (restart.blocks_instanceFor hregion hsize) hsize hattributes hcontents⟩
    · rintro ⟨⟨hboot, -⟩, hevent⟩
      exact ⟨hboot, hevent⟩
    · rintro ⟨hboot, hevent⟩
      exact ⟨⟨hboot, rfl⟩, hevent⟩
  · refine (restart.publishes hlib).imp ?_
    rintro entry publication ⟨-, memory, hvolume⟩ hsize hmem
    rw [restart.headersAt_instanceFor hregion hsize, checkFvHeader_of_erased_revision hrevision
      (headersAt_revision_of_erased hlib hmore herased)] at hvolume
    exact Bool.false_ne_true (hvolume.mp hmem).1.2.symm

end

/-! ### Restarting on the sample volume -/

/-- The sample device, with what is said of its header. -/
def sampleDevice (header : EfiStatus) : NorFlashRegionDescription × DeviceAnswers :=
  (sampleDescription,
    { uninstalledAnswers with validateFvHeader := header, installProtocols := .success })

/-- What formatting and a run behind the headers leave on the flash. -/
def sampleLeft : Nat → UInt8 :=
  flashAfter NorFlashLib.ideal sampleFormattedVolume requestsBehindHeaders formattedDevice

theorem checkFvHeader_sampleLeft (memory : Nat → UInt8) :
    checkFvHeader sampleConstants samplePcds (overwrite memory 0 headersLength.toNat
      (headersAt sampleFormattedVolume.toNorFlashInstance sampleLeft)) = .success :=
  checkFvHeader_of_setHeaders fun _ hindex =>
    headersAt_of_formatted NorFlashLib.ideal_isStore samplePcds_layoutAccepted rfl (by decide)
      (by decide) requestsBehindHeaders_untouched hindex

theorem checkFvHeader_sampleErased (memory : Nat → UInt8) :
    checkFvHeader sampleConstants samplePcds (overwrite memory 0 headersLength.toNat
      (headersAt sampleFormattedVolume.toNorFlashInstance
        (flashAfter NorFlashLib.ideal sampleFormattedVolume eraseHeaders sampleLeft))) =
      .notFound :=
  checkFvHeader_of_erased_revision (by decide)
    (@headersAt_revision_of_erased _ _ id sampleFormattedVolume sampleLeft eraseHeaders
      NorFlashLib.ideal_isStore (by decide) (by decide))

/-- A check of the bytes on the flash is what is said of the header of the sample device. -/
theorem header_read_sampleDevice {header : EfiStatus} {state : Nat → UInt8}
    (hcheck : ∀ memory, checkFvHeader sampleConstants samplePcds (overwrite memory 0
      headersLength.toNat (headersAt sampleFormattedVolume.toNorFlashInstance state)) = header) :
    ∀ entry ∈ constructedFrom 0 [sampleDevice header], ∃ buffer reading, reading = state ∧
      let validation := (validateFvHeader sampleConstants samplePcds NorFlashLib.ideal
        (entry.device sampleDriverConstants samplePcds).toNorFlashInstance (some buffer)).run reading
      (∀ call ∈ validation.calls, Succeeds call) ∧
        entry.1.2.validateFvHeader = validation.value := by
  intro entry hentry
  obtain rfl := List.mem_singleton.mp hentry
  refine ⟨sampleBuffer, _, rfl, List.forall_mem_singleton.mpr rfl, ?_⟩
  rw [value_validateFvHeader_of_isStore NorFlashLib.ideal_isStore
    (List.forall_mem_singleton.mpr rfl)]
  exact (hcheck _).symm

def sampleRestart : Restart NorFlashLib.ideal id sampleConstants samplePcds sampleLeft where
  constants := sampleDriverConstants
  startup := uneventfulStartup
  devices := [sampleDevice .success]
  platform_initialized := rfl
  header_read := fun _ => header_read_sampleDevice checkFvHeader_sampleLeft

def defaultsStartup : StartupAnswers := { uneventfulStartup with bootWithDefaultSettings := true }

theorem defaultsStartup_passes_over :
    ¬ defaultsStartup.bootWithDefaultSettings = false := by decide

/-- The same start when it boots with default settings. -/
def defaultsRestart : Restart NorFlashLib.ideal id sampleConstants samplePcds sampleLeft where
  constants := sampleDriverConstants
  startup := defaultsStartup
  devices := [sampleDevice .success]
  platform_initialized := rfl
  header_read := fun hboot => absurd hboot defaultsStartup_passes_over

def erasedRestart : Restart NorFlashLib.ideal id sampleConstants samplePcds
    (flashAfter NorFlashLib.ideal sampleFormattedVolume eraseHeaders sampleLeft) where
  constants := sampleDriverConstants
  startup := uneventfulStartup
  devices := [sampleDevice .notFound]
  platform_initialized := rfl
  header_read := fun _ => header_read_sampleDevice checkFvHeader_sampleErased

/-- The sample device is published as a firmware volume; booting with default settings, or after its
headers have been erased, it is published without one. -/
theorem formatted_volume_found_again_sample :
    (∃ publication, sampleRestart.driver.published = [publication] ∧
        sampleRestart.driver.pool[publication.pointer]? =
          some (some (Entry.device sampleDriverConstants samplePcds (sampleDevice .success, 0))) ∧
        .firmwareVolumeBlock ∈ publication.protocols ∧
        DescribesVolume (sampleRestart.instanceFor (sampleDevice .success, 0))
          (headersAt (sampleRestart.instanceFor (sampleDevice .success, 0)) sampleLeft)) ∧
      (∃ publication, defaultsRestart.driver.published = [publication] ∧
        .firmwareVolumeBlock ∉ publication.protocols) ∧
      ∃ publication, erasedRestart.driver.published = [publication] ∧
        .firmwareVolumeBlock ∉ publication.protocols := by
  obtain ⟨hfound, hlost⟩ := formatted_volume_found_again NorFlashLib.ideal id sampleConstants
    samplePcds (sampleInstance false) sampleFormattedVolume sampleBuffer requestsBehindHeaders
    (fun _ => 0xFF) formattedDevice NorFlashLib.ideal_isStore rfl rfl samplePcds_layoutAccepted rfl
    (by decide) (by decide) requestsBehindHeaders_untouched
  refine ⟨?_, ?_, ?_⟩
  · obtain ⟨publication, later, hpublication, hlater, hpublished⟩ :=
      List.forall₂_cons_left_iff.mp (hfound sampleRestart)
    obtain ⟨hpointer, hvolume, hdescribes⟩ := hpublication rfl
    rw [List.forall₂_nil_left_iff.mp hlater] at hpublished
    exact ⟨publication, hpublished, hpointer, hvolume.mpr ⟨rfl, rfl⟩, hdescribes⟩
  · obtain ⟨publication, later, hpublication, hlater, hpublished⟩ :=
      List.forall₂_cons_left_iff.mp (hfound defaultsRestart)
    obtain ⟨-, hvolume, -⟩ := hpublication rfl
    rw [List.forall₂_nil_left_iff.mp hlater] at hpublished
    refine ⟨publication, hpublished, fun hmem => ?_⟩
    exact defaultsStartup_passes_over (hvolume.mp hmem).1
  · obtain ⟨publication, later, hpublication, hlater, hpublished⟩ :=
      List.forall₂_cons_left_iff.mp
        (hlost eraseHeaders (by decide) (by decide) (by decide) erasedRestart)
    rw [List.forall₂_nil_left_iff.mp hlater] at hpublished
    exact ⟨publication, hpublished, hpublication rfl⟩

end OrionO6.Flash
