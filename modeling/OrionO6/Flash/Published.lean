import OrionO6.Flash.SharedStore
import OrionO6.Flash.Startup

/-!
# What start-up publishes

Clients reach an instance through what start-up has published for it. There is one publication for
every device that could be constructed, in the order of the device table, and whatever failed for the
others; each points to an instance of its own, which is one of the volumes that serve requests.
-/

namespace OrionO6.Flash

open Store

instance (answers : DeviceAnswers) : Decidable answers.Constructs :=
  inferInstanceAs (Decidable (_ ∧ _ ∧ _))

/-- An entry of the device table, with the answers it meets, and its place in the table. -/
abbrev Entry := (NorFlashRegionDescription × DeviceAnswers) × Nat

def constructedFrom (index : Nat) (devices : List (NorFlashRegionDescription × DeviceAnswers)) :
    List Entry :=
  (devices.zipIdx index).filter fun entry => entry.1.2.Constructs

theorem constructedFrom_cons (index : Nat) (description : NorFlashRegionDescription)
    (answers : DeviceAnswers) (devices : List (NorFlashRegionDescription × DeviceAnswers)) :
    constructedFrom index ((description, answers) :: devices) =
      if answers.Constructs then
        ((description, answers), index) :: constructedFrom (index + 1) devices
      else constructedFrom (index + 1) devices := by
  rw [constructedFrom, List.zipIdx_cons, List.filter_cons, constructedFrom]
  simp only [decide_eq_true_eq]

section

variable {constants : DriverConstants} {pcds : FlashPcds} {startup : StartupAnswers}

/-! ### One device -/

def Entry.device (constants : DriverConstants) (pcds : FlashPcds) (entry : Entry) :
    NorFlashDevice :=
  constructedInstance constants pcds entry.1.1 entry.2 entry.1.2.instancePool entry.1.2.shadowPool

/-- A publication stands for an entry: it points to the live instance of the entry and has the
protocols of a block device, and that of a firmware volume just if there is one. -/
structure Publishes (constants : DriverConstants) (pcds : FlashPcds) (startup : StartupAnswers)
    (pool : List (Option NorFlashDevice)) (entry : Entry) (publication : Publication) : Prop where
  pointer : pool[publication.pointer]? = some (some (entry.device constants pcds))
  blockDevice : [.devicePath, .blockIo, .diskIo, .xspiInfo] ⊆ publication.protocols
  firmwareVolume_iff : .firmwareVolumeBlock ∈ publication.protocols ↔
    entry.1.2.HeaderValid startup ∧ entry.1.2.createFvbEvent.isError = false

theorem subset_protocolsToInstall (status : EfiStatus) :
    [.devicePath, .blockIo, .diskIo, .xspiInfo] ⊆ protocolsToInstall status := by
  unfold protocolsToInstall
  cases status.isError <;> decide

variable {description : NorFlashRegionDescription} {index : Nat} {answers : DeviceAnswers}
  {driver : NorFlashDriver}

/-- A device that cannot be constructed is not published. -/
theorem published_of_not_constructs (hnot : ¬ answers.Constructs) :
    (norFlashCreateInstance constants pcds startup description index answers driver).2.published =
      driver.published := by
  unfold norFlashCreateInstance
  by_cases hinstance : answers.instancePool = 0
  · rw [if_pos hinstance]
  rw [if_neg hinstance]
  dsimp only
  by_cases hshadow : answers.shadowPool = 0
  · rw [if_pos hshadow]
  rw [if_neg hshadow]
  have hinstall : answers.installProtocols.isError = true := by
    by_contra hinstall
    exact hnot ⟨hinstance, hshadow, Bool.eq_false_iff.mpr hinstall⟩
  rw [if_pos hinstall]

theorem published_of_constructs (hconstructs : answers.Constructs) : ∃ publication,
    (norFlashCreateInstance constants pcds startup description index answers driver).2 =
        { driver with
          pool := driver.pool ++ [some (constructedInstance constants pcds description index
            answers.instancePool answers.shadowPool)]
          norFlashInstances := driver.norFlashInstances.set index (some driver.pool.length)
          varStoreFormatted := (norFlashCreateInstance constants pcds startup description index
            answers driver).2.varStoreFormatted
          published := driver.published ++ [publication] } ∧
      publication.pointer = driver.pool.length ∧
      [.devicePath, .blockIo, .diskIo, .xspiInfo] ⊆ publication.protocols ∧
      (.firmwareVolumeBlock ∈ publication.protocols ↔
        answers.HeaderValid startup ∧ answers.createFvbEvent.isError = false) := by
  obtain ⟨hinstance, hshadow, hinstall⟩ := hconstructs
  unfold norFlashCreateInstance
  rw [if_neg hinstance]
  dsimp only
  rw [if_neg hshadow]
  rcases hresult : norFlashFvbInitialize pcds startup answers
      { setUpInstance constants description index answers.instancePool with
        shadowBuffer := answers.shadowPool } with ⟨status, nor, formatted⟩
  obtain ⟨rfl, hstatus, -⟩ := norFlashFvbInitialize_spec hresult
  dsimp only
  rw [if_neg (by rw [hinstall]; exact Bool.false_ne_true)]
  exact ⟨_, rfl, rfl, subset_protocolsToInstall status,
    (mem_protocolsToInstall_iff status).trans hstatus⟩

/-! ### The whole table -/

theorem Publishes.of_prefix {pool pool' : List (Option NorFlashDevice)} (hle : pool <+: pool')
    {entry : Entry} {publication : Publication}
    (hpublishes : Publishes constants pcds startup pool entry publication) :
    Publishes constants pcds startup pool' entry publication where
  pointer := getElem?_of_append hle hpublishes.pointer
  blockDevice := hpublishes.blockDevice
  firmwareVolume_iff := hpublishes.firmwareVolume_iff

/-- The publications of some entries in order, each pointing behind the one before, and all of them
to instances from `bound` on. -/
structure PublishesAll (constants : DriverConstants) (pcds : FlashPcds) (startup : StartupAnswers)
    (pool : List (Option NorFlashDevice)) (bound : Nat) (entries : List Entry)
    (published : List Publication) : Prop where
  each : List.Forall₂ (Publishes constants pcds startup pool) entries published
  ordered : (published.map Publication.pointer).Pairwise (· < ·)
  bounded : ∀ publication ∈ published, bound ≤ publication.pointer

section

variable {pool : List (Option NorFlashDevice)} {bound bound' : Nat} {entry : Entry}
  {entries : List Entry} {publication : Publication} {published : List Publication}

theorem PublishesAll.nil : PublishesAll constants pcds startup pool bound [] [] where
  each := .nil
  ordered := .nil
  bounded := List.forall_mem_nil _

theorem PublishesAll.of_le (hle : bound ≤ bound')
    (hall : PublishesAll constants pcds startup pool bound' entries published) :
    PublishesAll constants pcds startup pool bound entries published where
  each := hall.each
  ordered := hall.ordered
  bounded := fun publication hmem => Nat.le_trans hle (hall.bounded publication hmem)

theorem PublishesAll.cons (hpublishes : Publishes constants pcds startup pool entry publication)
    (hall : PublishesAll constants pcds startup pool (publication.pointer + 1) entries published) :
    PublishesAll constants pcds startup pool publication.pointer (entry :: entries)
      (publication :: published) where
  each := .cons hpublishes hall.each
  ordered := by
    refine List.pairwise_cons.mpr ⟨?_, hall.ordered⟩
    intro pointer hmem
    obtain ⟨other, hother, rfl⟩ := List.mem_map.mp hmem
    exact hall.bounded other hother
  bounded := by
    refine List.forall_mem_cons.mpr ⟨Nat.le_refl _, ?_⟩
    intro other hother
    exact Nat.le_of_succ_le (hall.bounded other hother)

end

theorem exists_published_createInstances
    (devices : List (NorFlashRegionDescription × DeviceAnswers)) (index : Nat)
    (driver : NorFlashDriver) : ∃ published,
      (createInstances constants pcds startup index devices driver).published =
          driver.published ++ published ∧
        PublishesAll constants pcds startup
          (createInstances constants pcds startup index devices driver).pool driver.pool.length
          (constructedFrom index devices) published := by
  induction devices generalizing index driver with
  | nil => exact ⟨[], (List.append_nil _).symm, .nil⟩
  | cons device devices ih =>
      obtain ⟨description, answers⟩ := device
      obtain ⟨published, hpublished, hall⟩ := ih (index + 1)
        (norFlashCreateInstance constants pcds startup description index answers driver).2
      rw [createInstances, hpublished, constructedFrom_cons]
      by_cases hconstructs : answers.Constructs
      · obtain ⟨publication, hstep, hpointer, hblock, hvolume⟩ := @published_of_constructs constants
          pcds startup description index answers driver hconstructs
        have hpool := congrArg NorFlashDriver.pool hstep
        have hnew := congrArg NorFlashDriver.published hstep
        dsimp only at hpool hnew
        have hinstance : Publishes constants pcds startup (norFlashCreateInstance constants pcds
            startup description index answers driver).2.pool ((description, answers), index)
              publication := by
          refine ⟨?_, hblock, hvolume⟩
          rw [hpool, hpointer, List.getElem?_concat_length]
          rfl
        rw [if_pos hconstructs, hnew, List.append_assoc, ← hpointer]
        refine ⟨publication :: published, rfl, .cons (hinstance.of_prefix pool_createInstances) ?_⟩
        apply hall.of_le
        rw [hpool, hpointer, List.length_append, List.length_singleton]
      · rw [if_neg hconstructs, published_of_not_constructs hconstructs]
        have hle : driver.pool.length ≤ _ :=
          (creates constants pcds startup description index answers driver).pool_le.length_le
        exact ⟨published, rfl, hall.of_le hle⟩

/-! ### Volumes -/

/-- An instance in a pool that ends within the address space is a volume. -/
theorem exists_volume {entry : Entry} (hpool : entry.1.2.instancePool ≠ 0)
    (hfits : entry.1.2.instancePool.toNat + constants.mediaOffset.toNat < 2 ^ 64)
    (hsize : 2 ≤ entry.1.1.blockSize.toNat) : ∃ volume : Volume,
      volume.toNorFlashInstance = (entry.device constants pcds).toNorFlashInstance := by
  have hmedia : (entry.device constants pcds).blockIoProtocol.media ≠ 0 := by
    intro hzero
    have hsum : (entry.1.2.instancePool + constants.mediaOffset).toNat = 0 :=
      congrArg UInt64.toNat hzero
    rw [UInt64.toNat_add, Nat.mod_eq_of_lt hfits] at hsum
    apply hpool
    apply UInt64.toNat_inj.mp
    exact Nat.eq_zero_of_add_eq_zero_right hsum
  let fvb := FvbInstance.ofPcds pcds { setUpInstance constants entry.1.1 entry.2
    entry.1.2.instancePool with shadowBuffer := entry.1.2.shadowPool }.toNorFlashInstance hsize
  exact ⟨{ fvb with media_ne_null := hmedia }, rfl⟩

theorem published_entries {devices : List (NorFlashRegionDescription × DeviceAnswers)}
    (hplatform : startup.norFlashPlatformInitialization.isError = false) :
    let driver := (norFlashInitialise constants pcds startup devices).2
    List.Forall₂ (Publishes constants pcds startup driver.pool) (constructedFrom 0 devices)
        driver.published ∧
      (driver.published.map Publication.pointer).Pairwise (· < ·) := by
  intro driver
  have hdriver : driver = createInstances constants pcds startup 0 devices
      { NorFlashDriver.unloaded with
        norFlashDeviceCount := devices.length
        norFlashInstances := List.replicate devices.length none } := by
    simp only [driver, norFlashInitialise, hplatform, Bool.false_eq_true, if_false]
  obtain ⟨published, hpublished, hall⟩ :=
    @exists_published_createInstances constants pcds startup devices 0
      { NorFlashDriver.unloaded with
        norFlashDeviceCount := devices.length
        norFlashInstances := List.replicate devices.length none }
  rw [← hdriver] at hpublished hall
  obtain rfl : driver.published = published := hpublished
  exact ⟨hall.each, hall.ordered⟩

/-- **What start-up publishes are volumes.** Whatever fails during start-up, the devices that could be
constructed are published in order, each with a live instance that no other publication points to;
and runs of requests to this instance are those of one store. -/
theorem published_volumes (constants : DriverConstants) (pcds : FlashPcds) (startup : StartupAnswers)
    (devices : List (NorFlashRegionDescription × DeviceAnswers))
    (hplatform : startup.norFlashPlatformInitialization.isError = false)
    (hsizes : ∀ device ∈ devices, 2 ≤ device.1.blockSize.toNat)
    (hpools : ∀ device ∈ devices,
      device.2.instancePool.toNat + constants.mediaOffset.toNat < 2 ^ 64) :
    let driver := (norFlashInitialise constants pcds startup devices).2
    List.Forall₂ (Publishes constants pcds startup driver.pool) (constructedFrom 0 devices)
        driver.published ∧
      (driver.published.map Publication.pointer).Pairwise (· < ·) ∧
      ∀ entry ∈ constructedFrom 0 devices, ∃ volume : Volume,
        volume.toNorFlashInstance = (entry.device constants pcds).toNorFlashInstance ∧
        ∀ {σ : Type} (lib : NorFlashLib σ) (device : σ → Nat → UInt8) (state : σ)
          (requests : List FlashRequest), lib.IsStore device →
            RunSucceeds lib volume requests state →
              device (flashAfter lib volume requests state) =
                applyAll (flashEdits volume requests) (device state) := by
  intro driver
  obtain ⟨hall, hordered⟩ := @published_entries constants pcds startup devices hplatform
  refine ⟨hall, hordered, fun entry hentry => ?_⟩
  obtain ⟨hmem, hconstructs⟩ := List.mem_filter.mp hentry
  have hdevice := List.fst_mem_of_mem_zipIdx hmem
  obtain ⟨volume, hvolume⟩ := @exists_volume constants pcds entry (of_decide_eq_true hconstructs).1
    (hpools _ hdevice) (hsizes _ hdevice)
  exact ⟨volume, hvolume, fun lib device state requests hlib hsuccess =>
    device_flashAfter hlib hsuccess⟩

end

/-- A device table whose second entry cannot have its protocols installed. -/
def sampleTable : List (NorFlashRegionDescription × DeviceAnswers) := [
  (sampleDescription, { uninstalledAnswers with installProtocols := .success }),
  (sampleDescription, uninstalledAnswers)]

/-- The device that fails leaves the publication of the one before alone. -/
theorem published_volumes_sample :
    let driver :=
      (norFlashInitialise sampleDriverConstants samplePcds uneventfulStartup sampleTable).2
    List.Forall₂ (Publishes sampleDriverConstants samplePcds uneventfulStartup driver.pool)
        (constructedFrom 0 sampleTable) driver.published ∧
      (driver.published.map Publication.pointer).Pairwise (· < ·) ∧
      ∀ entry ∈ constructedFrom 0 sampleTable, ∃ volume : Volume,
        volume.toNorFlashInstance =
            (entry.device sampleDriverConstants samplePcds).toNorFlashInstance ∧
          ∀ {σ : Type} (lib : NorFlashLib σ) (device : σ → Nat → UInt8) (state : σ)
            (requests : List FlashRequest), lib.IsStore device →
              RunSucceeds lib volume requests state →
                device (flashAfter lib volume requests state) =
                  applyAll (flashEdits volume requests) (device state) :=
  published_volumes sampleDriverConstants samplePcds uneventfulStartup sampleTable rfl (by decide)
    (by decide)

end OrionO6.Flash
