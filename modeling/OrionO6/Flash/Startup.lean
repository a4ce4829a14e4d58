import Mathlib.Data.List.Basic
import OrionO6.Flash.HeaderRoundTrip

/-!
# Starting the driver

`NorFlashInitialise` creates an instance for every entry of its device table, whatever happened to
the entries before. The services it calls may each fail, so their answers are part of the input: a
pool that could not be allocated is the null address. Assertions are those of a release build.
-/

namespace OrionO6.Flash

structure NorFlashRegionDescription where
  deviceBaseAddress : UInt64
  deviceSize : UInt32
  regionBaseAddress : UInt64
  regionSize : UInt32
  blockSize : UInt32

structure AccessInfo where
  baseAddress : UInt64
  dmaBaseAddress : UInt64
  size : UInt64
  remappedOffset : UInt64

/-- An instance with the fields that only its creation sets. -/
structure NorFlashDevice extends NorFlashInstance where
  size : UInt64
  lastBlock : UInt64
  devicePathGuid : BitVec 128
  devicePathIndex : UInt8
  accessInfo : AccessInfo

structure DriverConstants where
  norFlashInstanceTemplate : NorFlashDevice
  xspiFlashDirectMmioAddr : UInt64
  xspiFlashDmaMmioAddr : UInt64
  norFlashDevicePathGuid : BitVec 128
  /-- Where the media structure lies in an instance. -/
  mediaOffset : UInt64

/-- What the services answer while the instance of one device is created. -/
structure DeviceAnswers where
  instancePool : UInt64
  shadowPool : UInt64
  validateFvHeader : EfiStatus
  installVarStoreFormatted : EfiStatus
  createFvbEvent : EfiStatus
  installProtocols : EfiStatus

structure StartupAnswers where
  norFlashPlatformInitialization : EfiStatus
  /-- `GetBootModeHob` says `BOOT_WITH_DEFAULT_SETTINGS`. -/
  bootWithDefaultSettings : Bool
  createVirtualAddressEvent : EfiStatus

inductive FlashProtocol where
  | devicePath | blockIo | diskIo | firmwareVolumeBlock | xspiInfo
  deriving DecidableEq

structure Publication where
  pointer : Nat
  protocols : List FlashProtocol

/-- The driver's variables, the instances it has allocated, and what it has installed. Instances are
pointed to by the order of their allocation; a freed one is `none`, and so is an entry of
`mNorFlashInstances` that has not been written. -/
structure NorFlashDriver where
  pool : List (Option NorFlashDevice)
  norFlashDeviceCount : Nat
  norFlashInstances : List (Option Nat)
  varStoreFormatted : Bool
  published : List Publication

def NorFlashDriver.unloaded : NorFlashDriver where
  pool := []
  norFlashDeviceCount := 0
  norFlashInstances := []
  varStoreFormatted := false
  published := []

section

variable (constants : DriverConstants) (pcds : FlashPcds) (startup : StartupAnswers)

def initializeRegion (nor : NorFlashDevice) : NorFlashDevice :=
  { nor with toNorFlashInstance := norFlashFvbInitializeRegion pcds nor.toNorFlashInstance }

/-- The status, the instance, and whether `gEdkiiNvVarStoreFormattedGuid` has been installed, whose
status is lost to that of the event. -/
def norFlashFvbInitialize (answers : DeviceAnswers) (nor : NorFlashDevice) :
    EfiStatus × NorFlashDevice × Bool :=
  let nor := initializeRegion pcds nor
  let status :=
    if startup.bootWithDefaultSettings then .invalidParameter else answers.validateFvHeader
  if status.isError then
    (status, nor, false)
  else
    (answers.createFvbEvent, nor, !answers.installVarStoreFormatted.isError)

/-- The copy of the template, filled in. -/
def setUpInstance (description : NorFlashRegionDescription) (index : Nat) (instancePool : UInt64) :
    NorFlashDevice :=
  let nor := constants.norFlashInstanceTemplate
  { nor with
    deviceBaseAddress := description.deviceBaseAddress
    size := description.deviceSize.toUInt64
    blockIoProtocol.media := instancePool + constants.mediaOffset
    media := { nor.media with
      mediaId := UInt32.ofNat index
      blockSize := description.blockSize }
    lastBlock := description.deviceSize.toUInt64 / description.blockSize.toUInt64 - 1
    devicePathGuid := constants.norFlashDevicePathGuid
    devicePathIndex := UInt8.ofNat index
    accessInfo := {
      baseAddress := constants.xspiFlashDirectMmioAddr
      dmaBaseAddress := constants.xspiFlashDmaMmioAddr
      size := 0x4000000
      remappedOffset := 0 } }

def protocolsToInstall (status : EfiStatus) : List FlashProtocol :=
  if status.isError then [.devicePath, .blockIo, .diskIo, .xspiInfo]
  else [.devicePath, .blockIo, .diskIo, .firmwareVolumeBlock, .xspiInfo]

def norFlashCreateInstance (description : NorFlashRegionDescription) (index : Nat)
    (answers : DeviceAnswers) (driver : NorFlashDriver) : EfiStatus × NorFlashDriver :=
  if answers.instancePool = 0 then
    (.outOfResources, driver)
  else
    let nor := { setUpInstance constants description index answers.instancePool with
      shadowBuffer := answers.shadowPool }
    if answers.shadowPool = 0 then
      -- the instance stays allocated
      (.outOfResources, { driver with pool := driver.pool ++ [some nor] })
    else
      let (status, nor, formatted) := norFlashFvbInitialize pcds startup answers nor
      let driver := { driver with varStoreFormatted := driver.varStoreFormatted || formatted }
      if answers.installProtocols.isError then
        (answers.installProtocols, { driver with pool := driver.pool ++ [none] })
      else
        let pointer := driver.pool.length
        (answers.installProtocols, { driver with
          pool := driver.pool ++ [some nor]
          norFlashInstances := driver.norFlashInstances.set index (some pointer)
          published := driver.published ++ [⟨pointer, protocolsToInstall status⟩] })

/-- The loop of `NorFlashInitialise`, which goes on after a failure. -/
def createInstances : Nat → List (NorFlashRegionDescription × DeviceAnswers) → NorFlashDriver →
    NorFlashDriver
  | _, [], driver => driver
  | index, (description, answers) :: devices, driver =>
      createInstances (index + 1) devices
        (norFlashCreateInstance constants pcds startup description index answers driver).2

/-- The source does not check that the array of instances could be allocated. Here it could. -/
def norFlashInitialise (devices : List (NorFlashRegionDescription × DeviceAnswers)) :
    EfiStatus × NorFlashDriver :=
  if startup.norFlashPlatformInitialization.isError then
    (startup.norFlashPlatformInitialization, .unloaded)
  else
    let driver := { NorFlashDriver.unloaded with
      norFlashDeviceCount := devices.length
      norFlashInstances := List.replicate devices.length none }
    (startup.createVirtualAddressEvent,
      createInstances constants pcds startup 0 devices driver)

end

/-! ### One device -/

namespace DeviceAnswers

/-- Both pools were allocated and the protocols were installed. -/
def Constructs (answers : DeviceAnswers) : Prop :=
  answers.instancePool ≠ 0 ∧ answers.shadowPool ≠ 0 ∧ answers.installProtocols.isError = false

def HeaderValid (startup : StartupAnswers) (answers : DeviceAnswers) : Prop :=
  startup.bootWithDefaultSettings = false ∧ answers.validateFvHeader.isError = false

/-- `gEdkiiNvVarStoreFormattedGuid` is installed while this device is initialised. -/
def MarksFormatted (startup : StartupAnswers) (answers : DeviceAnswers) : Prop :=
  answers.instancePool ≠ 0 ∧ answers.shadowPool ≠ 0 ∧ answers.HeaderValid startup ∧
    answers.installVarStoreFormatted.isError = false

def PublishesFvb (startup : StartupAnswers) (answers : DeviceAnswers) : Prop :=
  answers.Constructs ∧ answers.HeaderValid startup ∧ answers.createFvbEvent.isError = false

end DeviceAnswers

section

variable {constants : DriverConstants} {pcds : FlashPcds} {startup : StartupAnswers}
  {description : NorFlashRegionDescription} {index : Nat} {answers : DeviceAnswers}
  {driver : NorFlashDriver}

/-- The instance of a device when nothing has failed. -/
def constructedInstance (constants : DriverConstants) (pcds : FlashPcds)
    (description : NorFlashRegionDescription) (index : Nat) (instancePool shadowPool : UInt64) :
    NorFlashDevice :=
  initializeRegion pcds { setUpInstance constants description index instancePool with
    shadowBuffer := shadowPool }

theorem headerValid_iff :
    (if startup.bootWithDefaultSettings then EfiStatus.invalidParameter
      else answers.validateFvHeader).isError = false ↔ answers.HeaderValid startup := by
  unfold DeviceAnswers.HeaderValid
  cases startup.bootWithDefaultSettings with
  | true => exact iff_of_false (by rw [if_pos rfl]; decide) (by simp)
  | false => simp

theorem norFlashFvbInitialize_spec {nor initialized : NorFlashDevice} {status : EfiStatus}
    {formatted : Bool}
    (hresult : norFlashFvbInitialize pcds startup answers nor = (status, initialized, formatted)) :
    initialized = initializeRegion pcds nor ∧
      (status.isError = false ↔
        answers.HeaderValid startup ∧ answers.createFvbEvent.isError = false) ∧
      (formatted = true ↔
        answers.HeaderValid startup ∧ answers.installVarStoreFormatted.isError = false) := by
  rw [← headerValid_iff]
  unfold norFlashFvbInitialize at hresult
  dsimp only at hresult
  generalize (if startup.bootWithDefaultSettings then EfiStatus.invalidParameter
    else answers.validateFvHeader) = headerStatus at hresult ⊢
  cases herror : headerStatus.isError with
  | true =>
      rw [if_pos herror] at hresult
      cases hresult
      simp [herror]
  | false =>
      rw [if_neg (by rw [herror]; exact Bool.false_ne_true)] at hresult
      cases hresult
      simp

theorem mem_protocolsToInstall_iff (status : EfiStatus) :
    .firmwareVolumeBlock ∈ protocolsToInstall status ↔ status.isError = false := by
  unfold protocolsToInstall
  cases status.isError <;> decide

def FvbPublished (driver : NorFlashDriver) : Prop :=
  ∃ publication ∈ driver.published, .firmwareVolumeBlock ∈ publication.protocols

/-- Everything that creating an instance can do to the driver. -/
structure Creates (constants : DriverConstants) (pcds : FlashPcds) (startup : StartupAnswers)
    (description : NorFlashRegionDescription) (index : Nat) (answers : DeviceAnswers)
    (driver driver' : NorFlashDriver) : Prop where
  pool_le : driver.pool <+: driver'.pool
  deviceCount_eq : driver'.norFlashDeviceCount = driver.norFlashDeviceCount
  of_constructs : answers.Constructs →
    driver'.norFlashInstances = driver.norFlashInstances.set index (some driver.pool.length) ∧
      driver'.pool[driver.pool.length]? =
        some (some (constructedInstance constants pcds description index answers.instancePool
          answers.shadowPool))
  of_not_constructs : ¬ answers.Constructs →
    driver'.norFlashInstances = driver.norFlashInstances
  varStoreFormatted_iff : driver'.varStoreFormatted = true ↔
    driver.varStoreFormatted = true ∨ answers.MarksFormatted startup
  fvbPublished_iff : FvbPublished driver' ↔ FvbPublished driver ∨ answers.PublishesFvb startup

/-- Without a constructed instance nothing is published and no entry is set. -/
theorem creates_of_not_constructs (hnot : ¬ answers.Constructs)
    (allocated : List (Option NorFlashDevice)) {formatted : Bool}
    (hformatted : formatted = true ↔ answers.MarksFormatted startup) :
    Creates constants pcds startup description index answers driver
      { driver with
        pool := driver.pool ++ allocated
        varStoreFormatted := driver.varStoreFormatted || formatted } where
  pool_le := List.prefix_append _ _
  deviceCount_eq := rfl
  of_constructs := fun hconstructs => absurd hconstructs hnot
  of_not_constructs := fun _ => rfl
  varStoreFormatted_iff := by rw [Bool.or_eq_true, hformatted]
  fvbPublished_iff := ⟨Or.inl, fun hpublished =>
    hpublished.resolve_right fun hpublishes => hnot hpublishes.1⟩

theorem creates_of_pools (hinstance : answers.instancePool ≠ 0) (hshadow : answers.shadowPool ≠ 0) :
    Creates constants pcds startup description index answers driver
      (norFlashCreateInstance constants pcds startup description index answers driver).2 := by
  rw [norFlashCreateInstance, if_neg hinstance]
  dsimp only
  rw [if_neg hshadow]
  rcases hresult : norFlashFvbInitialize pcds startup answers
      { setUpInstance constants description index answers.instancePool with
        shadowBuffer := answers.shadowPool } with ⟨status, nor, formatted⟩
  obtain ⟨rfl, hstatus, hformatted⟩ := norFlashFvbInitialize_spec hresult
  have hmarks : formatted = true ↔ answers.MarksFormatted startup := by
    rw [hformatted, DeviceAnswers.MarksFormatted]
    exact ⟨fun hboth => ⟨hinstance, hshadow, hboth⟩, fun hmarks => hmarks.2.2⟩
  dsimp only
  cases hinstall : answers.installProtocols.isError with
  | true =>
      rw [if_pos rfl]
      have hnot : ¬ answers.Constructs := by
        rintro ⟨-, -, hinstalled⟩
        rw [hinstall] at hinstalled
        cases hinstalled
      exact creates_of_not_constructs hnot _ hmarks
  | false =>
      rw [if_neg Bool.false_ne_true]
      have hconstructs : answers.Constructs := ⟨hinstance, hshadow, hinstall⟩
      exact {
        pool_le := List.prefix_append _ _
        deviceCount_eq := rfl
        of_constructs := fun _ => ⟨rfl, List.getElem?_concat_length⟩
        of_not_constructs := fun hnot => absurd hconstructs hnot
        varStoreFormatted_iff := by rw [Bool.or_eq_true, hmarks]
        fvbPublished_iff := by
          simp only [FvbPublished, List.mem_append, List.mem_singleton, or_and_right, exists_or,
            exists_eq_left, mem_protocolsToInstall_iff, hstatus, DeviceAnswers.PublishesFvb,
            hconstructs, true_and] }

theorem creates (constants : DriverConstants) (pcds : FlashPcds) (startup : StartupAnswers)
    (description : NorFlashRegionDescription) (index : Nat) (answers : DeviceAnswers)
    (driver : NorFlashDriver) :
    Creates constants pcds startup description index answers driver
      (norFlashCreateInstance constants pcds startup description index answers driver).2 := by
  by_cases hpools : answers.instancePool ≠ 0 ∧ answers.shadowPool ≠ 0
  · exact creates_of_pools hpools.1 hpools.2
  have hleft : ∃ allocated,
      (norFlashCreateInstance constants pcds startup description index answers driver).2 =
        { driver with pool := driver.pool ++ allocated } := by
    by_cases hinstance : answers.instancePool = 0
    · rw [norFlashCreateInstance, if_pos hinstance]
      exact ⟨[], by rw [List.append_nil]⟩
    · have hshadow : answers.shadowPool = 0 := by
        by_contra hshadow
        exact hpools ⟨hinstance, hshadow⟩
      rw [norFlashCreateInstance, if_neg hinstance]
      dsimp only
      rw [if_pos hshadow]
      exact ⟨_, rfl⟩
  obtain ⟨allocated, hdriver⟩ := hleft
  have hnot : ¬ answers.Constructs := fun hconstructs =>
    hpools ⟨hconstructs.1, hconstructs.2.1⟩
  have hunmarked : false = true ↔ answers.MarksFormatted startup :=
    iff_of_false Bool.false_ne_true fun hmarks => hpools ⟨hmarks.1, hmarks.2.1⟩
  have hcreates : Creates constants pcds startup description index answers driver
      { driver with
        pool := driver.pool ++ allocated
        varStoreFormatted := driver.varStoreFormatted || false } :=
    creates_of_not_constructs hnot allocated hunmarked
  rwa [Bool.or_false, ← hdriver] at hcreates

/-! ### All devices -/

/-- The entry of a device points to its instance, complete and not freed. -/
def EntryConstructed (constants : DriverConstants) (pcds : FlashPcds)
    (description : NorFlashRegionDescription) (index : Nat) (driver : NorFlashDriver) : Prop :=
  ∃ pointer instancePool shadowPool,
    driver.norFlashInstances[index]? = some (some pointer) ∧ instancePool ≠ 0 ∧ shadowPool ≠ 0 ∧
      driver.pool[pointer]? = some (some
        (constructedInstance constants pcds description index instancePool shadowPool))

theorem getElem?_of_append {α : Type} {list other : List α} (hle : list <+: other) {index : Nat}
    {value : α} (hvalue : list[index]? = some value) : other[index]? = some value := by
  obtain ⟨rest, rfl⟩ := hle
  obtain ⟨hindex, -⟩ := List.getElem?_eq_some_iff.mp hvalue
  rwa [List.getElem?_append_left hindex]

section

variable {devices : List (NorFlashRegionDescription × DeviceAnswers)}

theorem pool_createInstances :
    driver.pool <+: (createInstances constants pcds startup index devices driver).pool := by
  induction devices generalizing index driver with
  | nil => exact List.prefix_rfl
  | cons device devices ih =>
      obtain ⟨description, answers⟩ := device
      exact (creates constants pcds startup description index answers driver).pool_le.trans ih

theorem deviceCount_createInstances :
    (createInstances constants pcds startup index devices driver).norFlashDeviceCount =
      driver.norFlashDeviceCount := by
  induction devices generalizing index driver with
  | nil => rfl
  | cons device devices ih =>
      obtain ⟨description, answers⟩ := device
      rw [createInstances, ih]
      exact (creates constants pcds startup description index answers driver).deviceCount_eq

/-- Creating an instance writes its own entry at most. -/
theorem Creates.instances_eq_of_ne {driver' : NorFlashDriver} {other : Nat}
    (hcreates : Creates constants pcds startup description index answers driver driver')
    (hne : other ≠ index) :
    driver'.norFlashInstances[other]? = driver.norFlashInstances[other]? := by
  by_cases hconstructs : answers.Constructs
  · rw [(hcreates.of_constructs hconstructs).1, List.getElem?_set_ne hne.symm]
  · rw [hcreates.of_not_constructs hconstructs]

/-- The rounds of the loop leave the entries of earlier devices alone. -/
theorem instances_createInstances_of_lt {other : Nat} (hother : other < index) :
    (createInstances constants pcds startup index devices driver).norFlashInstances[other]? =
      driver.norFlashInstances[other]? := by
  induction devices generalizing index driver with
  | nil => rfl
  | cons device devices ih =>
      obtain ⟨description, answers⟩ := device
      have hcreates := creates constants pcds startup description index answers driver
      rw [createInstances, ih (Nat.lt_succ_of_lt hother),
        hcreates.instances_eq_of_ne (Nat.ne_of_lt hother)]

/-- The entry that a round may write, once the rounds after it are over too. -/
theorem entryConstructed_iff {driver' : NorFlashDriver}
    (hcreates : Creates constants pcds startup description index answers driver driver')
    (hnone : driver.norFlashInstances[index]? = some none) :
    EntryConstructed constants pcds description index
        (createInstances constants pcds startup (index + 1) devices driver') ↔
      answers.Constructs := by
  have hkept : (createInstances constants pcds startup (index + 1) devices
      driver').norFlashInstances[index]? = driver'.norFlashInstances[index]? :=
    instances_createInstances_of_lt (Nat.lt_succ_self index)
  constructor
  · rintro ⟨pointer, _, _, hpointer, -⟩
    by_contra hnot
    rw [hkept, hcreates.of_not_constructs hnot, hnone] at hpointer
    cases hpointer
  · intro hconstructs
    obtain ⟨hset, hpool⟩ := hcreates.of_constructs hconstructs
    obtain ⟨hindex, -⟩ := List.getElem?_eq_some_iff.mp hnone
    refine ⟨driver.pool.length, answers.instancePool, answers.shadowPool, ?_, hconstructs.1,
      hconstructs.2.1, getElem?_of_append pool_createInstances hpool⟩
    rw [hkept, hset, List.getElem?_set_self hindex]

theorem forall_device_cons_iff (property : NorFlashRegionDescription → Nat → Prop) :
    (∀ offset description' answers',
        ((description, answers) :: devices)[offset]? = some (description', answers') →
          property description' (index + offset)) ↔
      property description index ∧ ∀ offset description' answers',
        devices[offset]? = some (description', answers') →
          property description' (index + 1 + offset) := by
  have hshift (offset : Nat) : index + (offset + 1) = index + 1 + offset := by omega
  constructor
  · intro hall
    refine ⟨hall 0 description answers rfl, fun offset description' answers' hdevice => ?_⟩
    rw [← hshift]
    exact hall (offset + 1) description' answers' hdevice
  · rintro ⟨hfirst, hrest⟩ offset description' answers' hdevice
    cases offset with
    | zero =>
        cases hdevice
        exact hfirst
    | succ offset =>
        rw [hshift]
        exact hrest offset description' answers' hdevice

/-- **The entries after the loop.** Those not written before it are good exactly when every device
could be constructed. -/
theorem entries_createInstances_iff
    (hunwritten : ∀ other, index ≤ other → other < index + devices.length →
      driver.norFlashInstances[other]? = some none) :
    (∀ offset description answers, devices[offset]? = some (description, answers) →
        EntryConstructed constants pcds description (index + offset)
          (createInstances constants pcds startup index devices driver)) ↔
      ∀ device ∈ devices, device.2.Constructs := by
  induction devices generalizing index driver with
  | nil => simp
  | cons device devices ih =>
      obtain ⟨description, answers⟩ := device
      have hcreates := creates constants pcds startup description index answers driver
      have hnone : driver.norFlashInstances[index]? = some none :=
        hunwritten index (Nat.le_refl _) (by rw [List.length_cons]; omega)
      have hlater : ∀ other, index + 1 ≤ other → other < index + 1 + devices.length →
          (norFlashCreateInstance constants pcds startup description index answers
            driver).2.norFlashInstances[other]? = some none := by
        intro other hfrom hto
        rw [hcreates.instances_eq_of_ne (Nat.ne_of_gt hfrom)]
        exact hunwritten other (by omega) (by rw [List.length_cons]; omega)
      set final := createInstances constants pcds startup (index + 1) devices
        (norFlashCreateInstance constants pcds startup description index answers driver).2
      calc
        _ ↔ EntryConstructed constants pcds description index final ∧
              ∀ offset description' answers', devices[offset]? = some (description', answers') →
                EntryConstructed constants pcds description' (index + 1 + offset) final :=
            forall_device_cons_iff fun description place =>
              EntryConstructed constants pcds description place final
        _ ↔ answers.Constructs ∧ ∀ device ∈ devices, device.2.Constructs :=
            and_congr (entryConstructed_iff hcreates hnone) (ih hlater)
        _ ↔ _ := by rw [List.forall_mem_cons]

/-- What some device brings about, whichever it is, holds after the loop. -/
theorem createInstances_iff (holds : NorFlashDriver → Prop) (causes : DeviceAnswers → Prop)
    (hstep : ∀ description index answers driver,
      holds (norFlashCreateInstance constants pcds startup description index answers driver).2 ↔
        holds driver ∨ causes answers) :
    holds (createInstances constants pcds startup index devices driver) ↔
      holds driver ∨ ∃ device ∈ devices, causes device.2 := by
  induction devices generalizing index driver with
  | nil => simp [createInstances]
  | cons device devices ih =>
      obtain ⟨description, answers⟩ := device
      rw [createInstances, ih, hstep, or_assoc]
      simp only [List.mem_cons, or_and_right, exists_or, exists_eq_left]

theorem varStoreFormatted_createInstances_iff :
    (createInstances constants pcds startup index devices driver).varStoreFormatted = true ↔
      driver.varStoreFormatted = true ∨
        ∃ device ∈ devices, device.2.MarksFormatted startup := by
  apply createInstances_iff (fun driver => driver.varStoreFormatted = true)
    (fun answers => answers.MarksFormatted startup)
  intro description index answers driver
  exact (creates constants pcds startup description index answers driver).varStoreFormatted_iff

theorem fvbPublished_createInstances_iff :
    FvbPublished (createInstances constants pcds startup index devices driver) ↔
      FvbPublished driver ∨ ∃ device ∈ devices, device.2.PublishesFvb startup := by
  apply createInstances_iff FvbPublished (fun answers => answers.PublishesFvb startup)
  intro description index answers driver
  exact (creates constants pcds startup description index answers driver).fvbPublished_iff

end

end

/-- What start-up has to leave: every entry that `NorFlashVirtualNotifyEvent` dereferences is good,
and the variable store is announced only if it can be reached. -/
structure StartedConsistently (constants : DriverConstants) (pcds : FlashPcds)
    (descriptions : List NorFlashRegionDescription) (driver : NorFlashDriver) : Prop where
  entries : ∀ index < driver.norFlashDeviceCount, ∃ description,
    descriptions[index]? = some description ∧
      EntryConstructed constants pcds description index driver
  varStoreFormatted : driver.varStoreFormatted = true → FvbPublished driver

theorem forall_entry_iff {devices : List (NorFlashRegionDescription × DeviceAnswers)}
    {property : NorFlashRegionDescription → Nat → Prop} :
    (∀ index < devices.length, ∃ description,
        (devices.map Prod.fst)[index]? = some description ∧ property description index) ↔
      ∀ index description answers, devices[index]? = some (description, answers) →
        property description index := by
  simp only [List.getElem?_map]
  constructor
  · intro hall index description answers hdevice
    obtain ⟨hindex, -⟩ := List.getElem?_eq_some_iff.mp hdevice
    obtain ⟨_, hdescription, hproperty⟩ := hall index hindex
    rw [hdevice] at hdescription
    cases hdescription
    exact hproperty
  · intro hall index hindex
    have hdevice : devices[index]? = some devices[index] := List.getElem?_eq_getElem hindex
    exact ⟨devices[index].1, by rw [hdevice]; rfl, hall index _ devices[index].2 hdevice⟩

/-- **When start-up is consistent.** The platform could not be initialised and nothing has happened,
or every instance could be constructed and an announced variable store has its protocol. -/
theorem startedConsistently_iff (constants : DriverConstants) (pcds : FlashPcds)
    (startup : StartupAnswers) (devices : List (NorFlashRegionDescription × DeviceAnswers)) :
    StartedConsistently constants pcds (devices.map Prod.fst)
        (norFlashInitialise constants pcds startup devices).2 ↔
      startup.norFlashPlatformInitialization.isError = true ∨
        (∀ device ∈ devices, device.2.Constructs) ∧
          ((∃ device ∈ devices, device.2.MarksFormatted startup) →
            ∃ device ∈ devices, device.2.PublishesFvb startup) := by
  by_cases hplatform : startup.norFlashPlatformInitialization.isError = true
  · rw [norFlashInitialise, if_pos hplatform]
    refine iff_of_true ⟨fun index hindex => ?_, fun hformatted => ?_⟩ (Or.inl hplatform)
    · exact absurd hindex (Nat.not_lt_zero index)
    · cases hformatted
  rw [norFlashInitialise, if_neg hplatform, or_iff_right hplatform]
  dsimp only
  set initial : NorFlashDriver := { NorFlashDriver.unloaded with
    norFlashDeviceCount := devices.length
    norFlashInstances := List.replicate devices.length none }
  set driver := createInstances constants pcds startup 0 devices initial
  have hcount : driver.norFlashDeviceCount = devices.length := deviceCount_createInstances
  have hunwritten : ∀ other, 0 ≤ other → other < 0 + devices.length →
      initial.norFlashInstances[other]? = some none := by
    intro other _ hother
    rw [Nat.zero_add] at hother
    exact List.getElem?_replicate_of_lt hother
  have hentries : (∀ index < driver.norFlashDeviceCount, ∃ description,
      (devices.map Prod.fst)[index]? = some description ∧
        EntryConstructed constants pcds description index driver) ↔
      ∀ device ∈ devices, device.2.Constructs := by
    have hwritten : (∀ offset description answers, devices[offset]? = some (description, answers) →
        EntryConstructed constants pcds description (0 + offset) driver) ↔
          ∀ device ∈ devices, device.2.Constructs := entries_createInstances_iff hunwritten
    simp only [Nat.zero_add] at hwritten
    rw [hcount, forall_entry_iff]
    exact hwritten
  have hformatted : driver.varStoreFormatted = true ↔
      ∃ device ∈ devices, device.2.MarksFormatted startup :=
    varStoreFormatted_createInstances_iff.trans (or_iff_right Bool.false_ne_true)
  have hpublished : FvbPublished driver ↔ ∃ device ∈ devices, device.2.PublishesFvb startup := by
    refine fvbPublished_createInstances_iff.trans (or_iff_right ?_)
    rintro ⟨publication, hmem, -⟩
    exact List.not_mem_nil hmem
  rw [← hentries, ← hformatted, ← hpublished]
  exact ⟨fun hstarted => ⟨hstarted.entries, hstarted.varStoreFormatted⟩,
    fun hparts => ⟨hparts.1, hparts.2⟩⟩

/-! ### Protocols that cannot be installed -/

def sampleDriverConstants : DriverConstants where
  norFlashInstanceTemplate := { sampleInstance false with
    shadowBuffer := 0
    regionBaseAddress := 0x10000000
    blocks := 0
    startLba := 0
    size := 0x1000000
    lastBlock := 0xFFF
    devicePathGuid := 0
    devicePathIndex := 0
    accessInfo := {
      baseAddress := 0x10000000, dmaBaseAddress := 0x20000000, size := 0x4000000
      remappedOffset := 0 } }
  xspiFlashDirectMmioAddr := 0x10000000
  xspiFlashDmaMmioAddr := 0x20000000
  norFlashDevicePathGuid := 1
  mediaOffset := 0x30

def sampleDescription : NorFlashRegionDescription where
  deviceBaseAddress := 0x10000000
  deviceSize := 0x800000
  regionBaseAddress := 0x700000
  regionSize := 0x60000
  blockSize := 0x1000

def uneventfulStartup : StartupAnswers where
  norFlashPlatformInitialization := .success
  bootWithDefaultSettings := false
  createVirtualAddressEvent := .success

/-- The header is valid and all goes well up to the last step. -/
def uninstalledAnswers : DeviceAnswers where
  instancePool := 0x8000
  shadowPool := 0x9000
  validateFvHeader := .success
  installVarStoreFormatted := .success
  createFvbEvent := .success
  installProtocols := .outOfResources

theorem uninstalledAnswers_inconsistent :
    (norFlashInitialise sampleDriverConstants samplePcds uneventfulStartup
        [(sampleDescription, uninstalledAnswers)]).2 =
      { pool := [none]
        norFlashDeviceCount := 1
        norFlashInstances := [none]
        varStoreFormatted := true
        published := [] } ∧
    ¬ StartedConsistently sampleDriverConstants samplePcds [sampleDescription]
      (norFlashInitialise sampleDriverConstants samplePcds uneventfulStartup
        [(sampleDescription, uninstalledAnswers)]).2 := by
  have hdriver : (norFlashInitialise sampleDriverConstants samplePcds uneventfulStartup
      [(sampleDescription, uninstalledAnswers)]).2 =
        { pool := [none]
          norFlashDeviceCount := 1
          norFlashInstances := [none]
          varStoreFormatted := true
          published := [] } := rfl
  refine ⟨hdriver, fun hconsistent => ?_⟩
  rw [hdriver] at hconsistent
  obtain ⟨publication, hmem, -⟩ := hconsistent.varStoreFormatted rfl
  exact List.not_mem_nil hmem

end OrionO6.Flash
