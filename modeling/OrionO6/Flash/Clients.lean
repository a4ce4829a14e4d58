import OrionO6.Flash.SharedStore

/-!
# Clients of the flash

What the users of the three protocols can rely on when they share a device: what one of them writes,
another one reads at the same bytes until they are written again; a client that keeps to its own
bytes does not notice the others; and a volume can be written block by block in any order.
-/

namespace OrionO6.Flash

open Store

section

variable {σ : Type} {lib : NorFlashLib σ} {device : σ → Nat → UInt8} {volume : Volume}

theorem runSucceeds_append_iff {first second : List FlashRequest} {state : σ} :
    RunSucceeds lib volume (first ++ second) state ↔
      RunSucceeds lib volume first state ∧
        RunSucceeds lib volume second (flashAfter lib volume first state) := by
  rw [RunSucceeds, flashSteps, Traced.steps_append, List.forall_mem_append]
  rfl

/-- A request after a run is answered from what the run has left on the device. -/
theorem value_serve_after (hlib : lib.IsStore device) {requests : List FlashRequest}
    {request : FlashRequest} {state : σ}
    (hsuccess : RunSucceeds lib volume (requests ++ [request]) state) :
    ((request.serve lib volume.toPublishedInstance).run
        (flashAfter lib volume requests state)).value =
      (request.plan volume.toPublishedInstance).answer request.buffer?
        (applyAll (flashEdits volume requests) (device state)) := by
  obtain ⟨hbefore, hrequest⟩ := runSucceeds_append_iff.mp hsuccess
  rw [← device_flashAfter hlib hbefore]
  exact (comesTo_serve hlib request _ (hrequest _ List.mem_cons_self)).1

/-! ### Reading what was written -/

/-- What an accepted read puts into its buffer. -/
theorem bytes_fill_fetched {op : Op UInt8} {window : Window} (hop : op = .fetch window)
    (buffer : Buffer) (store : Nat → UInt8) {address : Nat} (hcovers : window.Covers address) :
    (buffer.fill (op.fetched store)).bytes (address - window.start) = store address := by
  have hindex : address - window.start < window.length := by
    have hcovered := hcovers
    unfold Window.Covers at hcovered
    omega
  calc (buffer.fill (op.fetched store)).bytes (address - window.start)
    _ = Memory.overwrite buffer.bytes 0 window.length (fun index => store (window.start + index))
          (address - window.start) := by rw [hop, Buffer.fill_fetched]
    _ = store (window.start + (address - window.start)) := Memory.overwrite_front _ _ hindex
    _ = store address := by rw [Nat.add_sub_cancel' hcovers.1]

/-- **What is written is read.** Whichever protocols the write and the read go through, and whatever
happens before and in between, a byte that is not written again is read as it was written. -/
theorem read_after_write (lib : NorFlashLib σ) (device : σ → Nat → UInt8) (volume : Volume)
    (before later : List FlashRequest) (write read : FlashRequest) (state : σ) (address : Nat)
    (byte : UInt8) (window : Window) (buffer : Buffer) (hlib : lib.IsStore device)
    (hwrite : latest address (write.plan volume.toPublishedInstance).op.edits = some byte)
    (hlater : ∀ edit ∈ flashEdits volume later, ¬ edit.Covers address)
    (hread : (read.plan volume.toPublishedInstance).op = .fetch window)
    (hbuffer : read.buffer? = some buffer) (hcovers : window.Covers address)
    (hsuccess : RunSucceeds lib volume (before ++ write :: later ++ [read]) state) :
    ∃ filled, ((read.serve lib volume.toPublishedInstance).run
        (flashAfter lib volume (before ++ write :: later) state)).value.buffer = some filled ∧
      filled.bytes (address - window.start) = byte := by
  rw [value_serve_after hlib hsuccess, hbuffer]
  refine ⟨_, rfl, ?_⟩
  rw [bytes_fill_fetched hread buffer _ hcovers, flashEdits_append, flashEdits_cons,
    applyAll_append, applyAll_append, applyAll_of_not_covers hlater, applyAll_eq_latest, hwrite]
  rfl

/-! ### Clients that keep to their own bytes -/

/-- A request together with the client that makes it. -/
abbrev Shared (κ : Type) := κ × FlashRequest

def Shared.serve {κ : Type} (lib : NorFlashLib σ) (volume : Volume) (entry : Shared κ) :
    Driver σ FlashAnswer :=
  entry.2.serve lib volume.toPublishedInstance

def SharedSucceeds {κ : Type} (lib : NorFlashLib σ) (volume : Volume) (entries : List (Shared κ))
    (state : σ) : Prop :=
  ∀ step ∈ Traced.steps (Shared.serve lib volume) entries state, ∀ call ∈ step.calls, Succeeds call

instance {κ : Type} (lib : NorFlashLib σ) (volume : Volume) (entries : List (Shared κ)) (state : σ) :
    Decidable (SharedSucceeds lib volume entries state) :=
  inferInstanceAs (Decidable (∀ step ∈ Traced.steps (Shared.serve lib volume) entries state,
    ∀ call ∈ step.calls, Succeeds call))

def sharedStore (κ : Type) (volume : Volume) : Machine (Shared κ) (Nat → UInt8) FlashAnswer where
  answer entry store := (flashStore volume.toPublishedInstance).answer entry.2 store
  next entry store := (flashStore volume.toPublishedInstance).next entry.2 store

theorem run_refines_sharedStore {κ : Type} (hlib : lib.IsStore device) {entries : List (Shared κ)}
    {state : σ} (hsuccess : SharedSucceeds lib volume entries state) :
    (Traced.steps (Shared.serve lib volume) entries state).map
          (fun step => (step.request, step.value)) =
        (sharedStore κ volume).answers entries (device state) ∧
      device (Traced.after (Shared.serve lib volume) entries state) =
        (sharedStore κ volume).after entries (device state) :=
  Traced.run_refines (fun entry state => comesTo_serve hlib entry.2 state) hsuccess

/-- The requests of a run with their answers. -/
def answered {κ : Type} (lib : NorFlashLib σ) (volume : Volume) (entries : List (Shared κ))
    (state : σ) : List (Shared κ × FlashAnswer) :=
  (Traced.steps (Shared.serve lib volume) entries state).map fun step => (step.request, step.value)

/-- Stores that agree where a client reads answer it alike and go on agreeing. -/
theorem sharedStore_congr {κ : Type} {area : Set Nat} {entry : Shared κ}
    (hfetches : (entry.2.plan volume.toPublishedInstance).op.FetchesIn area)
    {store other : Nat → UInt8} (hagree : Set.EqOn store other area) :
    (sharedStore κ volume).answer entry store = (sharedStore κ volume).answer entry other ∧
      Set.EqOn ((sharedStore κ volume).next entry store) ((sharedStore κ volume).next entry other)
        area := by
  constructor
  · dsimp only [sharedStore, flashStore, Plan.answer]
    rw [Op.fetched_congr hfetches hagree]
  · exact Op.apply_congr _ hagree

/-- **Clients do not notice each other.** If a client reads in an area only, and no other client
writes there, it is answered in a shared run, whatever the order of the requests, as in the run of
its own requests alone. -/
theorem client_served_as_alone {κ : Type} [DecidableEq κ] (lib : NorFlashLib σ)
    (device : σ → Nat → UInt8) (volume : Volume) (client : κ) (area : Set Nat)
    (entries : List (Shared κ)) (state alone : σ) (hlib : lib.IsStore device)
    (hown : ∀ entry ∈ entries, entry.1 = client →
      (entry.2.plan volume.toPublishedInstance).op.FetchesIn area)
    (hothers : ∀ entry ∈ entries, entry.1 ≠ client →
      (entry.2.plan volume.toPublishedInstance).op.EditsOutside area)
    (hagree : Set.EqOn (device state) (device alone) area)
    (hshared : SharedSucceeds lib volume entries state)
    (halone : SharedSucceeds lib volume (entries.filter fun entry => entry.1 = client) alone) :
    (answered lib volume entries state).filter (fun entry => entry.1.1 = client) =
        answered lib volume (entries.filter fun entry => entry.1 = client) alone ∧
      Set.EqOn (device (Traced.after (Shared.serve lib volume) entries state))
        (device (Traced.after (Shared.serve lib volume)
          (entries.filter fun entry => entry.1 = client) alone)) area := by
  have hmine : ∀ entry ∈ entries, entry.1 = client → ∀ store other, Set.EqOn store other area →
      (sharedStore κ volume).answer entry store = (sharedStore κ volume).answer entry other ∧
        Set.EqOn ((sharedStore κ volume).next entry store)
          ((sharedStore κ volume).next entry other) area :=
    fun entry hentry hclient store other => sharedStore_congr (hown entry hentry hclient)
  have htheirs : ∀ entry ∈ entries, ¬ entry.1 = client → ∀ store other,
      Set.EqOn store other area →
        Set.EqOn ((sharedStore κ volume).next entry store) other area :=
    fun entry hentry hclient store other hequal =>
      (Op.apply_of_editsOutside (hothers entry hentry hclient) store).trans hequal
  obtain ⟨hanswers, hafter⟩ := run_refines_sharedStore hlib hshared
  obtain ⟨hanswersAlone, hafterAlone⟩ := run_refines_sharedStore hlib halone
  rw [answered, answered, hanswers, hanswersAlone, hafter, hafterAlone]
  exact Machine.answers_filter hmine htheirs hagree

/-! ### Writing a volume block by block -/

/-- The write of one whole block of an image of the volume. -/
def writeBlock (volume : Volume) (image : Nat → UInt8) (address lba : UInt64) : FlashRequest :=
  .fvb (.write lba 0 volume.media.blockSize.toUInt64 {
    address
    bytes := fun index => image (lba.toNat * volume.media.blockSize.toNat + index) })

theorem transferWindow_of_asked {lba offset numBytes : UInt64} (hlba : lba < volume.blocks)
    (hoffset : offset < volume.media.blockSize.toUInt64)
    (hbytes : numBytes ≤ volume.media.blockSize.toUInt64)
    (hasked : numBytes < volume.media.blockSize.toUInt64 ∨ offset = 0) :
    transferWindow volume.toNorFlashInstance lba offset numBytes =
      { start := addressAsked volume.toNorFlashInstance lba offset
        length := bytesAsked volume.toNorFlashInstance offset numBytes } := by
  have hserved := toNat_bytesServed hoffset hbytes
  rcases UInt64.lt_or_eq_of_le hbytes with hlt | hwhole
  · rw [transferWindow, if_neg (UInt64.ne_of_lt hlt), hserved,
      @deviceAddress_add_startLba volume.toFvbInstance _ hlba]
    rfl
  · have hzero : offset = 0 :=
      hasked.resolve_left (by rw [hwhole]; exact UInt64.lt_irrefl _)
    rw [transferWindow, if_pos hwhole, hzero,
      @deviceAddress_add_startLba volume.toFvbInstance _ hlba,
      (@bytesAsked_of_whole volume.toFvbInstance 0 _ hwhole).mpr rfl]

theorem blockSize_accepted :
    ¬ TransferRejected volume.toNorFlashInstance 0 volume.media.blockSize.toUInt64 := by
  have hsize := volume.blockSize_pos
  rw [not_transferRejected_iff, UInt64.lt_iff_toNat_lt, UInt32.toNat_toUInt64]
  refine ⟨hsize, UInt64.le_refl _, fun hzero => ?_⟩
  have hzeroNat := congrArg UInt64.toNat hzero
  rw [UInt32.toNat_toUInt64] at hzeroNat
  exact Nat.ne_of_gt hsize hzeroNat

def blockEdit (volume : Volume) (image : Nat → UInt8) (lba : UInt64) : Edit UInt8 where
  start := (volume.startLba.toNat + lba.toNat) * volume.media.blockSize.toNat
  length := volume.media.blockSize.toNat
  source := fun index => image (lba.toNat * volume.media.blockSize.toNat + index)

theorem writeBlock_edits (hwritable : volume.media.readOnly = false) (image : Nat → UInt8)
    (address : UInt64) {lba : UInt64} (hlba : lba < volume.blocks) :
    ((writeBlock volume image address lba).plan volume.toPublishedInstance).op.edits =
      [blockEdit volume image lba] := by
  obtain ⟨hoffset, hbytes, -⟩ := not_transferRejected_iff.mp (@blockSize_accepted volume)
  have hlength := (@bytesAsked_of_whole volume.toFvbInstance 0 _ rfl).mpr rfl
  rw [writeBlock, FlashRequest.plan, fvbWritePlan,
    if_neg (by rw [hwritable]; exact Bool.false_ne_true), if_neg blockSize_accepted,
    transferWindow_of_asked hlba hoffset hbytes (Or.inr rfl), ← hlength, UInt32.toNat_toUInt64]
  rfl

theorem exists_block_of_inRegion {address : Nat}
    (hinside : InRegion volume.toNorFlashInstance address) :
    ∃ lba < volume.blocks,
      (volume.startLba.toNat + lba.toNat) * volume.media.blockSize.toNat ≤ address ∧
        address < (volume.startLba.toNat + lba.toNat) * volume.media.blockSize.toNat +
          volume.media.blockSize.toNat := by
  obtain ⟨hfrom, hto⟩ := hinside
  have hsize := volume.blockSize_pos
  set size := volume.media.blockSize.toNat
  set start := volume.startLba.toNat
  let block := (address - start * size) / size
  have hblock : block < volume.blocks.toNat := by
    rw [Nat.div_lt_iff_lt_mul hsize]
    rw [Nat.add_mul] at hto
    omega
  have hnumber : (UInt64.ofNat block).toNat = block :=
    UInt64.toNat_ofNat_of_lt' (hblock.trans volume.blocks.toNat_lt)
  have hdivision := Nat.div_add_mod' (address - start * size) size
  have hremainder := Nat.mod_lt (address - start * size) hsize
  refine ⟨UInt64.ofNat block, ?_, ?_⟩
  · rwa [UInt64.lt_iff_toNat_lt, hnumber]
  · rw [hnumber, Nat.add_mul]
    change block * size + _ = _ at hdivision
    omega

/-- The edits of a list of block writes take their bytes from the image. -/
theorem source_of_mem_writeBlocks (hwritable : volume.media.readOnly = false) {image : Nat → UInt8}
    {address : UInt64} {order : List UInt64} (horder : ∀ lba ∈ order, lba < volume.blocks)
    {edit : Edit UInt8}
    (hedit : edit ∈ flashEdits volume (order.map (writeBlock volume image address)))
    {target : Nat} (hcovers : edit.Covers target) :
    InRegion volume.toNorFlashInstance target ∧
      edit.source (target - edit.start) =
        image (target - volume.startLba.toNat * volume.media.blockSize.toNat) := by
  obtain ⟨request, hrequest, hmem⟩ := List.mem_flatMap.mp hedit
  obtain ⟨lba, hlba, rfl⟩ := List.mem_map.mp hrequest
  rw [writeBlock_edits hwritable image address (horder lba hlba), List.mem_singleton] at hmem
  subst hmem
  obtain ⟨hfrom, hto⟩ := hcovers
  have hlast := horder lba hlba
  rw [UInt64.lt_iff_toNat_lt] at hlast
  have hend := Nat.mul_le_mul_right volume.media.blockSize.toNat (Nat.succ_le_of_lt hlast)
  rw [Nat.succ_mul] at hend
  change (volume.startLba.toNat + lba.toNat) * volume.media.blockSize.toNat ≤ target at hfrom
  change target < (volume.startLba.toNat + lba.toNat) * volume.media.blockSize.toNat +
    volume.media.blockSize.toNat at hto
  rw [Nat.add_mul] at hfrom hto
  constructor
  · rw [InRegion, Nat.add_mul]
    omega
  · apply congrArg image
    change _ + (target - (volume.startLba.toNat + lba.toNat) * volume.media.blockSize.toNat) = _
    rw [Nat.add_mul]
    omega

theorem covered_of_inRegion (hwritable : volume.media.readOnly = false) (image : Nat → UInt8)
    (address : UInt64) {order : List UInt64} (horder : ∀ lba < volume.blocks, lba ∈ order)
    {target : Nat} (hinside : InRegion volume.toNorFlashInstance target) :
    ∃ edit ∈ flashEdits volume (order.map (writeBlock volume image address)),
      edit.Covers target := by
  obtain ⟨lba, hlba, hbounds⟩ := exists_block_of_inRegion hinside
  refine ⟨blockEdit volume image lba, ?_, hbounds⟩
  apply List.mem_flatMap.mpr
  refine ⟨_, List.mem_map_of_mem (horder lba hlba), ?_⟩
  rw [writeBlock_edits hwritable image address hlba]
  exact List.mem_singleton_self _

/-- The volume holds an image: the bytes of the region are those of the image. -/
def HoldsImage (volume : Volume) (image : Nat → UInt8) (store : Nat → UInt8) : Prop :=
  ∀ address, InRegion volume.toNorFlashInstance address →
    store address = image (address - volume.startLba.toNat * volume.media.blockSize.toNat)

theorem holdsImage_applyAll (hwritable : volume.media.readOnly = false) (image : Nat → UInt8)
    (address : UInt64) {order : List UInt64} (horder : ∀ lba, lba ∈ order ↔ lba < volume.blocks)
    (store : Nat → UInt8) :
    HoldsImage volume image
      (applyAll (flashEdits volume (order.map (writeBlock volume image address))) store) := by
  intro target hinside
  have hcovered := covered_of_inRegion hwritable image address (fun lba => (horder lba).mpr) hinside
  refine @applyAll_of_image _
    (fun target => image (target - volume.startLba.toNat * volume.media.blockSize.toNat)) _ ?_ store _
    hcovered
  intro edit hedit address' hcovers
  exact (source_of_mem_writeBlocks hwritable (fun lba => (horder lba).mp) hedit hcovers).2

theorem address_inRegion {lba offset numBytes : UInt64} (hlba : lba < volume.blocks)
    (hoffset : offset < volume.media.blockSize.toUInt64) {index : Nat}
    (hindex : index < bytesAsked volume.toNorFlashInstance offset numBytes) :
    InRegion volume.toNorFlashInstance
        (addressAsked volume.toNorFlashInstance lba offset + index) ∧
      addressAsked volume.toNorFlashInstance lba offset + index -
          volume.startLba.toNat * volume.media.blockSize.toNat =
        lba.toNat * volume.media.blockSize.toNat + offset.toNat + index := by
  rw [UInt64.lt_iff_toNat_lt] at hlba
  rw [UInt64.lt_iff_toNat_lt, UInt32.toNat_toUInt64] at hoffset
  rw [bytesAsked] at hindex
  have hend := Nat.mul_le_mul_right volume.media.blockSize.toNat (Nat.succ_le_of_lt hlba)
  rw [Nat.succ_mul] at hend
  rw [InRegion, addressAsked, Nat.add_mul, Nat.add_mul]
  omega

/-- **A volume can be written block by block in any order.** After whole-block writes of every block,
in any order and any number of times, the volume holds the image and the rest of the device is as it
was; and every read of part of a block, or of a whole one, returns the bytes of the image. -/
theorem image_written_in_any_order (lib : NorFlashLib σ) (device : σ → Nat → UInt8)
    (volume : Volume) (image : Nat → UInt8) (address : UInt64) (order : List UInt64) (state : σ)
    (hlib : lib.IsStore device) (hwritable : volume.media.readOnly = false)
    (horder : ∀ lba, lba ∈ order ↔ lba < volume.blocks)
    (hsuccess : RunSucceeds lib volume (order.map (writeBlock volume image address)) state) :
    let written := flashAfter lib volume (order.map (writeBlock volume image address)) state
    HoldsImage volume image (device written) ∧
      (∀ target, ¬ InRegion volume.toNorFlashInstance target →
        device written target = device state target) ∧
      ∀ lba offset numBytes buffer, lba < volume.blocks →
        ¬ TransferRejected volume.toNorFlashInstance offset numBytes →
        (numBytes < volume.media.blockSize.toUInt64 ∨ offset = 0) →
        RunSucceeds lib volume [.fvb (.read lba offset numBytes buffer)] written →
        ∃ filled, (((FlashRequest.fvb (.read lba offset numBytes buffer)).serve lib
            volume.toPublishedInstance).run written).value.buffer = some filled ∧
          ∀ index < bytesAsked volume.toNorFlashInstance offset numBytes, filled.bytes index =
            image (lba.toNat * volume.media.blockSize.toNat + offset.toNat + index) := by
  intro written
  have hdevice : device written =
      applyAll (flashEdits volume (order.map (writeBlock volume image address))) (device state) :=
    device_flashAfter hlib hsuccess
  have hholds : HoldsImage volume image (device written) := by
    rw [hdevice]
    exact holdsImage_applyAll hwritable image address horder _
  refine ⟨hholds, ?_, ?_⟩
  · intro target houtside
    rw [hdevice, applyAll_of_not_covers]
    intro edit hedit hcovers
    exact houtside
      (source_of_mem_writeBlocks hwritable (fun lba => (horder lba).mp) hedit hcovers).1
  · intro lba offset numBytes buffer hlba haccepted hasked hread
    obtain ⟨hoffset, hbytes, -⟩ := not_transferRejected_iff.mp haccepted
    have hvalue := (comesTo_serve hlib (.fvb (.read lba offset numBytes buffer)) written
      (hread _ List.mem_cons_self)).1
    have hop : (fvbReadPlan volume.toNorFlashInstance lba offset numBytes).op =
        .fetch {
          start := addressAsked volume.toNorFlashInstance lba offset
          length := bytesAsked volume.toNorFlashInstance offset numBytes } := by
      rw [fvbReadPlan, if_neg haccepted, transferWindow_of_asked hlba hoffset hbytes hasked]
    refine ⟨_, congrArg FlashAnswer.buffer hvalue, fun index hindex => ?_⟩
    obtain ⟨hinside, himage⟩ := address_inRegion hlba hoffset hindex
    have hfilled := bytes_fill_fetched hop buffer (device written)
      ⟨Nat.le_add_right _ index, Nat.add_lt_add_left hindex _⟩
    rw [Nat.add_sub_cancel_left, hholds _ hinside, himage] at hfilled
    exact hfilled

end

/-! ### On the sample device -/

theorem read_after_write_sample :
    ∃ filled, (((FlashRequest.diskIoReadDisk 0 0x703000 16 sampleBuffer).serve NorFlashLib.ideal
        sampleVolume.toPublishedInstance).run
        (flashAfter NorFlashLib.ideal sampleVolume
          ([.fvbEraseBlocks [3, 1, efiLbaListTerminator]] ++
            .fvb (.write 3 4 8 sampleBuffer) :: [.diskIoWriteDisk 0 0x704000 1 sampleBuffer])
          countingDevice)).value.buffer = some filled ∧ filled.bytes (0x703005 - 0x703000) = 0 :=
  read_after_write NorFlashLib.ideal id sampleVolume [.fvbEraseBlocks [3, 1, efiLbaListTerminator]]
    [.diskIoWriteDisk 0 0x704000 1 sampleBuffer] (.fvb (.write 3 4 8 sampleBuffer))
    (.diskIoReadDisk 0 0x703000 16 sampleBuffer) countingDevice 0x703005 0 ⟨0x703000, 16⟩ sampleBuffer
    NorFlashLib.ideal_isStore (by decide) (by decide) (by rfl) rfl (by decide) (by decide)

/-- A client that uses block 3 through FVB, and one that uses block 4 through Disk I/O. -/
def sampleClients : List (Shared Bool) := [
  (true, .fvb (.write 3 4 8 sampleBuffer)),
  (false, .diskIoWriteDisk 0 0x704000 16 sampleBuffer),
  (true, .fvb (.read 3 0 16 sampleBuffer)),
  (false, .diskIoReadDisk 0 0x704008 16 sampleBuffer)]

def blockThree : Set Nat := { address | 0x703000 ≤ address ∧ address < 0x704000 }

theorem sampleClients_own : ∀ entry ∈ sampleClients, entry.1 = true →
    (entry.2.plan sampleVolume.toPublishedInstance).op.FetchesIn blockThree := by
  intro entry hentry hclient
  simp only [sampleClients, List.mem_cons, List.not_mem_nil, or_false] at hentry
  rcases hentry with rfl | rfl | rfl | rfl
  · trivial
  · cases hclient
  · intro address hcovers
    have hbounds : 0x703000 ≤ address ∧ address < 0x703000 + 16 := hcovers
    exact ⟨hbounds.1, by omega⟩
  · cases hclient

theorem sampleClients_others : ∀ entry ∈ sampleClients, entry.1 ≠ true →
    (entry.2.plan sampleVolume.toPublishedInstance).op.EditsOutside blockThree := by
  intro entry hentry hclient
  simp only [sampleClients, List.mem_cons, List.not_mem_nil, or_false] at hentry
  rcases hentry with rfl | rfl | rfl | rfl
  · exact absurd rfl hclient
  · intro edit hedit address haddress hcovers
    rw [List.mem_singleton.mp hedit] at hcovers
    have hbounds : 0x704000 ≤ address ∧ address < 0x704000 + 16 := hcovers
    have harea : 0x703000 ≤ address ∧ address < 0x704000 := haddress
    omega
  · exact absurd rfl hclient
  · intro edit hedit
    cases hedit

theorem client_served_as_alone_sample :
    (answered NorFlashLib.ideal sampleVolume sampleClients countingDevice).filter
          (fun entry => entry.1.1 = true) =
        answered NorFlashLib.ideal sampleVolume
          (sampleClients.filter fun entry => entry.1 = true) countingDevice ∧
      Set.EqOn (Traced.after (Shared.serve NorFlashLib.ideal sampleVolume) sampleClients
          countingDevice)
        (Traced.after (Shared.serve NorFlashLib.ideal sampleVolume)
          (sampleClients.filter fun entry => entry.1 = true) countingDevice) blockThree :=
  client_served_as_alone NorFlashLib.ideal id sampleVolume true blockThree sampleClients
    countingDevice countingDevice NorFlashLib.ideal_isStore sampleClients_own sampleClients_others
    (fun _ _ => rfl) (by decide) (by decide)

/-- The sample volume, cut down to two blocks. -/
def twoBlocks : Volume :=
  { sampleVolume with
    blocks := 2
    region_le := (by decide : (0x700 : UInt64).toNat + (2 : UInt64).toNat ≤ 2 ^ 64)
    size_lt := (by decide : (2 : UInt64).toNat * (0x1000 : UInt32).toNat < 2 ^ 64) }

theorem twoBlocks_order (lba : UInt64) : lba ∈ [(1 : UInt64), 0] ↔ lba < twoBlocks.blocks := by
  have hblocks : twoBlocks.blocks.toNat = 2 := rfl
  rw [UInt64.lt_iff_toNat_lt, hblocks]
  simp only [List.mem_cons, List.not_mem_nil, or_false, ← UInt64.toNat_inj, UInt64.toNat_one,
    UInt64.toNat_zero]
  omega

/-- The second block is written first, and some bytes inside it are read back. -/
theorem image_written_in_any_order_sample :
    let written := flashAfter NorFlashLib.ideal twoBlocks
      ([1, 0].map (writeBlock twoBlocks countingDevice 0x4000)) fun _ => 0xFF
    HoldsImage twoBlocks countingDevice written ∧
      (∀ target, ¬ InRegion twoBlocks.toNorFlashInstance target → written target = 0xFF) ∧
      ∃ filled, (((FlashRequest.fvb (.read 1 4 8 sampleBuffer)).serve NorFlashLib.ideal
          twoBlocks.toPublishedInstance).run written).value.buffer = some filled ∧
        ∀ index < 8, filled.bytes index = countingDevice (0x1004 + index) := by
  have hwritten := image_written_in_any_order NorFlashLib.ideal id twoBlocks countingDevice 0x4000
    [1, 0] (fun _ => 0xFF) NorFlashLib.ideal_isStore rfl twoBlocks_order (by decide)
  refine ⟨hwritten.1, hwritten.2.1, ?_⟩
  exact hwritten.2.2 1 4 8 sampleBuffer (by decide) (by decide) (.inl (by decide)) (by decide)

end OrionO6.Flash
