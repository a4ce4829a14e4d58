import OrionO6.Flash.BlockIo
import OrionO6.Flash.Containment

/-!
# Write protection

Each entry point of the three protocols has its own check of `ReadOnly`, except one:
`NorFlashDiskIoWriteDisk`. A run on a read-only instance leaves the device alone, and refuses every
write and erase, exactly when that entry point is never called with the right media id.
-/

namespace OrionO6.Flash

inductive FlashRequest where
  | blockIoReadBlocks (isNull : Bool) (mediaId : UInt32) (lba bufferSize : UInt64) (buffer : Buffer)
  | blockIoWriteBlocks (mediaId : UInt32) (lba bufferSize : UInt64) (buffer : Buffer)
  | blockIoFlushBlocks
  | diskIoReadDisk (mediaId : UInt32) (diskOffset bufferSize : UInt64) (buffer : Buffer)
  | diskIoWriteDisk (mediaId : UInt32) (diskOffset bufferSize : UInt64) (buffer : Buffer)
  | fvb (request : TransferRequest)
  | fvbEraseBlocks (args : List UInt64)

namespace FlashRequest

def handle {σ : Type} (lib : NorFlashLib σ) (nor : PublishedInstance) :
    FlashRequest → Driver σ EfiStatus
  | blockIoReadBlocks isNull mediaId lba bufferSize buffer => do
      let answer ← norFlashBlockIoReadBlocks lib (if isNull then none else some nor) mediaId lba
        bufferSize buffer
      pure answer.1
  | blockIoWriteBlocks mediaId lba bufferSize buffer =>
      norFlashBlockIoWriteBlocks lib nor mediaId lba bufferSize buffer
  | blockIoFlushBlocks => norFlashBlockIoFlushBlocks
  | diskIoReadDisk mediaId diskOffset bufferSize buffer => do
      let answer ← norFlashDiskIoReadDisk lib nor mediaId diskOffset bufferSize buffer
      pure answer.1
  | diskIoWriteDisk mediaId diskOffset bufferSize buffer =>
      norFlashDiskIoWriteDisk lib nor mediaId diskOffset bufferSize buffer
  | fvb request => do
      let transfer ← request.handle lib nor.toNorFlashInstance
      pure transfer.status
  | fvbEraseBlocks args => Flash.fvbEraseBlocks lib nor.toNorFlashInstance args

/-- The errors with which a request to write or erase may be refused. Other requests have none. -/
def refusals : FlashRequest → Option (List EfiStatus)
  | blockIoWriteBlocks _ _ _ _ | diskIoWriteDisk _ _ _ _ =>
      some [.writeProtected, .mediaChanged, .noMedia]
  | fvb (.write _ _ _ _) | fvbEraseBlocks _ => some [.accessDenied]
  | blockIoReadBlocks _ _ _ _ _ | blockIoFlushBlocks | diskIoReadDisk _ _ _ _
  | fvb (.read _ _ _ _) => none

def WritesDisk (nor : PublishedInstance) : FlashRequest → Prop
  | diskIoWriteDisk mediaId _ _ _ => mediaId = nor.media.mediaId
  | _ => False

end FlashRequest

/-- What is asked of every step on a read-only instance: the device is not changed, and a write or
an erase is refused. -/
def WriteProtected (step : Traced.Step FlashRequest Call EfiStatus) : Prop :=
  (∀ call ∈ step.calls, ¬ call.op.Mutates) ∧
    ∀ refusals, step.request.refusals = some refusals → step.value ∈ refusals

section

variable {σ : Type} (lib : NorFlashLib σ)

/-! ### Reading never mutates -/

theorem calls_norFlashRead (nor : NorFlashInstance) (lba offset numBytes : UInt64)
    (buffer : Buffer) :
    Traced.Calls (fun call => ¬ call.op.Mutates)
      (lib.norFlashRead nor lba offset numBytes buffer) :=
  Traced.Calls.call fun _ => not_false

theorem calls_norFlashReadBlocks (nor : NorFlashInstance) (lba bufferSize : UInt64)
    (buffer : Buffer) :
    Traced.Calls (fun call => ¬ call.op.Mutates)
      (lib.norFlashReadBlocks nor lba bufferSize buffer) :=
  Traced.Calls.call fun _ => not_false

theorem calls_fvbRead (nor : NorFlashInstance) (lba offset numBytes : UInt64) (buffer : Buffer) :
    Traced.Calls (fun call => ¬ call.op.Mutates) (fvbRead lib nor lba offset numBytes buffer) := by
  by_cases hrejected : TransferRejected nor offset numBytes
  · obtain ⟨count, hread⟩ := fvbRead_of_rejected lib lba buffer hrejected
    rw [hread]
    exact Traced.Calls.pure _
  · obtain ⟨_, hbytes, _⟩ := not_transferRejected_iff.mp hrejected
    rcases UInt64.lt_or_eq_of_le hbytes with hlt | hwhole
    · rw [fvbRead_of_part lib lba buffer hrejected hlt]
      exact (calls_norFlashRead lib nor _ _ _ _).bind fun answer => Traced.Calls.pure _
    · rw [fvbRead_of_whole lib lba buffer hrejected hwhole]
      exact (calls_norFlashReadBlocks lib nor _ _ _).bind fun answer => Traced.Calls.pure _

theorem calls_norFlashBlockIoReadBlocks (this : Option PublishedInstance) (mediaId : UInt32)
    (lba bufferSize : UInt64) (buffer : Buffer) :
    Traced.Calls (fun call => ¬ call.op.Mutates)
      (norFlashBlockIoReadBlocks lib this mediaId lba bufferSize buffer) := by
  unfold norFlashBlockIoReadBlocks
  split
  · exact Traced.Calls.pure _
  split
  · exact Traced.Calls.pure _
  split
  · exact Traced.Calls.pure _
  split
  · exact Traced.Calls.pure _
  split
  · exact Traced.Calls.pure _
  · exact (calls_norFlashReadBlocks lib _ _ _ _).bind fun answer => Traced.Calls.pure _

variable (nor : PublishedInstance)

theorem calls_norFlashDiskIoReadDisk (mediaId : UInt32) (diskOffset bufferSize : UInt64)
    (buffer : Buffer) :
    Traced.Calls (fun call => ¬ call.op.Mutates)
      (norFlashDiskIoReadDisk lib nor mediaId diskOffset bufferSize buffer) := by
  unfold norFlashDiskIoReadDisk
  split
  · exact Traced.Calls.pure _
  · exact (calls_norFlashRead lib _ _ _ _ _).bind fun answer => Traced.Calls.pure _

/-! ### Runs -/

theorem writeProtected_of_calls (request : FlashRequest) (hrefusals : request.refusals = none)
    (hcalls : Traced.Calls (fun call => ¬ call.op.Mutates) (request.handle lib nor)) (state : σ) :
    WriteProtected (Traced.step (FlashRequest.handle lib nor) request state) := by
  refine ⟨hcalls state, ?_⟩
  intro refusals hsome
  rw [Traced.step, hrefusals] at hsome
  cases hsome

theorem writeProtected_of_pure (request : FlashRequest) (status : EfiStatus)
    {refusals : List EfiStatus} (hrefusals : request.refusals = some refusals)
    (hhandle : request.handle lib nor = pure status) (hstatus : status ∈ refusals) (state : σ) :
    WriteProtected (Traced.step (FlashRequest.handle lib nor) request state) := by
  rw [Traced.step_of_pure _ request hhandle]
  constructor
  · intro call hcall
    cases hcall
  · intro allowed hallowed
    rw [hrefusals] at hallowed
    cases hallowed
    exact hstatus

variable {nor}

theorem norFlashBlockIoWriteBlocks_of_readOnly (hreadOnly : nor.media.readOnly = true)
    (mediaId : UInt32) (lba bufferSize : UInt64) (buffer : Buffer) :
    ∃ status, norFlashBlockIoWriteBlocks lib nor mediaId lba bufferSize buffer = pure status ∧
      status ∈ [EfiStatus.writeProtected, .mediaChanged, .noMedia] := by
  unfold norFlashBlockIoWriteBlocks
  split
  · exact ⟨.noMedia, rfl, by simp⟩
  split
  · exact ⟨.mediaChanged, rfl, by simp⟩
  · exact ⟨.writeProtected, rfl, by simp⟩

/-- A Disk I/O write to the media that is present mutates, read-only or not. -/
theorem calls_norFlashDiskIoWriteDisk {mediaId : UInt32} (hmedia : mediaId = nor.media.mediaId)
    (diskOffset bufferSize : UInt64) (buffer : Buffer) (state : σ) :
    ∃ call ∈ ((norFlashDiskIoWriteDisk lib nor mediaId diskOffset bufferSize buffer).run state).calls,
      call.op.Mutates := by
  unfold norFlashDiskIoWriteDisk
  rw [if_neg (not_not_intro hmedia)]
  exact ⟨_, List.mem_singleton.mpr rfl, trivial⟩

/-- **One request.** On a read-only instance it is harmless unless it is a Disk I/O write. -/
theorem writeProtected_step_iff (hreadOnly : nor.media.readOnly = true) (request : FlashRequest)
    (state : σ) :
    WriteProtected (Traced.step (FlashRequest.handle lib nor) request state) ↔
      ¬ request.WritesDisk nor := by
  cases request with
  | blockIoReadBlocks isNull mediaId lba bufferSize buffer =>
      refine iff_of_true (writeProtected_of_calls lib nor _ rfl ?_ state) not_false
      exact (calls_norFlashBlockIoReadBlocks lib _ _ _ _ _).bind fun answer => Traced.Calls.pure _
  | blockIoWriteBlocks mediaId lba bufferSize buffer =>
      obtain ⟨status, hwrite, hstatus⟩ :=
        norFlashBlockIoWriteBlocks_of_readOnly lib hreadOnly mediaId lba bufferSize buffer
      exact iff_of_true (writeProtected_of_pure lib nor (.blockIoWriteBlocks mediaId lba bufferSize
        buffer) status rfl hwrite hstatus state) not_false
  | blockIoFlushBlocks =>
      exact iff_of_true (writeProtected_of_calls lib nor _ rfl (Traced.Calls.pure _) state) not_false
  | diskIoReadDisk mediaId diskOffset bufferSize buffer =>
      refine iff_of_true (writeProtected_of_calls lib nor _ rfl ?_ state) not_false
      exact (calls_norFlashDiskIoReadDisk lib nor _ _ _ _).bind fun answer => Traced.Calls.pure _
  | diskIoWriteDisk mediaId diskOffset bufferSize buffer =>
      by_cases hmedia : mediaId = nor.media.mediaId
      · refine iff_of_false ?_ (not_not_intro hmedia)
        intro hprotected
        have hcalls := calls_norFlashDiskIoWriteDisk lib hmedia diskOffset bufferSize buffer state
        obtain ⟨call, hcall, hmutates⟩ := hcalls
        exact hprotected.1 call hcall hmutates
      · refine iff_of_true ?_ hmedia
        exact writeProtected_of_pure lib nor (.diskIoWriteDisk mediaId diskOffset bufferSize buffer)
          .mediaChanged rfl (if_pos hmedia) (by simp) state
  | fvb request =>
      cases request with
      | read lba offset numBytes buffer =>
          refine iff_of_true (writeProtected_of_calls lib nor _ rfl ?_ state) not_false
          exact (calls_fvbRead lib _ _ _ _ _).bind fun transfer => Traced.Calls.pure _
      | write lba offset numBytes buffer =>
          refine iff_of_true ?_ not_false
          refine writeProtected_of_pure lib nor (.fvb (.write lba offset numBytes buffer))
            .accessDenied rfl ?_ (by simp) state
          rw [FlashRequest.handle, TransferRequest.handle,
            fvbWrite_of_readOnly lib lba buffer hreadOnly]
          rfl
  | fvbEraseBlocks args =>
      refine iff_of_true ?_ not_false
      exact writeProtected_of_pure lib nor (.fvbEraseBlocks args) .accessDenied rfl
        (if_pos hreadOnly) (by simp) state

/-- **Runs on a read-only instance.** They are harmless exactly when no request of them is a Disk I/O
write to the media that is present. -/
theorem writeProtected_steps_iff (hreadOnly : nor.media.readOnly = true)
    (requests : List FlashRequest) (state : σ) :
    (∀ step ∈ Traced.steps (FlashRequest.handle lib nor) requests state, WriteProtected step) ↔
      ∀ request ∈ requests, ¬ request.WritesDisk nor :=
  Traced.forall_steps_iff _ (writeProtected_step_iff lib hreadOnly) requests state

end

def samplePublished (readOnly : Bool) : PublishedInstance where
  toNorFlashInstance := sampleInstance readOnly
  media_ne_null := (by decide : (0x2000 : UInt64) ≠ 0)

/-- On a read-only instance a Disk I/O write reaches the device and succeeds. -/
theorem diskIoWriteDisk_of_readOnly :
    ∃ step ∈ Traced.steps (FlashRequest.handle NorFlashLib.idle (samplePublished true))
        [.diskIoWriteDisk 0 0x700010 16 sampleBuffer] (),
      step.value = .success ∧
        step.calls = [{ op := .write 0x700 0x10 16, status := .success }] ∧
        ¬ WriteProtected step := by
  refine ⟨_, List.mem_singleton.mpr rfl, rfl, rfl, ?_⟩
  intro hprotected
  exact hprotected.1 _ (List.mem_singleton.mpr rfl) trivial

theorem writeProtected_steps_iff_sample :
    (∀ step ∈ Traced.steps (FlashRequest.handle NorFlashLib.idle (samplePublished true))
        [.blockIoWriteBlocks 0 0 0x1000 sampleBuffer, .diskIoWriteDisk 1 0 16 sampleBuffer,
          .fvbEraseBlocks [0, 1, efiLbaListTerminator]] (), WriteProtected step) ↔
      ∀ request ∈ [FlashRequest.blockIoWriteBlocks 0 0 0x1000 sampleBuffer,
        .diskIoWriteDisk 1 0 16 sampleBuffer, .fvbEraseBlocks [0, 1, efiLbaListTerminator]],
        ¬ request.WritesDisk (samplePublished true) :=
  writeProtected_steps_iff NorFlashLib.idle rfl _ ()

end OrionO6.Flash
