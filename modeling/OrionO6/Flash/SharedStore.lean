import OrionO6.Flash.Transfer
import OrionO6.Flash.WriteProtection
import OrionO6.Library.Machine
import OrionO6.Library.Store

/-!
# One store behind three protocols

Block I/O, Disk I/O and the Firmware Volume Block protocol give access to the bytes of one device,
each with its own addresses and its own checks. What a request comes to can be said without the
device: a refusal, a window to fetch, or windows to overwrite. On a device that keeps its promises,
every run of requests over the three protocols is a run of these operations on one store of bytes.
-/

namespace OrionO6.Flash

open Store

/-- An instance whose protocols have been installed, with a region that exists on its device. -/
structure Volume extends PublishedInstance, FvbInstance

/-- What a caller is handed back: the status, the count where there is one, and the buffer of a
read. -/
structure FlashAnswer where
  status : EfiStatus
  numBytes : Option UInt64
  buffer : Option Buffer

/-- The buffer with its first bytes replaced. -/
def Buffer.fill (buffer : Buffer) (contents : List UInt8) : Buffer :=
  { buffer with
    bytes := Memory.overwrite buffer.bytes 0 contents.length fun index => contents.getD index 0 }

theorem Buffer.fill_nil (buffer : Buffer) : buffer.fill [] = buffer := by
  have hbytes : (buffer.fill []).bytes = buffer.bytes := by
    funext address
    calc (buffer.fill []).bytes address
      _ = Memory.overwrite buffer.bytes 0 0 (fun index => [].getD index 0) address := rfl
      _ = buffer.bytes address := Memory.overwrite_outside _ _ (Or.inr (Nat.zero_le address))
  exact congrArg (Buffer.mk buffer.address) hbytes

theorem Buffer.fill_fetched (buffer : Buffer) (window : Window) (store : Nat → UInt8) :
    buffer.fill ((Op.fetch window).fetched store) =
      { buffer with
        bytes := Memory.overwrite buffer.bytes 0 window.length
          fun index => store (window.start + index) } := by
  apply congrArg (Buffer.mk buffer.address)
  funext address
  rw [Op.fetched, List.length_map, List.length_range]
  by_cases hinside : address < window.length
  · rw [Memory.overwrite_front _ _ hinside, Memory.overwrite_front _ _ hinside]
    simp [hinside]
  · rw [Memory.overwrite_outside _ _ (by omega), Memory.overwrite_outside _ _ (by omega)]

namespace FlashRequest

def serve {σ : Type} (lib : NorFlashLib σ) (nor : PublishedInstance) :
    FlashRequest → Driver σ FlashAnswer
  | blockIoReadBlocks isNull mediaId lba bufferSize buffer => do
      let (status, buffer) ← norFlashBlockIoReadBlocks lib (if isNull then none else some nor)
        mediaId lba bufferSize buffer
      pure { status, numBytes := none, buffer := some buffer }
  | blockIoWriteBlocks mediaId lba bufferSize buffer => do
      let status ← norFlashBlockIoWriteBlocks lib nor mediaId lba bufferSize buffer
      pure { status, numBytes := none, buffer := none }
  | blockIoFlushBlocks => do
      let status ← norFlashBlockIoFlushBlocks
      pure { status, numBytes := none, buffer := none }
  | diskIoReadDisk mediaId diskOffset bufferSize buffer => do
      let (status, buffer) ← norFlashDiskIoReadDisk lib nor mediaId diskOffset bufferSize buffer
      pure { status, numBytes := none, buffer := some buffer }
  | diskIoWriteDisk mediaId diskOffset bufferSize buffer => do
      let status ← norFlashDiskIoWriteDisk lib nor mediaId diskOffset bufferSize buffer
      pure { status, numBytes := none, buffer := none }
  | fvb (.read lba offset numBytes buffer) => do
      let transfer ← fvbRead lib nor.toNorFlashInstance lba offset numBytes buffer
      pure { status := transfer.status, numBytes := some transfer.numBytes
             buffer := some transfer.buffer }
  | fvb (.write lba offset numBytes buffer) => do
      let transfer ← fvbWrite lib nor.toNorFlashInstance lba offset numBytes buffer
      pure { status := transfer.status, numBytes := some transfer.numBytes, buffer := none }
  | fvbEraseBlocks args => do
      let status ← Flash.fvbEraseBlocks lib nor.toNorFlashInstance args
      pure { status, numBytes := none, buffer := none }

/-- The buffer that a read fills. -/
def buffer? : FlashRequest → Option Buffer
  | blockIoReadBlocks _ _ _ _ buffer | diskIoReadDisk _ _ _ buffer
  | fvb (.read _ _ _ buffer) => some buffer
  | blockIoWriteBlocks _ _ _ _ | blockIoFlushBlocks | diskIoWriteDisk _ _ _ _
  | fvb (.write _ _ _ _) | fvbEraseBlocks _ => none

end FlashRequest

/-! ### What a request comes to -/

structure Plan where
  status : EfiStatus
  numBytes : Option UInt64
  op : Op UInt8

namespace Plan

def refuse (status : EfiStatus) (numBytes : Option UInt64) : Plan :=
  { status, numBytes, op := .edit [] }

def answer (plan : Plan) (buffer? : Option Buffer) (store : Nat → UInt8) : FlashAnswer where
  status := plan.status
  numBytes := plan.numBytes
  buffer := buffer?.map fun buffer => buffer.fill (plan.op.fetched store)

end Plan

section

variable (nor : NorFlashInstance)

instance (offset numBytes : UInt64) : Decidable (TransferRejected nor offset numBytes) :=
  inferInstanceAs (Decidable (_ ∨ _ ∨ _))

/-- The bytes of an accepted transfer: a block's worth of them is the whole block, from any offset. -/
def transferWindow (lba offset numBytes : UInt64) : Window :=
  if numBytes = nor.media.blockSize.toUInt64 then
    { start := deviceAddress nor (nor.startLba + lba) 0, length := numBytes.toNat }
  else
    { start := deviceAddress nor (nor.startLba + lba) offset
      length := (bytesServed nor offset numBytes).toNat }

def transferCount (offset numBytes : UInt64) : UInt64 :=
  if numBytes = nor.media.blockSize.toUInt64 then numBytes else bytesServed nor offset numBytes

/-- A write that is cut at the block boundary says so, a read does not. -/
def fvbWriteStatus (offset numBytes : UInt64) : EfiStatus :=
  if numBytes ≠ nor.media.blockSize.toUInt64 ∧
      offset + numBytes > nor.media.blockSize.toUInt64 then
    .badBufferSize
  else
    .success

def fvbReadPlan (lba offset numBytes : UInt64) : Plan :=
  if TransferRejected nor offset numBytes then
    .refuse .badBufferSize (some 0)
  else
    { status := .success
      numBytes := some (transferCount nor offset numBytes)
      op := .fetch (transferWindow nor lba offset numBytes) }

def fvbWritePlan (lba offset numBytes : UInt64) (buffer : Buffer) : Plan :=
  if nor.media.readOnly then
    .refuse .accessDenied (some numBytes)
  else if TransferRejected nor offset numBytes then
    .refuse .badBufferSize (some 0)
  else
    { status := fvbWriteStatus nor offset numBytes
      numBytes := some (transferCount nor offset numBytes)
      op := .edit [{ transferWindow nor lba offset numBytes with source := buffer.bytes }] }

def eraseEdits : List UInt64 → List (Edit UInt8)
  | startingLba :: numOfLba :: args =>
      if startingLba = efiLbaListTerminator then []
      else
        { start := deviceAddress nor (nor.startLba + startingLba) 0
          length := (numOfLba * nor.media.blockSize.toUInt64).toNat
          source := fun _ => 0xFF } :: eraseEdits args
  | _ => []

def fvbErasePlan (args : List UInt64) : Plan :=
  if nor.media.readOnly then .refuse .accessDenied none
  else if eraseArgsAccepted nor args then
    { status := .success, numBytes := none, op := .edit (eraseEdits nor args) }
  else .refuse .invalidParameter none

end

section

variable (nor : PublishedInstance)

def blockIoReadPlan (isNull : Bool) (mediaId : UInt32) (lba bufferSize : UInt64)
    (buffer : Buffer) : Plan :=
  if isNull then .refuse .invalidParameter none
  else if nor.media.mediaPresent = false then .refuse .noMedia none
  else if nor.media.mediaId ≠ mediaId then .refuse .mediaChanged none
  else if nor.media.ioAlign > 2 ∧
      buffer.address &&& (nor.media.ioAlign - 1).toUInt64 ≠ 0 then
    .refuse .invalidParameter none
  else
    { status := .success
      numBytes := none
      op := .fetch ⟨deviceAddress nor.toNorFlashInstance lba 0, bufferSize.toNat⟩ }

def blockIoWritePlan (mediaId : UInt32) (lba bufferSize : UInt64) (buffer : Buffer) : Plan :=
  if nor.media.mediaPresent = false then .refuse .noMedia none
  else if nor.media.mediaId ≠ mediaId then .refuse .mediaChanged none
  else if nor.media.readOnly then .refuse .writeProtected none
  else
    { status := .success
      numBytes := none
      op := .edit [{
        start := deviceAddress nor.toNorFlashInstance lba 0
        length := bufferSize.toNat
        source := buffer.bytes }] }

/-- Disk I/O addresses the bytes of the device one by one. -/
def diskIoReadPlan (mediaId : UInt32) (diskOffset bufferSize : UInt64) : Plan :=
  if mediaId ≠ nor.media.mediaId then .refuse .mediaChanged none
  else
    { status := .success, numBytes := none, op := .fetch ⟨diskOffset.toNat, bufferSize.toNat⟩ }

def diskIoWritePlan (mediaId : UInt32) (diskOffset bufferSize : UInt64) (buffer : Buffer) : Plan :=
  if mediaId ≠ nor.media.mediaId then .refuse .mediaChanged none
  else
    { status := .success
      numBytes := none
      op := .edit [{
        start := diskOffset.toNat, length := bufferSize.toNat, source := buffer.bytes }] }

def FlashRequest.plan : FlashRequest → Plan
  | blockIoReadBlocks isNull mediaId lba bufferSize buffer =>
      blockIoReadPlan nor isNull mediaId lba bufferSize buffer
  | blockIoWriteBlocks mediaId lba bufferSize buffer =>
      blockIoWritePlan nor mediaId lba bufferSize buffer
  | blockIoFlushBlocks => { status := .success, numBytes := none, op := .edit [] }
  | diskIoReadDisk mediaId diskOffset bufferSize _ =>
      diskIoReadPlan nor mediaId diskOffset bufferSize
  | diskIoWriteDisk mediaId diskOffset bufferSize buffer =>
      diskIoWritePlan nor mediaId diskOffset bufferSize buffer
  | fvb (.read lba offset numBytes _) => fvbReadPlan nor.toNorFlashInstance lba offset numBytes
  | fvb (.write lba offset numBytes buffer) =>
      fvbWritePlan nor.toNorFlashInstance lba offset numBytes buffer
  | fvbEraseBlocks args => fvbErasePlan nor.toNorFlashInstance args

/-- The store that the three protocols stand for. -/
def flashStore : Machine FlashRequest (Nat → UInt8) FlashAnswer where
  answer request store := (request.plan nor).answer request.buffer? store
  next request store := (request.plan nor).op.apply store

end

/-! ### A device that keeps its promises -/

section

variable {σ : Type}

structure NorFlashLib.IsStore (lib : NorFlashLib σ) (device : σ → Nat → UInt8) : Prop
    extends lib.Writes device, lib.Reads device where
  erase : ∀ nor lba size state, (lib.erase nor lba size state).1.isError = false →
    device (lib.erase nor lba size state).2 =
      Memory.overwrite (device state) (deviceAddress nor lba 0) size.toNat fun _ => 0xFF
  device_read : ∀ nor lba offset numBytes buffer state,
    device (lib.read nor lba offset numBytes buffer state).2 = device state
  device_readBlocks : ∀ nor lba bufferSize buffer state,
    device (lib.readBlocks nor lba bufferSize buffer state).2 = device state

theorem NorFlashLib.ideal_isStore : NorFlashLib.ideal.IsStore id where
  toWrites := NorFlashLib.ideal_writes
  toReads := NorFlashLib.ideal_reads
  erase _ _ _ _ _ := rfl
  device_read _ _ _ _ _ _ := rfl
  device_readBlocks _ _ _ _ _ := rfl

def Succeeds (call : Call) : Prop := call.status = .success

instance (call : Call) : Decidable (Succeeds call) := inferInstanceAs (Decidable (_ = _))

theorem Succeeds.not_isError {call : Call} (hsucceeds : Succeeds call) :
    call.status.isError = false :=
  (congrArg EfiStatus.isError hsucceeds).trans rfl

/-- A computation that comes to a plan: unless one of its calls fails, it answers as the plan says
and leaves the device as the plan's operation does. -/
def ComesTo (device : σ → Nat → UInt8) (plan : Plan) (buffer? : Option Buffer)
    (comp : Driver σ FlashAnswer) : Prop :=
  ∀ state, (∀ call ∈ (comp.run state).calls, Succeeds call) →
    (comp.run state).value = plan.answer buffer? (device state) ∧
      device (comp.run state).state = plan.op.apply (device state)

variable {lib : NorFlashLib σ} {device : σ → Nat → UInt8} {buffer : Buffer}

theorem answer_refuse (status : EfiStatus) (numBytes : Option UInt64) (buffer? : Option Buffer)
    (store : Nat → UInt8) :
    (Plan.refuse status numBytes).answer buffer? store = { status, numBytes, buffer := buffer? } := by
  cases buffer? with
  | none => rfl
  | some buffer =>
      exact congrArg (FlashAnswer.mk status numBytes) (congrArg some buffer.fill_nil)

theorem ComesTo.refuse {status : EfiStatus} {numBytes : Option UInt64} {buffer? : Option Buffer}
    {comp : Driver σ FlashAnswer}
    (hcomp : comp = pure { status, numBytes, buffer := buffer? }) :
    ComesTo device (.refuse status numBytes) buffer? comp := by
  subst hcomp
  intro state _
  exact ⟨(answer_refuse _ _ _ _).symm, rfl⟩

section

variable {nor : NorFlashInstance} {lba offset numBytes : UInt64} {count : Option UInt64}

theorem ComesTo.read (hlib : lib.IsStore device) {result : EfiStatus × (Nat → UInt8) → FlashAnswer}
    (hresult : ∀ bytes, result (.success, bytes) =
      { status := .success, numBytes := count, buffer := some { buffer with bytes } }) :
    ComesTo device
      { status := .success, numBytes := count
        op := .fetch ⟨deviceAddress nor lba offset, numBytes.toNat⟩ } (some buffer)
      (lib.norFlashRead nor lba offset numBytes buffer >>= fun answer => pure (result answer)) := by
  intro state hcalls
  have hstatus : (lib.read nor lba offset numBytes buffer state).1.1 = .success :=
    hcalls _ List.mem_cons_self
  have hanswer : (lib.read nor lba offset numBytes buffer state).1 = (.success,
      Memory.overwrite buffer.bytes 0 numBytes.toNat
        fun index => device state (deviceAddress nor lba offset + index)) :=
    Prod.ext hstatus (hlib.read _ _ _ _ _ _ (by rw [hstatus]; rfl))
  refine ⟨?_, hlib.device_read _ _ _ _ _ _⟩
  rw [Traced.run_bind, NorFlashLib.norFlashRead, Traced.run_call, Traced.run_pure]
  dsimp only
  rw [hanswer, hresult, Plan.answer, Option.map_some, Buffer.fill_fetched]

theorem ComesTo.readBlocks (hlib : lib.IsStore device)
    {result : EfiStatus × (Nat → UInt8) → FlashAnswer}
    (hresult : ∀ bytes, result (.success, bytes) =
      { status := .success, numBytes := count, buffer := some { buffer with bytes } }) :
    ComesTo device
      { status := .success, numBytes := count
        op := .fetch ⟨deviceAddress nor lba 0, numBytes.toNat⟩ } (some buffer)
      (lib.norFlashReadBlocks nor lba numBytes buffer >>= fun answer => pure (result answer)) := by
  intro state hcalls
  have hstatus : (lib.readBlocks nor lba numBytes buffer state).1.1 = .success :=
    hcalls _ List.mem_cons_self
  have hanswer : (lib.readBlocks nor lba numBytes buffer state).1 = (.success,
      Memory.overwrite buffer.bytes 0 numBytes.toNat
        fun index => device state (deviceAddress nor lba 0 + index)) :=
    Prod.ext hstatus (hlib.readBlocks _ _ _ _ _ (by rw [hstatus]; rfl))
  refine ⟨?_, hlib.device_readBlocks _ _ _ _ _⟩
  rw [Traced.run_bind, NorFlashLib.norFlashReadBlocks, Traced.run_call, Traced.run_pure]
  dsimp only
  rw [hanswer, hresult, Plan.answer, Option.map_some, Buffer.fill_fetched]

theorem ComesTo.write (hlib : lib.IsStore device) {result : EfiStatus → FlashAnswer}
    {status : EfiStatus}
    (hresult : result .success = { status, numBytes := count, buffer := none }) :
    ComesTo device
      { status, numBytes := count
        op := .edit [{
          start := deviceAddress nor lba offset, length := numBytes.toNat
          source := buffer.bytes }] } none
      (lib.norFlashWrite nor lba offset numBytes buffer >>= fun status => pure (result status)) := by
  intro state hcalls
  have hstatus : (lib.write nor lba offset numBytes buffer state).1 = .success :=
    hcalls _ List.mem_cons_self
  refine ⟨?_, hlib.write _ _ _ _ _ _ (by rw [hstatus]; rfl)⟩
  rw [Traced.run_bind, NorFlashLib.norFlashWrite, Traced.run_call, Traced.run_pure]
  dsimp only
  rw [hstatus, hresult, Plan.answer, Option.map_none]

theorem ComesTo.writeBlocks (hlib : lib.IsStore device) {result : EfiStatus → FlashAnswer}
    (hresult : result .success = { status := .success, numBytes := count, buffer := none }) :
    ComesTo device
      { status := .success, numBytes := count
        op := .edit [{
          start := deviceAddress nor lba 0, length := numBytes.toNat
          source := buffer.bytes }] } none
      (lib.norFlashWriteBlocks nor lba numBytes buffer >>= fun status => pure (result status)) := by
  intro state hcalls
  have hstatus : (lib.writeBlocks nor lba numBytes buffer state).1 = .success :=
    hcalls _ List.mem_cons_self
  refine ⟨?_, hlib.writeBlocks _ _ _ _ _ (by rw [hstatus]; rfl)⟩
  rw [Traced.run_bind, NorFlashLib.norFlashWriteBlocks, Traced.run_call, Traced.run_pure]
  dsimp only
  rw [hstatus, hresult, Plan.answer, Option.map_none]

end

/-! ### Every request comes to its plan -/

section

variable {nor : NorFlashInstance} {lba offset numBytes : UInt64}

theorem fvbRead_of_rejected_eq (hrejected : TransferRejected nor offset numBytes) :
    fvbRead lib nor lba offset numBytes buffer =
      pure { status := .badBufferSize, numBytes := 0, buffer } := by
  unfold fvbRead
  by_cases hlarge : offset ≥ nor.media.blockSize.toUInt64 ∨
      numBytes > nor.media.blockSize.toUInt64
  · exact if_pos hlarge
  · have hzero := eq_zero_of_transferRejected hrejected hlarge
    rw [if_neg hlarge, if_pos hzero, hzero]

theorem fvbWrite_of_rejected_eq (hwritable : nor.media.readOnly = false)
    (hrejected : TransferRejected nor offset numBytes) :
    fvbWrite lib nor lba offset numBytes buffer =
      pure { status := .badBufferSize, numBytes := 0, buffer } := by
  unfold fvbWrite
  rw [if_neg (by simp [hwritable])]
  by_cases hlarge : offset ≥ nor.media.blockSize.toUInt64 ∨
      numBytes > nor.media.blockSize.toUInt64
  · exact if_pos hlarge
  · have hzero := eq_zero_of_transferRejected hrejected hlarge
    rw [if_neg hlarge, if_pos hzero, hzero]

theorem comesTo_fvbRead (hlib : lib.IsStore device) :
    ComesTo device (fvbReadPlan nor lba offset numBytes) (some buffer)
      (fvbRead lib nor lba offset numBytes buffer >>= fun transfer =>
        pure { status := transfer.status, numBytes := some transfer.numBytes
               buffer := some transfer.buffer }) := by
  unfold fvbReadPlan
  by_cases hrejected : TransferRejected nor offset numBytes
  · rw [if_pos hrejected, fvbRead_of_rejected_eq hrejected]
    exact ComesTo.refuse rfl
  · rw [if_neg hrejected]
    obtain ⟨_, hbytes, _⟩ := not_transferRejected_iff.mp hrejected
    rcases UInt64.lt_or_eq_of_le hbytes with hlt | hwhole
    · have hpart : numBytes ≠ nor.media.blockSize.toUInt64 := UInt64.ne_of_lt hlt
      rw [fvbRead_of_part lib lba buffer hrejected hlt, Traced.bind_pure_bind, transferWindow,
        if_neg hpart, transferCount, if_neg hpart]
      exact ComesTo.read hlib fun bytes => rfl
    · rw [fvbRead_of_whole lib lba buffer hrejected hwhole, Traced.bind_pure_bind, transferWindow,
        if_pos hwhole, transferCount, if_pos hwhole]
      exact ComesTo.readBlocks hlib fun bytes => rfl

theorem comesTo_fvbWrite (hlib : lib.IsStore device) :
    ComesTo device (fvbWritePlan nor lba offset numBytes buffer) none
      (fvbWrite lib nor lba offset numBytes buffer >>= fun transfer =>
        pure { status := transfer.status, numBytes := some transfer.numBytes, buffer := none }) := by
  unfold fvbWritePlan
  cases hreadOnly : nor.media.readOnly with
  | true =>
      rw [if_pos rfl, fvbWrite_of_readOnly lib lba buffer hreadOnly]
      exact ComesTo.refuse rfl
  | false =>
      rw [if_neg Bool.false_ne_true]
      by_cases hrejected : TransferRejected nor offset numBytes
      · rw [if_pos hrejected, fvbWrite_of_rejected_eq hreadOnly hrejected]
        exact ComesTo.refuse rfl
      · rw [if_neg hrejected]
        obtain ⟨_, hbytes, _⟩ := not_transferRejected_iff.mp hrejected
        rcases UInt64.lt_or_eq_of_le hbytes with hlt | hwhole
        · have hpart : numBytes ≠ nor.media.blockSize.toUInt64 := UInt64.ne_of_lt hlt
          rw [fvbWrite_of_part lib lba buffer hreadOnly hrejected hlt, Traced.bind_pure_bind,
            transferWindow, if_neg hpart, transferCount, if_neg hpart]
          refine ComesTo.write hlib ?_
          simp [fvbWriteStatus, hpart, EfiStatus.isError, EfiStatus.success]
        · rw [fvbWrite_of_whole lib lba buffer hreadOnly hrejected hwhole, Traced.bind_pure_bind,
            transferWindow, if_pos hwhole, transferCount, if_pos hwhole, fvbWriteStatus,
            if_neg fun hcut => hcut.1 hwhole]
          exact ComesTo.writeBlocks hlib rfl

/-- The second pass of an erase, when every call of it succeeds. -/
theorem run_eraseRanges (hlib : lib.IsStore device) (args : List UInt64) (state : σ)
    (hcalls : ∀ call ∈ ((eraseRanges lib nor .success args).run state).calls, Succeeds call) :
    ((eraseRanges lib nor .success args).run state).value = .success ∧
      device ((eraseRanges lib nor .success args).run state).state =
        applyAll (eraseEdits nor args) (device state) := by
  induction args using eraseEdits.induct generalizing state with
  | case1 numOfLba args =>
      rw [eraseRanges, if_pos rfl, eraseEdits, if_pos rfl]
      exact ⟨rfl, rfl⟩
  | case2 startingLba numOfLba args hstarting ih =>
      rw [eraseRanges, if_neg hstarting] at hcalls ⊢
      rw [eraseEdits, if_neg hstarting, applyAll_cons]
      rw [Traced.run_bind, NorFlashLib.norFlashErase, Traced.run_call] at hcalls ⊢
      have hstatus : (lib.erase nor (nor.startLba + startingLba)
          (numOfLba * nor.media.blockSize.toUInt64) state).1 = .success :=
        hcalls _ List.mem_cons_self
      have herase := hlib.erase nor (nor.startLba + startingLba)
        (numOfLba * nor.media.blockSize.toUInt64) state (by rw [hstatus]; rfl)
      simp only [hstatus] at hcalls ⊢
      obtain ⟨hvalue, hdevice⟩ := ih _ fun call hcall => hcalls call (List.mem_append_right _ hcall)
      exact ⟨hvalue, hdevice.trans (congrArg _ herase)⟩
  | case3 args hargs =>
      rw [eraseRanges.eq_2 lib nor _ args hargs, eraseEdits.eq_2 nor args hargs]
      exact ⟨rfl, rfl⟩

theorem comesTo_fvbEraseBlocks (hlib : lib.IsStore device) (args : List UInt64) :
    ComesTo device (fvbErasePlan nor args) none
      (fvbEraseBlocks lib nor args >>= fun status =>
        pure { status, numBytes := none, buffer := none }) := by
  unfold fvbErasePlan fvbEraseBlocks
  cases nor.media.readOnly with
  | true => exact ComesTo.refuse rfl
  | false =>
      rw [if_neg Bool.false_ne_true, if_neg Bool.false_ne_true]
      cases eraseArgsAccepted nor args with
      | false => exact ComesTo.refuse rfl
      | true =>
          rw [if_pos rfl, if_pos rfl]
          intro state hcalls
          rw [Traced.run_bind, Traced.run_pure, List.append_nil] at hcalls
          obtain ⟨hvalue, hdevice⟩ := run_eraseRanges hlib args state hcalls
          refine ⟨?_, hdevice⟩
          rw [Traced.run_bind, Traced.run_pure, hvalue]
          rfl

/-- The block and the offset that Disk I/O computes make up the offset it was given. -/
theorem deviceAddress_divU64x32Remainder (hsize : 0 < nor.media.blockSize.toNat)
    (diskOffset : UInt64) :
    deviceAddress nor (divU64x32Remainder diskOffset nor.media.blockSize).1
      (divU64x32Remainder diskOffset nor.media.blockSize).2.toUInt64 = diskOffset.toNat := by
  have hremainder : diskOffset.toNat % nor.media.blockSize.toNat < 2 ^ 32 :=
    (Nat.mod_lt _ hsize).trans nor.media.blockSize.toNat_lt
  rw [deviceAddress, divU64x32Remainder]
  dsimp only
  rw [UInt64.toNat_div, UInt32.toNat_toUInt64, UInt32.toNat_toUInt64, UInt64.toNat_toUInt32,
    UInt64.toNat_mod, UInt32.toNat_toUInt64, Nat.mod_eq_of_lt hremainder, Nat.div_add_mod']

end

variable {volume : Volume}

theorem comesTo_blockIoReadBlocks (hlib : lib.IsStore device) (isNull : Bool) (mediaId : UInt32)
    (lba bufferSize : UInt64) :
    ComesTo device (blockIoReadPlan volume.toPublishedInstance isNull mediaId lba bufferSize buffer)
      (some buffer)
      (norFlashBlockIoReadBlocks lib (if isNull then none else some volume.toPublishedInstance)
        mediaId lba bufferSize buffer >>= fun answer =>
          pure { status := answer.1, numBytes := none, buffer := some answer.2 }) := by
  unfold blockIoReadPlan norFlashBlockIoReadBlocks
  cases isNull with
  | true => exact ComesTo.refuse rfl
  | false =>
      simp only [Bool.false_eq_true, if_false, NorFlashInstance.blockIoMedia, volume.media_ne_null]
      split_ifs with hpresent hmedia halign
      · exact ComesTo.refuse rfl
      · exact ComesTo.refuse rfl
      · exact ComesTo.refuse rfl
      · rw [Traced.bind_pure_bind]
        exact ComesTo.readBlocks hlib fun bytes => rfl

theorem comesTo_blockIoWriteBlocks (hlib : lib.IsStore device) (mediaId : UInt32)
    (lba bufferSize : UInt64) :
    ComesTo device (blockIoWritePlan volume.toPublishedInstance mediaId lba bufferSize buffer) none
      (norFlashBlockIoWriteBlocks lib volume.toPublishedInstance mediaId lba bufferSize buffer >>=
        fun status => pure { status, numBytes := none, buffer := none }) := by
  unfold blockIoWritePlan norFlashBlockIoWriteBlocks
  split_ifs with hpresent hmedia hreadOnly
  · exact ComesTo.refuse rfl
  · exact ComesTo.refuse rfl
  · exact ComesTo.refuse rfl
  · exact ComesTo.writeBlocks hlib rfl

theorem comesTo_diskIoReadDisk (hlib : lib.IsStore device) (mediaId : UInt32)
    (diskOffset bufferSize : UInt64) :
    ComesTo device (diskIoReadPlan volume.toPublishedInstance mediaId diskOffset bufferSize)
      (some buffer)
      (norFlashDiskIoReadDisk lib volume.toPublishedInstance mediaId diskOffset bufferSize buffer >>=
        fun answer => pure { status := answer.1, numBytes := none, buffer := some answer.2 }) := by
  unfold diskIoReadPlan norFlashDiskIoReadDisk
  split_ifs with hmedia
  · exact ComesTo.refuse rfl
  · rw [Traced.bind_pure_bind,
      ← deviceAddress_divU64x32Remainder volume.blockSize_pos diskOffset]
    exact ComesTo.read hlib fun bytes => rfl

theorem comesTo_diskIoWriteDisk (hlib : lib.IsStore device) (mediaId : UInt32)
    (diskOffset bufferSize : UInt64) :
    ComesTo device (diskIoWritePlan volume.toPublishedInstance mediaId diskOffset bufferSize buffer)
      none
      (norFlashDiskIoWriteDisk lib volume.toPublishedInstance mediaId diskOffset bufferSize buffer >>=
        fun status => pure { status, numBytes := none, buffer := none }) := by
  unfold diskIoWritePlan norFlashDiskIoWriteDisk
  split_ifs with hmedia
  · exact ComesTo.refuse rfl
  · rw [← deviceAddress_divU64x32Remainder volume.blockSize_pos diskOffset]
    exact ComesTo.write hlib rfl

/-- **Every request comes to its plan.** -/
theorem comesTo_serve (hlib : lib.IsStore device) (request : FlashRequest) :
    ComesTo device (request.plan volume.toPublishedInstance) request.buffer?
      (request.serve lib volume.toPublishedInstance) := by
  cases request with
  | blockIoReadBlocks isNull mediaId lba bufferSize buffer =>
      exact comesTo_blockIoReadBlocks hlib isNull mediaId lba bufferSize
  | blockIoWriteBlocks mediaId lba bufferSize buffer =>
      exact comesTo_blockIoWriteBlocks hlib mediaId lba bufferSize
  | blockIoFlushBlocks =>
      intro state _
      exact ⟨rfl, rfl⟩
  | diskIoReadDisk mediaId diskOffset bufferSize buffer =>
      exact comesTo_diskIoReadDisk hlib mediaId diskOffset bufferSize
  | diskIoWriteDisk mediaId diskOffset bufferSize buffer =>
      exact comesTo_diskIoWriteDisk hlib mediaId diskOffset bufferSize
  | fvb request =>
      cases request with
      | read lba offset numBytes buffer => exact comesTo_fvbRead hlib
      | write lba offset numBytes buffer => exact comesTo_fvbWrite hlib
  | fvbEraseBlocks args => exact comesTo_fvbEraseBlocks hlib args

/-! ### Runs -/

abbrev flashSteps (lib : NorFlashLib σ) (volume : Volume) (requests : List FlashRequest) (state : σ) :
    List (Traced.Step FlashRequest Call FlashAnswer) :=
  Traced.steps (FlashRequest.serve lib volume.toPublishedInstance) requests state

abbrev flashAfter (lib : NorFlashLib σ) (volume : Volume) (requests : List FlashRequest) (state : σ) :
    σ :=
  Traced.after (FlashRequest.serve lib volume.toPublishedInstance) requests state

/-- No call that the run makes fails. -/
def RunSucceeds (lib : NorFlashLib σ) (volume : Volume) (requests : List FlashRequest) (state : σ) :
    Prop :=
  ∀ step ∈ flashSteps lib volume requests state, ∀ call ∈ step.calls, Succeeds call

instance (lib : NorFlashLib σ) (volume : Volume) (requests : List FlashRequest) (state : σ) :
    Decidable (RunSucceeds lib volume requests state) :=
  inferInstanceAs
    (Decidable (∀ step ∈ flashSteps lib volume requests state, ∀ call ∈ step.calls, Succeeds call))

theorem run_refines_flashStore (hlib : lib.IsStore device) {requests : List FlashRequest} {state : σ}
    (hsuccess : RunSucceeds lib volume requests state) :
    (flashSteps lib volume requests state).map (fun step => (step.request, step.value)) =
        (flashStore volume.toPublishedInstance).answers requests (device state) ∧
      device (flashAfter lib volume requests state) =
        (flashStore volume.toPublishedInstance).after requests (device state) :=
  Traced.run_refines (fun request state => comesTo_serve hlib request state) hsuccess

/-- What the requests of a run do to the store, edit by edit. -/
def flashEdits (volume : Volume) (requests : List FlashRequest) : List (Edit UInt8) :=
  requests.flatMap fun request => (request.plan volume.toPublishedInstance).op.edits

theorem flashEdits_cons (request : FlashRequest) (requests : List FlashRequest) :
    flashEdits volume (request :: requests) =
      (request.plan volume.toPublishedInstance).op.edits ++ flashEdits volume requests :=
  List.flatMap_cons

theorem flashEdits_append (first second : List FlashRequest) :
    flashEdits volume (first ++ second) = flashEdits volume first ++ flashEdits volume second :=
  List.flatMap_append

theorem after_flashStore (requests : List FlashRequest) (store : Nat → UInt8) :
    (flashStore volume.toPublishedInstance).after requests store =
      applyAll (flashEdits volume requests) store := by
  induction requests generalizing store with
  | nil => rfl
  | cons request requests ih =>
      rw [Machine.after_cons, ih, flashEdits_cons, applyAll_append]
      rfl

theorem device_flashAfter (hlib : lib.IsStore device) {requests : List FlashRequest} {state : σ}
    (hsuccess : RunSucceeds lib volume requests state) :
    device (flashAfter lib volume requests state) =
      applyAll (flashEdits volume requests) (device state) := by
  rw [(run_refines_flashStore hlib hsuccess).2, after_flashStore]

/-- **One store.** In every run over the three protocols in which no call of the library fails, the
answers are those of one store of bytes, and every byte of the device is what the latest edit of it
left. -/
theorem flash_is_one_store (lib : NorFlashLib σ) (device : σ → Nat → UInt8) (volume : Volume)
    (requests : List FlashRequest) (state : σ) (hlib : lib.IsStore device)
    (hsuccess : RunSucceeds lib volume requests state) :
    (flashSteps lib volume requests state).map (fun step => (step.request, step.value)) =
        (flashStore volume.toPublishedInstance).answers requests (device state) ∧
      ∀ address, device (flashAfter lib volume requests state) address =
        (latest address (flashEdits volume requests)).getD (device state address) := by
  refine ⟨(run_refines_flashStore hlib hsuccess).1, fun address => ?_⟩
  rw [device_flashAfter hlib hsuccess, applyAll_eq_latest]

end

def sampleVolume : Volume where
  toPublishedInstance := samplePublished false
  blockSize_pos := sampleFvb.blockSize_pos
  region_le := sampleFvb.region_le
  size_lt := sampleFvb.size_lt

/-- A byte written through Disk I/O, erased and written through FVB, and read through both. -/
def sampleRun : List FlashRequest := [
  .diskIoWriteDisk 0 0x703004 4 sampleBuffer,
  .fvbEraseBlocks [3, 1, efiLbaListTerminator],
  .fvb (.write 3 4 8 sampleBuffer),
  .diskIoReadDisk 0 0x703000 16 sampleBuffer,
  .fvb (.read 3 0 0x10 sampleBuffer)]

theorem sampleRun_succeeds :
    RunSucceeds NorFlashLib.ideal sampleVolume sampleRun countingDevice := by
  decide

theorem flash_is_one_store_sample :
    (flashSteps NorFlashLib.ideal sampleVolume sampleRun countingDevice).map
        (fun step => (step.request, step.value)) =
        (flashStore sampleVolume.toPublishedInstance).answers sampleRun countingDevice ∧
      ∀ address, flashAfter NorFlashLib.ideal sampleVolume sampleRun countingDevice address =
        (latest address (flashEdits sampleVolume sampleRun)).getD (countingDevice address) :=
  flash_is_one_store NorFlashLib.ideal id sampleVolume sampleRun countingDevice
    NorFlashLib.ideal_isStore sampleRun_succeeds

end OrionO6.Flash
