import Mathlib.Data.List.Nodup
import Mathlib.Data.List.ProdSigma
import OrionO6.Flash.Instance

/-!
# Relocating the pointers of the instances

When the OS switches to virtual addressing, `NorFlashVirtualNotifyEvent` converts the pointers of every
instance, one by one. Among the pointers that the entry points depend on it leaves out one,
`BlockIoProtocol.Media`.
-/

namespace OrionO6.Flash

inductive PointerField where
  | deviceBaseAddress | regionBaseAddress | shadowBuffer
  | blockIoMedia | blockIoReset | blockIoReadBlocks | blockIoWriteBlocks | blockIoFlushBlocks
  | diskIoReadDisk | diskIoWriteDisk
  | fvbGetAttributes | fvbSetAttributes | fvbGetPhysicalAddress | fvbGetBlockSize | fvbRead | fvbWrite
  | fvbEraseBlocks
  deriving DecidableEq

namespace PointerField

def get (nor : NorFlashInstance) : PointerField → UInt64
  | deviceBaseAddress => nor.deviceBaseAddress
  | regionBaseAddress => nor.regionBaseAddress
  | shadowBuffer => nor.shadowBuffer
  | blockIoMedia => nor.blockIoProtocol.media
  | blockIoReset => nor.blockIoProtocol.reset
  | blockIoReadBlocks => nor.blockIoProtocol.readBlocks
  | blockIoWriteBlocks => nor.blockIoProtocol.writeBlocks
  | blockIoFlushBlocks => nor.blockIoProtocol.flushBlocks
  | diskIoReadDisk => nor.diskIoProtocol.readDisk
  | diskIoWriteDisk => nor.diskIoProtocol.writeDisk
  | fvbGetAttributes => nor.fvbProtocol.getAttributes
  | fvbSetAttributes => nor.fvbProtocol.setAttributes
  | fvbGetPhysicalAddress => nor.fvbProtocol.getPhysicalAddress
  | fvbGetBlockSize => nor.fvbProtocol.getBlockSize
  | fvbRead => nor.fvbProtocol.read
  | fvbWrite => nor.fvbProtocol.write
  | fvbEraseBlocks => nor.fvbProtocol.eraseBlocks

def set (nor : NorFlashInstance) (value : UInt64) : PointerField → NorFlashInstance
  | deviceBaseAddress => { nor with deviceBaseAddress := value }
  | regionBaseAddress => { nor with regionBaseAddress := value }
  | shadowBuffer => { nor with shadowBuffer := value }
  | blockIoMedia => { nor with blockIoProtocol.media := value }
  | blockIoReset => { nor with blockIoProtocol.reset := value }
  | blockIoReadBlocks => { nor with blockIoProtocol.readBlocks := value }
  | blockIoWriteBlocks => { nor with blockIoProtocol.writeBlocks := value }
  | blockIoFlushBlocks => { nor with blockIoProtocol.flushBlocks := value }
  | diskIoReadDisk => { nor with diskIoProtocol.readDisk := value }
  | diskIoWriteDisk => { nor with diskIoProtocol.writeDisk := value }
  | fvbGetAttributes => { nor with fvbProtocol.getAttributes := value }
  | fvbSetAttributes => { nor with fvbProtocol.setAttributes := value }
  | fvbGetPhysicalAddress => { nor with fvbProtocol.getPhysicalAddress := value }
  | fvbGetBlockSize => { nor with fvbProtocol.getBlockSize := value }
  | fvbRead => { nor with fvbProtocol.read := value }
  | fvbWrite => { nor with fvbProtocol.write := value }
  | fvbEraseBlocks => { nor with fvbProtocol.eraseBlocks := value }

theorem get_set_self (nor : NorFlashInstance) (value : UInt64) (field : PointerField) :
    field.get (field.set nor value) = value := by
  cases field <;> rfl

theorem get_set_of_ne (nor : NorFlashInstance) (value : UInt64) {field other : PointerField}
    (hne : other ≠ field) : other.get (field.set nor value) = other.get nor := by
  cases field <;> cases other <;> first | rfl | exact absurd rfl hne

end PointerField

/-! ### The conversion -/

abbrev Location := Nat × PointerField

def pointerAt (location : Location) (instances : List NorFlashInstance) : Option UInt64 :=
  (instances[location.1]?).map location.2.get

def convertAt (conv : UInt64 → UInt64) (location : Location) (instances : List NorFlashInstance) :
    List NorFlashInstance :=
  instances.modify location.1 fun nor => location.2.set nor (conv (location.2.get nor))

/-- The pointers that are converted without a check, in the order of the source. -/
def convertedFields : List PointerField := [
  .deviceBaseAddress, .regionBaseAddress,
  .blockIoFlushBlocks, .blockIoReadBlocks, .blockIoReset, .blockIoWriteBlocks,
  .diskIoReadDisk, .diskIoWriteDisk,
  .fvbEraseBlocks, .fvbGetAttributes, .fvbGetBlockSize, .fvbGetPhysicalAddress, .fvbRead,
  .fvbSetAttributes, .fvbWrite]

/-- A computation that converts pointers, `EfiConvertPointer` being the service. -/
abbrev Conversion := Traced (List NorFlashInstance) Location Unit

def convertInstance (conv : UInt64 → UInt64) (index : Nat) : Conversion := do
  Traced.visitAll (convertAt conv) (convertedFields.map (Prod.mk index))
  let instances ← Traced.observe
  if pointerAt (index, .shadowBuffer) instances ≠ some 0 then
    Traced.visitAll (convertAt conv) [(index, .shadowBuffer)]
  else
    pure ()

def convertInstances (conv : UInt64 → UInt64) : List Nat → Conversion
  | [] => pure ()
  | index :: indices => do
      convertInstance conv index
      convertInstances conv indices

/-- `NorFlashVirtualNotifyEvent`, with `mNorFlashDeviceCount` instances. -/
def norFlashVirtualNotifyEvent (conv : UInt64 → UInt64) (deviceCount : Nat) : Conversion :=
  convertInstances conv (List.range deviceCount)

section

variable (conv : UInt64 → UInt64)

theorem pointerAt_convertAt_self (location : Location) (instances : List NorFlashInstance) :
    pointerAt location (convertAt conv location instances) =
      (pointerAt location instances).map conv := by
  rw [pointerAt, pointerAt, convertAt, List.getElem?_modify_eq]
  cases instances[location.1]? with
  | none => rfl
  | some nor => exact congrArg some (PointerField.get_set_self nor _ location.2)

theorem pointerAt_convertAt_of_ne (location other : Location) (instances : List NorFlashInstance)
    (hne : other ≠ location) :
    pointerAt other (convertAt conv location instances) = pointerAt other instances := by
  rw [pointerAt, pointerAt, convertAt]
  by_cases hindex : location.1 = other.1
  · have hfield : other.2 ≠ location.2 := fun hfield => hne (Prod.ext hindex.symm hfield)
    rw [hindex, List.getElem?_modify_eq]
    cases instances[other.1]? with
    | none => rfl
    | some nor => exact congrArg some (PointerField.get_set_of_ne nor _ hfield)
  · rw [List.getElem?_modify_ne _ _ hindex]

def allConvertedFields : List PointerField := convertedFields ++ [.shadowBuffer]

theorem mem_allConvertedFields {field : PointerField} :
    field ∈ allConvertedFields ↔ field ≠ .blockIoMedia := by
  cases field <;> decide

def convertAll (locations : List Location) (instances : List NorFlashInstance) :
    List NorFlashInstance :=
  locations.foldl (fun instances location => convertAt conv location instances) instances

/-- **One round.** An instance with a shadow buffer has all its pointers converted but one. -/
theorem run_convertInstance {index : Nat} {instances : List NorFlashInstance}
    (hshadow : pointerAt (index, .shadowBuffer) instances ≠ some 0) :
    (convertInstance conv index).run instances =
      ⟨(), convertAll conv (allConvertedFields.map (Prod.mk index)) instances,
        allConvertedFields.map (Prod.mk index)⟩ := by
  have hnotYet : (index, PointerField.shadowBuffer) ∉ convertedFields.map (Prod.mk index) := by
    rw [List.mem_map]
    rintro ⟨field, hfield, heq⟩
    cases heq
    revert hfield
    decide
  have hstill : pointerAt (index, .shadowBuffer)
      (convertAll conv (convertedFields.map (Prod.mk index)) instances) ≠ some 0 := by
    rw [convertAll, Traced.read_foldl_visit_of_notMem (pointerAt_convertAt_of_ne conv) hnotYet]
    exact hshadow
  rw [convertAll] at hstill
  simp only [convertInstance, Traced.run_bind, Traced.run_visitAll, Traced.run_observe, hstill,
    ne_eq, not_false_eq_true, if_true]
  simp only [allConvertedFields, List.map_append, convertAll, List.foldl_append, List.nil_append]
  rfl

theorem run_convertInstances {indices : List Nat} (hnodup : indices.Nodup) :
    ∀ instances : List NorFlashInstance,
      (∀ index ∈ indices, pointerAt (index, .shadowBuffer) instances ≠ some 0) →
      (convertInstances conv indices).run instances =
        ⟨(), convertAll conv (indices ×ˢ allConvertedFields) instances,
          indices ×ˢ allConvertedFields⟩ := by
  induction indices with
  | nil =>
      intro instances _
      rfl
  | cons index indices ih =>
      intro instances hshadow
      obtain ⟨hfresh, hrest⟩ := List.nodup_cons.mp hnodup
      have hlater : ∀ other ∈ indices, pointerAt (other, .shadowBuffer)
          (convertAll conv (allConvertedFields.map (Prod.mk index)) instances) ≠ some 0 := by
        intro other hother
        have hnotMem : (other, PointerField.shadowBuffer) ∉
            allConvertedFields.map (Prod.mk index) := by
          rw [List.mem_map]
          rintro ⟨field, _, heq⟩
          cases heq
          exact hfresh hother
        rw [convertAll, Traced.read_foldl_visit_of_notMem (pointerAt_convertAt_of_ne conv) hnotMem]
        exact hshadow other (List.mem_cons_of_mem _ hother)
      rw [convertInstances, Traced.run_bind, run_convertInstance conv (hshadow _ List.mem_cons_self),
        ih hrest _ hlater, List.product_cons]
      simp only [convertAll, List.foldl_append]

end

/-! ### What the entry points need -/

/-- The entry points of the three protocols that may be called after the switch. -/
inductive EntryPoint where
  | blockIoReset | blockIoReadBlocks | blockIoWriteBlocks | blockIoFlushBlocks
  | diskIoReadDisk | diskIoWriteDisk
  | fvbGetAttributes | fvbGetBlockSize | fvbRead | fvbWrite | fvbEraseBlocks

def libraryPointers : List PointerField := [.deviceBaseAddress, .regionBaseAddress, .shadowBuffer]

/-- The pointers an entry point is called through, dereferences or computes an address from. -/
def EntryPoint.pointers : EntryPoint → List PointerField
  | blockIoReset => [.blockIoReset, .blockIoMedia] ++ libraryPointers
  | blockIoReadBlocks => [.blockIoReadBlocks, .blockIoMedia] ++ libraryPointers
  | blockIoWriteBlocks => [.blockIoWriteBlocks, .blockIoMedia] ++ libraryPointers
  | blockIoFlushBlocks => [.blockIoFlushBlocks]
  | diskIoReadDisk => [.diskIoReadDisk] ++ libraryPointers
  | diskIoWriteDisk => [.diskIoWriteDisk] ++ libraryPointers
  | fvbGetAttributes => [.fvbGetAttributes]
  | fvbGetBlockSize => [.fvbGetBlockSize]
  | fvbRead => [.fvbRead] ++ libraryPointers
  | fvbWrite => [.fvbWrite] ++ libraryPointers
  | fvbEraseBlocks => [.fvbEraseBlocks, .deviceBaseAddress] ++ libraryPointers

def Relocated (conv : UInt64 → UInt64) (instances : List NorFlashInstance) (location : Location) :
    Prop :=
  pointerAt location ((norFlashVirtualNotifyEvent conv instances.length).run instances).state =
      (pointerAt location instances).map conv ∧
    ((norFlashVirtualNotifyEvent conv instances.length).run instances).calls.count location = 1

theorem relocated_location_iff (conv : UInt64 → UInt64) {instances : List NorFlashInstance}
    (hshadow : ∀ nor ∈ instances, nor.shadowBuffer ≠ 0) {index : Nat}
    (hindex : index < instances.length) (field : PointerField) :
    Relocated conv instances (index, field) ↔ field ≠ .blockIoMedia := by
  have hshadowAt : ∀ index ∈ List.range instances.length,
      pointerAt (index, .shadowBuffer) instances ≠ some 0 := by
    intro index _ hzero
    obtain ⟨nor, hnor, hbuffer⟩ := Option.map_eq_some_iff.mp hzero
    exact hshadow nor (List.mem_of_getElem? hnor) hbuffer
  have hmem : (index, field) ∈ List.range instances.length ×ˢ allConvertedFields ↔
      field ≠ .blockIoMedia := by
    rw [List.mem_product, mem_allConvertedFields, List.mem_range, and_iff_right hindex]
  have hnodup : (List.range instances.length ×ˢ allConvertedFields).Nodup :=
    List.nodup_range.product (by decide)
  rw [Relocated, norFlashVirtualNotifyEvent,
    run_convertInstances conv List.nodup_range instances hshadowAt]
  constructor
  · rintro ⟨_, hcount⟩
    rw [← hmem]
    by_contra hnotMem
    rw [List.count_eq_zero_of_not_mem hnotMem] at hcount
    cases hcount
  · intro hfield
    have hvisited := hmem.mpr hfield
    exact ⟨Traced.read_foldl_visit_of_mem (pointerAt_convertAt_self conv)
      (pointerAt_convertAt_of_ne conv) hnodup hvisited instances,
      List.count_eq_one_of_mem hnodup hvisited⟩

/-- **Relocation.** Of the pointers that the entry points need, in any number of instances and under
any address map, all are relocated but `BlockIoProtocol.Media`; so all of them are relocated when
there is no instance, and otherwise never. -/
theorem relocated_iff (conv : UInt64 → UInt64) (instances : List NorFlashInstance)
    (hshadow : ∀ nor ∈ instances, nor.shadowBuffer ≠ 0) :
    (∀ index < instances.length, ∀ entry : EntryPoint, ∀ field ∈ entry.pointers,
      (Relocated conv instances (index, field) ↔ field ≠ .blockIoMedia)) ∧
    ((∀ index < instances.length, ∀ entry : EntryPoint, ∀ field ∈ entry.pointers,
      Relocated conv instances (index, field)) ↔ instances = []) := by
  constructor
  · intro index hindex entry field _
    exact relocated_location_iff conv hshadow hindex field
  · constructor
    · intro hall
      by_contra hne
      have hfirst := List.length_pos_of_ne_nil hne
      have hmedia := hall 0 hfirst .blockIoReadBlocks .blockIoMedia (by decide)
      exact (relocated_location_iff conv hshadow hfirst .blockIoMedia).mp hmedia rfl
    · intro hnil index hindex
      rw [hnil] at hindex
      cases hindex

/-- With one instance and everything moved up, the driver reads its media through the address that
was valid at boot. -/
theorem not_relocated_media :
    pointerAt (0, .blockIoMedia) ((norFlashVirtualNotifyEvent (· + 0x80000000) 1).run
        [sampleInstance false]).state = some 0x2000 ∧
      PointerField.blockIoMedia ∈ EntryPoint.blockIoReadBlocks.pointers ∧
      ¬ Relocated (· + 0x80000000) [sampleInstance false] (0, .blockIoMedia) := by
  refine ⟨by decide, by decide, ?_⟩
  rintro ⟨_, hcount⟩
  revert hcount
  decide

theorem relocated_iff_sample :
    (∀ index < [sampleInstance false].length, ∀ entry : EntryPoint, ∀ field ∈ entry.pointers,
      (Relocated (· + 0x80000000) [sampleInstance false] (index, field) ↔
        field ≠ .blockIoMedia)) ∧
    ((∀ index < [sampleInstance false].length, ∀ entry : EntryPoint, ∀ field ∈ entry.pointers,
      Relocated (· + 0x80000000) [sampleInstance false] (index, field)) ↔
        [sampleInstance false] = []) := by
  refine relocated_iff (· + 0x80000000) [sampleInstance false] ?_
  intro nor hnor
  rw [List.mem_singleton.mp hnor]
  decide

end OrionO6.Flash
