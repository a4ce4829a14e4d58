import OrionO6.Platform.Coverage
import Mathlib.Data.List.Pairwise

/-!
# Two views of the memory

The table tells the MMU how to map an address, and the HOBs tell the DXE core what is there. Both are
written by one function but read by different code, which puts them side by side address by address.
-/

namespace OrionO6.Platform

/-- The memory type that the MMU gives to a region with these attributes. -/
def ArmMemoryRegionAttributes.memoryType : ArmMemoryRegionAttributes → UInt64
  | none => 0
  | uncachedUnbuffered => memoryWc
  | writeBack => memoryWb
  | device => memoryUc

/-- The capability of a resource that stands for this memory type. -/
def ArmMemoryRegionAttributes.capability : ArmMemoryRegionAttributes → UInt32
  | none => 0
  | uncachedUnbuffered => resourceAttributeWriteCombineable
  | writeBack => resourceAttributeWriteBackCacheable
  | device => resourceAttributeUncacheable

/-- An entry and a HOB say the same: the same range, the memory type of the mapping, which is one the
resource is capable of, and a device where the MMU maps one. -/
structure Agree (entry : ArmMemoryRegionDescriptor) (hob : ResourceDescriptorHobV2) : Prop where
  start_eq : hob.physicalStart = entry.physicalBase
  length_eq : hob.resourceLength = entry.length
  memoryType_eq : hob.memoryType = entry.attributes.memoryType
  capable : hob.resourceAttribute &&& entry.attributes.capability ≠ 0
  memoryMappedIo_iff : hob.resourceType = .memoryMappedIo ↔ entry.attributes = .device

theorem agree_of_mem_reportedRegions {pcds : MemoryPcds} {systemMemoryEnd : UInt64}
    {report : Bool × UInt64} {region : Region}
    (hmem : region ∈ reportedRegions pcds systemMemoryEnd report) :
    Agree region.entry region.hob := by
  have hregions : region ∈ fixedRegions pcds ++ [useableSystemRam pcds systemMemoryEnd,
      upperMmio pcds systemMemoryEnd, systemDramHighSpace pcds report.2] := by
    rw [reportedRegions, highRegions] at hmem
    cases report.1 <;> simp at hmem ⊢ <;> tauto
  simp only [fixedRegions, List.cons_append, List.nil_append, List.mem_cons, List.not_mem_nil,
    or_false] at hregions
  rcases hregions with rfl | rfl | rfl | rfl | rfl | rfl | rfl | rfl <;>
    refine ⟨rfl, rfl, rfl, ?_, ?_⟩ <;>
    simp only [Region.hob, Region.entry, deviceMmio, reservedSecureMemory, reservedSharedMemory,
      uefiSpinorImage, framebufferMemory, useableSystemRam, upperMmio, systemDramHighSpace] <;>
    decide

/-- Two of the regions that share an address are one. -/
theorem eq_of_mem_range {regions : List Region} {start : Nat}
    (hascend : Ranges.Ascend start (regions.map Region.range) (2 ^ 64)) {region other : Region}
    (hregion : region ∈ regions) (hother : other ∈ regions) {address : Nat}
    (hmem : address ∈ region.range.toSet) (hmem' : address ∈ other.range.toSet) :
    region = other := by
  have hdisjoint := List.pairwise_map.mp hascend.pairwise_disjoint
  have : Std.Symm fun left right : Region => Disjoint left.range.toSet right.range.toSet :=
    ⟨fun _ _ hleft => hleft.symm⟩
  by_contra hne
  exact Set.disjoint_left.mp (hdisjoint.forall hregion hother hne) hmem hmem'

/-- The end marker covers nothing. -/
theorem exists_region_of_mem {regions : List Region} {entry : ArmMemoryRegionDescriptor}
    {address : Nat} (hentry : entry ∈ regions.map Region.entry ++ [MemoryMap.endOfTable])
    (hmem : address ∈ entry.range.toSet) : ∃ region ∈ regions, region.entry = entry := by
  rcases List.mem_append.mp hentry with hentry | hentry
  · exact List.mem_map.mp hentry
  · rw [List.mem_singleton.mp hentry] at hmem
    exact absurd hmem.2 (Nat.not_lt_zero _)

/-- The end of what is described. -/
def describedEnd (dramHighSpaceBase : UInt64) (report : Bool × UInt64) : Nat :=
  dramHighSpaceBase.toNat + if report.1 then report.2.toNat else 0

section

variable {dramHighSpaceBase systemMemoryEnd : UInt64} {report : Bool × UInt64}

theorem cover_reportedRegions (hend : 0x85000000 ≤ systemMemoryEnd.toNat)
    (hhigh : systemMemoryEnd.toNat < dramHighSpaceBase.toNat) :
    Ranges.cover ((reportedRegions (platformPcds dramHighSpaceBase) systemMemoryEnd report).map
      Region.range) =
        Set.Ico 0x1000 0x84600000 ∪ Set.Ico 0x84800000 (describedEnd dramHighSpaceBase report) := by
  have hlow : Ranges.Adjoin 0x1000 [(⟨0x1000, 0x80000000⟩ : Ranges.Range Nat),
      ⟨0x80000000, 0x82500000⟩, ⟨0x82500000, 0x84400000⟩, ⟨0x84400000, 0x84600000⟩]
        0x84600000 := by
    simp [Ranges.Adjoin]
  have hupper : Ranges.Adjoin dramHighSpaceBase.toNat
      ((highRegions (platformPcds dramHighSpaceBase) report).map Region.range)
      (describedEnd dramHighSpaceBase report) := by
    rw [highRegions, describedEnd]
    cases report.1 with
    | true => exact ⟨rfl, Nat.le_add_right _ _, rfl⟩
    | false => exact rfl
  have hhighest : Ranges.Adjoin 0x84800000 ([(⟨0x84800000, 0x85000000⟩ : Ranges.Range Nat),
      ⟨0x85000000, systemMemoryEnd.toNat + 1⟩] ++
        (⟨systemMemoryEnd.toNat + 1, dramHighSpaceBase.toNat⟩ ::
          (highRegions (platformPcds dramHighSpaceBase) report).map Region.range))
      (describedEnd dramHighSpaceBase report) :=
    ⟨rfl, by decide, rfl, Nat.le_succ_of_le hend, rfl, hhigh, hupper⟩
  rw [reportedRegions_ranges hend hhigh, ← List.append_assoc, Ranges.cover_append,
    hhighest.cover_eq]
  exact congrArg (· ∪ _) hlow.cover_eq

end

/-- **The two views agree.** Up to the end of the high space every address but the first page and the
2 MiB before the framebuffer is described, by one entry of the table and one HOB, and these say the
same of it. -/
theorem views_agree (memOutputBufferSig : UInt32)
    (dramHighSpaceBase systemMemoryEnd virtualMemoryTable : UInt64) (memInfo : MemInitOutputBuffer)
    (hallocated : virtualMemoryTable ≠ 0) (hend : 0x85000000 ≤ systemMemoryEnd.toNat)
    (hhigh : systemMemoryEnd.toNat + 1 < dramHighSpaceBase.toNat)
    (hsize : dramHighSpaceBase.toNat + (reportDramHighSpace memOutputBufferSig memInfo).2.toNat ≤
      2 ^ 64) :
    ∃ map,
      armPlatformGetVirtualMemoryMap memOutputBufferSig (platformPcds dramHighSpaceBase)
        systemMemoryEnd memInfo virtualMemoryTable = some map ∧
      ∀ address : UInt64,
        (map.Describes address ↔
          address.toNat ∈ Set.Ico 0x1000 0x84600000 ∪ Set.Ico 0x84800000
            (describedEnd dramHighSpaceBase (reportDramHighSpace memOutputBufferSig memInfo))) ∧
        ∀ entry ∈ map.virtualMemoryTable, address.toNat ∈ entry.range.toSet →
          (∀ other ∈ map.virtualMemoryTable, address.toNat ∈ other.range.toSet → other = entry) ∧
          ∀ hob ∈ map.hobs, address.toNat ∈ hob.range.toSet → Agree entry hob := by
  have hascend :=
    reportedRegions_ascend hend hhigh (dramHighSize_pos memOutputBufferSig memInfo) hsize
  refine ⟨_, armPlatformGetVirtualMemoryMap_eq _ _ _ _ hallocated, fun address => ⟨?_, ?_⟩⟩
  · rw [describes_iff_mem_cover, cover_reportedRegions hend (Nat.lt_of_succ_lt hhigh)]
  · intro entry hentry hmem
    obtain ⟨region, hregion, rfl⟩ := exists_region_of_mem hentry hmem
    constructor
    · intro other hother hmem'
      obtain ⟨otherRegion, hotherRegion, rfl⟩ := exists_region_of_mem hother hmem'
      rw [eq_of_mem_range hascend hotherRegion hregion hmem' hmem]
    · intro hob hhob hmem'
      obtain ⟨otherRegion, hotherRegion, rfl⟩ := List.mem_map.mp hhob
      rw [eq_of_mem_range hascend hotherRegion hregion hmem' hmem]
      exact agree_of_mem_reportedRegions hregion

theorem views_agree_sample :
    ∃ map,
      armPlatformGetVirtualMemoryMap 0x314D454D (platformPcds 0x400000000) 0x17FFFFFFF
        sampleMemInfo 0x90000000 = some map ∧
      ∀ address : UInt64,
        (map.Describes address ↔
          address.toNat ∈ Set.Ico 0x1000 0x84600000 ∪ Set.Ico 0x84800000
            (describedEnd 0x400000000 (reportDramHighSpace 0x314D454D sampleMemInfo))) ∧
        ∀ entry ∈ map.virtualMemoryTable, address.toNat ∈ entry.range.toSet →
          (∀ other ∈ map.virtualMemoryTable, address.toNat ∈ other.range.toSet → other = entry) ∧
          ∀ hob ∈ map.hobs, address.toNat ∈ hob.range.toSet → Agree entry hob :=
  views_agree 0x314D454D 0x400000000 0x17FFFFFFF 0x90000000 sampleMemInfo (by decide) (by decide)
    (by decide) (by decide)

end OrionO6.Platform
