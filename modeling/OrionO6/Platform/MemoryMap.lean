import OrionO6.Library.Ranges
import Mathlib.Algebra.Order.Ring.Nat

/-!
# The platform memory map

`ArmPlatformGetVirtualMemoryMap` describes the address space twice over: in the table that the MMU
is set up from, and in the resource descriptor HOBs. The end of the memory and the base of the high
space come from other code, and how much high space there is from the SMEM buffer.
-/

namespace OrionO6.Platform

inductive ResourceType where
  | systemMemory | memoryMappedIo | memoryReserved
  deriving DecidableEq

/-- `ARM_MEMORY_REGION_ATTRIBUTES`. The end marker has the value zero, `none` here. -/
inductive ArmMemoryRegionAttributes where
  | none | uncachedUnbuffered | writeBack | device
  deriving DecidableEq

structure ArmMemoryRegionDescriptor where
  physicalBase : UInt64
  virtualBase : UInt64
  length : UInt64
  attributes : ArmMemoryRegionAttributes
  deriving DecidableEq

/-- `EFI_HOB_RESOURCE_DESCRIPTOR_V2`. -/
structure ResourceDescriptorHobV2 where
  resourceType : ResourceType
  resourceAttribute : UInt32
  physicalStart : UInt64
  resourceLength : UInt64
  memoryType : UInt64
  deriving DecidableEq

def resourceAttributePresent : UInt32 := 0x1
def resourceAttributeInitialized : UInt32 := 0x2
def resourceAttributeTested : UInt32 := 0x4
def resourceAttributeUncacheable : UInt32 := 0x400
def resourceAttributeWriteCombineable : UInt32 := 0x800
def resourceAttributeWriteBackCacheable : UInt32 := 0x2000

/-- `EFI_RESOURCE_ATTRIBUTE_PIT`. -/
def resourceAttributePit : UInt32 :=
  resourceAttributePresent ||| resourceAttributeInitialized ||| resourceAttributeTested

def memoryUc : UInt64 := 0x1
def memoryWc : UInt64 := 0x2
def memoryWb : UInt64 := 0x8

def maxVirtualMemoryMapDescriptors : Nat := 11

structure MemoryPcds where
  systemMemoryBase : UInt64
  reservedSecureMemoryBase : UInt32
  reservedSecureMemorySize : UInt32
  reservedShareMemoryBase : UInt32
  reservedShareMemorySize : UInt32
  fdBaseAddress : UInt64
  fdSize : UInt32
  armLcdDdrFrameBufferBase : UInt64
  armLcdDdrFrameBufferSize : UInt32
  dramHighSpaceBase : UInt64

/-- The values that the platform's DSC and FDF files give, all but the last. -/
def platformPcds (dramHighSpaceBase : UInt64) : MemoryPcds where
  systemMemoryBase := 0x80000000
  reservedSecureMemoryBase := 0x80000000
  reservedSecureMemorySize := 0x02500000
  reservedShareMemoryBase := 0x82500000
  reservedShareMemorySize := 0x01F00000
  fdBaseAddress := 0x84400000
  fdSize := 0x00200000
  armLcdDdrFrameBufferBase := 0x84800000
  armLcdDdrFrameBufferSize := 0x00800000
  dramHighSpaceBase := dramHighSpaceBase

/-- What `ReportDramHighSpace` reads of a `MEM_INIT_OUTPUT_BUFFER`. -/
structure MemInitOutputBuffer where
  signature : UInt32
  availableSize : UInt32

def reportDramHighSpace (memOutputBufferSig : UInt32) (memInfo : MemInitOutputBuffer) : Bool × UInt64 :=
  if memInfo.signature = memOutputBufferSig then
    if 0x7800 < memInfo.availableSize then
      (true, (memInfo.availableSize - 0x7800).toUInt64 <<< 20)
    else
      (false, 0)
  else
    (false, 0)

/-! ### The regions -/

/-- What one block of `ArmPlatformGetVirtualMemoryMap` describes, and as what. -/
structure Region where
  base : UInt64
  length : UInt64
  attributes : ArmMemoryRegionAttributes
  resourceType : ResourceType
  resourceAttribute : UInt32
  memoryType : UInt64

section

variable (pcds : MemoryPcds) (systemMemoryEnd : UInt64)

/-- Device MMIO before the RAM. The first 4 KiB are left out for null pointers. -/
def deviceMmio : Region where
  base := 0x00001000
  length := pcds.systemMemoryBase - 0x00001000
  attributes := .device
  resourceType := .memoryMappedIo
  resourceAttribute := resourceAttributePit ||| resourceAttributeUncacheable
  memoryType := memoryUc

def reservedSecureMemory : Region where
  base := pcds.reservedSecureMemoryBase.toUInt64
  length := pcds.reservedSecureMemorySize.toUInt64
  attributes := .uncachedUnbuffered
  resourceType := .systemMemory
  resourceAttribute := resourceAttributePit ||| resourceAttributeWriteCombineable
  memoryType := memoryWc

def reservedSharedMemory : Region where
  base := pcds.reservedShareMemoryBase.toUInt64
  length := pcds.reservedShareMemorySize.toUInt64
  attributes := .uncachedUnbuffered
  resourceType := .systemMemory
  resourceAttribute := resourceAttributePit ||| resourceAttributeWriteCombineable
  memoryType := memoryWc

def uefiSpinorImage : Region where
  base := pcds.fdBaseAddress
  length := pcds.fdSize.toUInt64
  attributes := .writeBack
  resourceType := .systemMemory
  resourceAttribute := resourceAttributePit ||| resourceAttributeWriteCombineable |||
    resourceAttributeWriteBackCacheable
  memoryType := memoryWb

def framebufferMemory : Region where
  base := pcds.armLcdDdrFrameBufferBase
  length := pcds.armLcdDdrFrameBufferSize.toUInt64
  attributes := .uncachedUnbuffered
  resourceType := .memoryReserved
  resourceAttribute := resourceAttributePit ||| resourceAttributeWriteCombineable
  memoryType := memoryWc

def useableSystemRam : Region where
  base := pcds.armLcdDdrFrameBufferBase + pcds.armLcdDdrFrameBufferSize.toUInt64
  length := systemMemoryEnd + 1 -
    (pcds.armLcdDdrFrameBufferBase + pcds.armLcdDdrFrameBufferSize.toUInt64)
  attributes := .writeBack
  resourceType := .systemMemory
  resourceAttribute := resourceAttributePit ||| resourceAttributeWriteCombineable |||
    resourceAttributeWriteBackCacheable
  memoryType := memoryWb

def upperMmio : Region where
  base := systemMemoryEnd + 1
  length := pcds.dramHighSpaceBase - (systemMemoryEnd + 1)
  attributes := .device
  resourceType := .memoryMappedIo
  resourceAttribute := resourceAttributePit ||| resourceAttributeInitialized |||
    resourceAttributeUncacheable
  memoryType := memoryUc

def systemDramHighSpace (dramHighSize : UInt64) : Region where
  base := pcds.dramHighSpaceBase
  length := dramHighSize
  attributes := .writeBack
  resourceType := .systemMemory
  resourceAttribute := resourceAttributePit ||| resourceAttributeWriteCombineable |||
    resourceAttributeWriteBackCacheable
  memoryType := memoryWb

end

/-! ### The table and the HOBs -/

/-- The entries written so far and the HOBs built so far. The source's `Index` is the number of
entries. -/
structure MemoryMap where
  virtualMemoryTable : List ArmMemoryRegionDescriptor
  hobs : List ResourceDescriptorHobV2

namespace MemoryMap

def empty : MemoryMap := ⟨[], []⟩

def buildResourceDescriptorHobV2 (map : MemoryMap) (resourceType : ResourceType)
    (resourceAttribute : UInt32) (physicalStart numberOfBytes memoryType : UInt64) : MemoryMap :=
  { map with
    hobs := map.hobs ++
      [{ resourceType, resourceAttribute, physicalStart, resourceLength := numberOfBytes,
         memoryType }] }

/-- The block that the source repeats for each region. -/
def describe (map : MemoryMap) (region : Region) : MemoryMap :=
  let entry : ArmMemoryRegionDescriptor := {
    physicalBase := region.base
    virtualBase := region.base
    length := region.length
    attributes := region.attributes }
  { map with virtualMemoryTable := map.virtualMemoryTable ++ [entry] }
    |>.buildResourceDescriptorHobV2 region.resourceType region.resourceAttribute
      entry.physicalBase entry.length region.memoryType

def endOfTable : ArmMemoryRegionDescriptor where
  physicalBase := 0
  virtualBase := 0
  length := 0
  attributes := .none

def markEnd (map : MemoryMap) : MemoryMap :=
  { map with virtualMemoryTable := map.virtualMemoryTable ++ [endOfTable] }

end MemoryMap

section

variable (memOutputBufferSig : UInt32) (pcds : MemoryPcds) (systemMemoryEnd : UInt64)
  (memInfo : MemInitOutputBuffer)

/-- `virtualMemoryTable` is the address of the pages allocated for the table, zero for none. A HOB
can always be built. -/
def armPlatformGetVirtualMemoryMap (virtualMemoryTable : UInt64) : Option MemoryMap :=
  if virtualMemoryTable = 0 then
    none
  else
    let map := MemoryMap.empty
    let map := map.describe (deviceMmio pcds)
    let map := map.describe (reservedSecureMemory pcds)
    let map := map.describe (reservedSharedMemory pcds)
    let map := map.describe (uefiSpinorImage pcds)
    let map := map.describe (framebufferMemory pcds)
    let map := map.describe (useableSystemRam pcds systemMemoryEnd)
    let map := map.describe (upperMmio pcds systemMemoryEnd)
    let (reported, dramHighSize) := reportDramHighSpace memOutputBufferSig memInfo
    let map := if reported then map.describe (systemDramHighSpace pcds dramHighSize) else map
    some map.markEnd

end

/-! ### What is written -/

def Region.entry (region : Region) : ArmMemoryRegionDescriptor :=
  ⟨region.base, region.base, region.length, region.attributes⟩

def Region.hob (region : Region) : ResourceDescriptorHobV2 :=
  ⟨region.resourceType, region.resourceAttribute, region.base, region.length, region.memoryType⟩

/-- The regions whose place the PCDs alone decide. -/
def fixedRegions (pcds : MemoryPcds) : List Region :=
  [deviceMmio pcds, reservedSecureMemory pcds, reservedSharedMemory pcds, uefiSpinorImage pcds,
    framebufferMemory pcds]

def highRegions (pcds : MemoryPcds) (report : Bool × UInt64) : List Region :=
  if report.1 then [systemDramHighSpace pcds report.2] else []

def reportedRegions (pcds : MemoryPcds) (systemMemoryEnd : UInt64) (report : Bool × UInt64) :
    List Region :=
  fixedRegions pcds ++ [useableSystemRam pcds systemMemoryEnd, upperMmio pcds systemMemoryEnd] ++
    highRegions pcds report

theorem length_reportedRegions_le (pcds : MemoryPcds) (systemMemoryEnd : UInt64)
    (report : Bool × UInt64) : (reportedRegions pcds systemMemoryEnd report).length ≤ 8 := by
  rw [reportedRegions, highRegions]
  cases report.1 with
  | true => exact Nat.le_refl 8
  | false => exact Nat.le_succ 7

/-- **What the function writes.** One entry and one HOB for each region, and the end marker. -/
theorem armPlatformGetVirtualMemoryMap_eq (memOutputBufferSig : UInt32) (pcds : MemoryPcds)
    (systemMemoryEnd : UInt64) (memInfo : MemInitOutputBuffer) {virtualMemoryTable : UInt64}
    (hallocated : virtualMemoryTable ≠ 0) :
    armPlatformGetVirtualMemoryMap memOutputBufferSig pcds systemMemoryEnd memInfo
        virtualMemoryTable =
      let regions := reportedRegions pcds systemMemoryEnd
        (reportDramHighSpace memOutputBufferSig memInfo)
      some ⟨regions.map Region.entry ++ [MemoryMap.endOfTable], regions.map Region.hob⟩ := by
  rw [armPlatformGetVirtualMemoryMap, if_neg hallocated]
  rcases reportDramHighSpace memOutputBufferSig memInfo with ⟨reported, dramHighSize⟩
  cases reported <;> rfl

/-! ### Ranges -/

def rangeOf (base length : UInt64) : Ranges.Range Nat := ⟨base.toNat, base.toNat + length.toNat⟩

def ArmMemoryRegionDescriptor.range (entry : ArmMemoryRegionDescriptor) : Ranges.Range Nat :=
  rangeOf entry.physicalBase entry.length

def ResourceDescriptorHobV2.range (hob : ResourceDescriptorHobV2) : Ranges.Range Nat :=
  rangeOf hob.physicalStart hob.resourceLength

def Region.range (region : Region) : Ranges.Range Nat := rangeOf region.base region.length

theorem fixedRegions_ranges (dramHighSpaceBase : UInt64) :
    (fixedRegions (platformPcds dramHighSpaceBase)).map Region.range =
      [⟨0x1000, 0x80000000⟩, ⟨0x80000000, 0x82500000⟩, ⟨0x82500000, 0x84400000⟩,
        ⟨0x84400000, 0x84600000⟩, ⟨0x84800000, 0x85000000⟩] :=
  calc
    _ = [rangeOf 0x1000 (0x80000000 - 0x1000),
          rangeOf (0x80000000 : UInt32).toUInt64 (0x02500000 : UInt32).toUInt64,
          rangeOf (0x82500000 : UInt32).toUInt64 (0x01F00000 : UInt32).toUInt64,
          rangeOf 0x84400000 (0x00200000 : UInt32).toUInt64,
          rangeOf 0x84800000 (0x00800000 : UInt32).toUInt64] := rfl
    _ = _ := by decide

theorem rangeOf_sub {lower upper : UInt64} (hle : lower.toNat ≤ upper.toNat) :
    rangeOf lower (upper - lower) = ⟨lower.toNat, upper.toNat⟩ := by
  rw [rangeOf, UInt64.toNat_sub_of_le _ _ (UInt64.le_iff_toNat_le.mpr hle), Nat.add_sub_cancel' hle]

section

variable {dramHighSpaceBase systemMemoryEnd : UInt64}

theorem toNat_memoryEnd_succ (hhigh : systemMemoryEnd.toNat < dramHighSpaceBase.toNat) :
    (systemMemoryEnd + 1).toNat = systemMemoryEnd.toNat + 1 := by
  have hbase := dramHighSpaceBase.toNat_lt
  rw [UInt64.toNat_add, UInt64.toNat_one]
  exact Nat.mod_eq_of_lt (by omega)

theorem useableSystemRam_range (hend : 0x85000000 ≤ systemMemoryEnd.toNat)
    (hhigh : systemMemoryEnd.toNat < dramHighSpaceBase.toNat) :
    (useableSystemRam (platformPcds dramHighSpaceBase) systemMemoryEnd).range =
      ⟨0x85000000, systemMemoryEnd.toNat + 1⟩ := by
  have hlower : (0x84800000 + (0x00800000 : UInt32).toUInt64 : UInt64) = 0x85000000 := by decide
  have hsucc := toNat_memoryEnd_succ hhigh
  have hlowerNat : (0x85000000 : UInt64).toNat = 0x85000000 := by decide
  rw [Region.range, useableSystemRam, platformPcds, hlower, rangeOf_sub, hsucc, hlowerNat]
  rw [hsucc, hlowerNat]
  omega

theorem upperMmio_range (hhigh : systemMemoryEnd.toNat < dramHighSpaceBase.toNat) :
    (upperMmio (platformPcds dramHighSpaceBase) systemMemoryEnd).range =
      ⟨systemMemoryEnd.toNat + 1, dramHighSpaceBase.toNat⟩ := by
  have hsucc := toNat_memoryEnd_succ hhigh
  rw [Region.range, upperMmio, platformPcds, rangeOf_sub, hsucc]
  rw [hsucc]
  exact hhigh

theorem toNat_dramHighSize {availableSize : UInt32} (hover : 0x7800 < availableSize) :
    ((availableSize - 0x7800).toUInt64 <<< 20).toNat = (availableSize.toNat - 0x7800) * 2 ^ 20 := by
  have hsize := availableSize.toNat_lt
  have hsub : (availableSize - 0x7800).toNat = availableSize.toNat - 0x7800 :=
    UInt32.toNat_sub_of_le _ _ (UInt32.le_of_lt hover)
  have hshift : (20 : UInt64).toNat % 64 = 20 := by decide
  rw [UInt64.toNat_shiftLeft, UInt32.toNat_toUInt64, hsub, hshift, Nat.shiftLeft_eq]
  exact Nat.mod_eq_of_lt (by omega)

/-- High space that is reported is not empty. -/
theorem dramHighSize_pos (memOutputBufferSig : UInt32) (memInfo : MemInitOutputBuffer)
    (hreported : (reportDramHighSpace memOutputBufferSig memInfo).1 = true) :
    0 < (reportDramHighSpace memOutputBufferSig memInfo).2.toNat := by
  unfold reportDramHighSpace at hreported ⊢
  by_cases hsignature : memInfo.signature = memOutputBufferSig
  · rw [if_pos hsignature] at hreported ⊢
    by_cases hover : 0x7800 < memInfo.availableSize
    · have hoverNat : 0x7800 < memInfo.availableSize.toNat := UInt32.lt_iff_toNat_lt.mp hover
      rw [if_pos hover, toNat_dramHighSize hover]
      omega
    · rw [if_neg hover] at hreported
      cases hreported
  · rw [if_neg hsignature] at hreported
    cases hreported

/-! ### The regions in order -/

theorem fixedRegions_ascend (dramHighSpaceBase : UInt64) :
    Ranges.Ascend 0x1000 ((fixedRegions (platformPcds dramHighSpaceBase)).map Region.range)
      0x85000000 := by
  rw [fixedRegions_ranges]
  simp [Ranges.Ascend]

theorem highRegions_ascend {report : Bool × UInt64} (hpos : report.1 = true → 0 < report.2.toNat)
    (hsize : dramHighSpaceBase.toNat + report.2.toNat ≤ 2 ^ 64) :
    Ranges.Ascend dramHighSpaceBase.toNat
      ((highRegions (platformPcds dramHighSpaceBase) report).map Region.range) (2 ^ 64) := by
  rcases report with ⟨reported, dramHighSize⟩
  cases reported with
  | true => exact ⟨Nat.le_refl _, Nat.lt_add_of_pos_right (hpos rfl), hsize⟩
  | false => exact (Nat.le_add_right _ _).trans hsize

/-- **The regions ascend.** From the first page on up to 2^64, none of them empty. -/
theorem reportedRegions_ascend {report : Bool × UInt64}
    (hend : 0x85000000 ≤ systemMemoryEnd.toNat)
    (hhigh : systemMemoryEnd.toNat + 1 < dramHighSpaceBase.toNat)
    (hpos : report.1 = true → 0 < report.2.toNat)
    (hsize : dramHighSpaceBase.toNat + report.2.toNat ≤ 2 ^ 64) :
    Ranges.Ascend 0x1000
      ((reportedRegions (platformPcds dramHighSpaceBase) systemMemoryEnd report).map Region.range)
      (2 ^ 64) := by
  have hbelow : systemMemoryEnd.toNat < dramHighSpaceBase.toNat := Nat.lt_of_succ_lt hhigh
  have hmiddle : Ranges.Ascend 0x85000000
      ([useableSystemRam (platformPcds dramHighSpaceBase) systemMemoryEnd,
        upperMmio (platformPcds dramHighSpaceBase) systemMemoryEnd].map Region.range)
      dramHighSpaceBase.toNat := by
    rw [List.map_cons, List.map_singleton, useableSystemRam_range hend hbelow,
      upperMmio_range hbelow]
    exact ⟨Nat.le_refl _, Nat.lt_succ_of_le hend, Nat.le_refl _, hhigh, Nat.le_refl _⟩
  rw [reportedRegions, List.map_append, List.map_append]
  exact ((fixedRegions_ascend _).append hmiddle).append (highRegions_ascend hpos hsize)

end

/-! ### The table -/

/-- A table with the given entries before its end marker, as those who read it expect it, and the
HOBs for the same ranges. -/
structure WellFormed (map : MemoryMap) (entries : List ArmMemoryRegionDescriptor) : Prop where
  table_eq : map.virtualMemoryTable = entries ++ [MemoryMap.endOfTable]
  endOfTable_first :
    map.virtualMemoryTable.findIdx? (fun entry => entry.length = 0) = some entries.length
  table_length_le : map.virtualMemoryTable.length ≤ maxVirtualMemoryMapDescriptors
  length_ne_zero : ∀ entry ∈ entries, entry.length ≠ 0
  identity : ∀ entry ∈ entries, entry.virtualBase = entry.physicalBase
  ascending : entries.Pairwise fun left right => left.physicalBase < right.physicalBase
  disjoint : entries.Pairwise fun left right => Disjoint left.range.toSet right.range.toSet
  no_wrap : ∀ entry ∈ entries, entry.physicalBase.toNat + entry.length.toNat ≤ 2 ^ 64
  hobs_eq : (map.hobs.map fun hob => (hob.physicalStart, hob.resourceLength)) =
    entries.map fun entry => (entry.physicalBase, entry.length)

theorem findIdx?_endOfTable {entries : List ArmMemoryRegionDescriptor}
    (hnonzero : ∀ entry ∈ entries, entry.length ≠ 0) :
    (entries ++ [MemoryMap.endOfTable]).findIdx? (fun entry => entry.length = 0) =
      some entries.length := by
  have hentries : entries.findIdx? (fun entry => entry.length = 0) = none := by
    rw [List.findIdx?_eq_none_iff]
    intro entry hmem
    exact decide_eq_false (hnonzero entry hmem)
  have hmarker : [MemoryMap.endOfTable].findIdx? (fun entry => entry.length = 0) = some 0 := rfl
  rw [List.findIdx?_append, hentries, hmarker, Option.none_or, Option.map_some, Nat.zero_add]

section

variable {regions : List Region} {start : Nat}

theorem bounds_of_ascend (hascend : Ranges.Ascend start (regions.map Region.range) (2 ^ 64))
    {region : Region} (hmem : region ∈ regions) :
    region.length ≠ 0 ∧ region.base.toNat + region.length.toNat ≤ 2 ^ 64 := by
  obtain ⟨-, hlt, hle⟩ := hascend.bounds (List.mem_map_of_mem hmem)
  refine ⟨fun hzero => ?_, hle⟩
  rw [Region.range, rangeOf, hzero] at hlt
  exact Nat.lt_irrefl _ hlt

/-- Regions that ascend make a well-formed table. -/
theorem wellFormed_of_ascend
    (hascend : Ranges.Ascend start (regions.map Region.range) (2 ^ 64))
    (hlength : regions.length + 1 ≤ maxVirtualMemoryMapDescriptors) :
    WellFormed ⟨regions.map Region.entry ++ [MemoryMap.endOfTable], regions.map Region.hob⟩
      (regions.map Region.entry) := by
  have hnonzero : ∀ entry ∈ regions.map Region.entry, entry.length ≠ 0 := by
    rw [List.forall_mem_map]
    exact fun region hmem => (bounds_of_ascend hascend hmem).1
  exact {
    table_eq := rfl
    endOfTable_first := findIdx?_endOfTable hnonzero
    table_length_le := by
      rw [List.length_append, List.length_map]
      exact hlength
    length_ne_zero := hnonzero
    identity := by
      rw [List.forall_mem_map]
      exact fun region _ => rfl
    ascending := by
      rw [List.pairwise_map]
      exact (List.pairwise_map.mp hascend.pairwise_lower_lt).imp fun hlt =>
        UInt64.lt_iff_toNat_lt.mpr hlt
    disjoint := by
      have hdisjoint := hascend.pairwise_disjoint
      rw [List.pairwise_map] at hdisjoint ⊢
      exact hdisjoint
    no_wrap := by
      rw [List.forall_mem_map]
      exact fun region hmem => (bounds_of_ascend hascend hmem).2
    hobs_eq := by
      rw [List.map_map, List.map_map]
      rfl }

end

/-- **The memory map is well formed.** -/
theorem armPlatformGetVirtualMemoryMap_wellFormed (memOutputBufferSig : UInt32)
    {dramHighSpaceBase systemMemoryEnd virtualMemoryTable : UInt64} (memInfo : MemInitOutputBuffer)
    (hallocated : virtualMemoryTable ≠ 0) (hend : 0x85000000 ≤ systemMemoryEnd.toNat)
    (hhigh : systemMemoryEnd.toNat + 1 < dramHighSpaceBase.toNat)
    (hsize : dramHighSpaceBase.toNat + (reportDramHighSpace memOutputBufferSig memInfo).2.toNat ≤
      2 ^ 64) :
    ∃ map entries,
      armPlatformGetVirtualMemoryMap memOutputBufferSig (platformPcds dramHighSpaceBase)
        systemMemoryEnd memInfo virtualMemoryTable = some map ∧ WellFormed map entries := by
  have hascend :=
    reportedRegions_ascend hend hhigh (dramHighSize_pos memOutputBufferSig memInfo) hsize
  refine ⟨_, _, armPlatformGetVirtualMemoryMap_eq _ _ _ _ hallocated,
    wellFormed_of_ascend hascend ?_⟩
  exact Nat.succ_le_succ ((length_reportedRegions_le _ _ _).trans (by decide))

def sampleMemInfo : MemInitOutputBuffer where
  signature := 0x314D454D
  availableSize := 0x8000

/-- Memory up to 6 GiB and another 2 GiB at 16 GiB. -/
theorem sampleMemInfo_wellFormed :
    ∃ map entries,
      armPlatformGetVirtualMemoryMap 0x314D454D (platformPcds 0x400000000) 0x17FFFFFFF
        sampleMemInfo 0x90000000 = some map ∧ WellFormed map entries :=
  armPlatformGetVirtualMemoryMap_wellFormed 0x314D454D sampleMemInfo (by decide) (by decide)
    (by decide) (by decide)

end OrionO6.Platform
