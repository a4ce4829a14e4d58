import OrionO6.Platform.MemoryMap

/-!
# What the memory map leaves out

The regions of the DRAM come from different PCDs, and nothing but their values makes them adjoin.
They do up to the end of the SPI NOR image and again from the framebuffer on, but the image is half
as long as the layout next to the PCDs has it, so the 2 MiB after it are in no region.
-/

namespace OrionO6.Platform

/-- One entry of the table and one HOB are for the same range, and the address lies in it. -/
def MemoryMap.Describes (map : MemoryMap) (address : UInt64) : Prop :=
  ∃ entry ∈ map.virtualMemoryTable, ∃ hob ∈ map.hobs, hob.physicalStart = entry.physicalBase ∧
    hob.resourceLength = entry.length ∧ address.toNat ∈ entry.range.toSet

/-- The end marker describes nothing, whatever the regions. -/
theorem describes_iff_mem_cover (regions : List Region) (address : UInt64) :
    MemoryMap.Describes
        ⟨regions.map Region.entry ++ [MemoryMap.endOfTable], regions.map Region.hob⟩ address ↔
      address.toNat ∈ Ranges.cover (regions.map Region.range) := by
  constructor
  · rintro ⟨entry, hentry, _, _, _, _, hmem⟩
    rcases List.mem_append.mp hentry with hentry | hentry
    · obtain ⟨region, hregion, rfl⟩ := List.mem_map.mp hentry
      exact ⟨region.range, List.mem_map_of_mem hregion, hmem⟩
    · rw [List.mem_singleton.mp hentry] at hmem
      exact absurd hmem.2 (Nat.not_lt_zero _)
  · rintro ⟨range, hrange, hmem⟩
    obtain ⟨region, hregion, rfl⟩ := List.mem_map.mp hrange
    exact ⟨region.entry, List.mem_append_left _ (List.mem_map_of_mem hregion), region.hob,
      List.mem_map_of_mem hregion, rfl, rfl, hmem⟩

section

variable {dramHighSpaceBase systemMemoryEnd : UInt64} {report : Bool × UInt64} {address : Nat}

/-- The ranges of all regions, those below the end of the memory by their bounds. -/
theorem reportedRegions_ranges (hend : 0x85000000 ≤ systemMemoryEnd.toNat)
    (hhigh : systemMemoryEnd.toNat < dramHighSpaceBase.toNat) :
    (reportedRegions (platformPcds dramHighSpaceBase) systemMemoryEnd report).map Region.range =
      [⟨0x1000, 0x80000000⟩] ++
        ([⟨0x80000000, 0x82500000⟩, ⟨0x82500000, 0x84400000⟩, ⟨0x84400000, 0x84600000⟩] ++
          ([⟨0x84800000, 0x85000000⟩, ⟨0x85000000, systemMemoryEnd.toNat + 1⟩] ++
            (⟨systemMemoryEnd.toNat + 1, dramHighSpaceBase.toNat⟩ ::
              (highRegions (platformPcds dramHighSpaceBase) report).map Region.range))) := by
  rw [reportedRegions, List.map_append, List.map_append, fixedRegions_ranges, List.map_cons,
    List.map_singleton, useableSystemRam_range hend hhigh, upperMmio_range hhigh]
  rfl

theorem lower_highRegions {range : Ranges.Range Nat}
    (hmem : range ∈ (highRegions (platformPcds dramHighSpaceBase) report).map Region.range) :
    range.lower = dramHighSpaceBase.toNat := by
  obtain ⟨region, hregion, rfl⟩ := List.mem_map.mp hmem
  unfold highRegions at hregion
  cases hreported : report.1 with
  | true =>
      rw [hreported, if_pos rfl, List.mem_singleton] at hregion
      rw [hregion]
      rfl
  | false =>
      rw [hreported, if_neg Bool.false_ne_true] at hregion
      cases hregion

/-- Within the DRAM, exactly two stretches are covered. -/
theorem mem_cover_reportedRegions_iff (hend : 0x85000000 ≤ systemMemoryEnd.toNat)
    (hhigh : systemMemoryEnd.toNat < dramHighSpaceBase.toNat) (hfrom : 0x80000000 ≤ address)
    (hto : address ≤ systemMemoryEnd.toNat) :
    address ∈ Ranges.cover ((reportedRegions (platformPcds dramHighSpaceBase) systemMemoryEnd
        report).map Region.range) ↔
      ¬ (0x84600000 ≤ address ∧ address < 0x84800000) := by
  have hmmio : address ∉ Ranges.cover [(⟨0x1000, 0x80000000⟩ : Ranges.Range Nat)] := by
    rintro ⟨range, hrange, -, hupper⟩
    rw [List.mem_singleton.mp hrange] at hupper
    exact (Nat.not_lt_of_le hfrom) hupper
  have himage : Ranges.Adjoin 0x80000000 [(⟨0x80000000, 0x82500000⟩ : Ranges.Range Nat),
      ⟨0x82500000, 0x84400000⟩, ⟨0x84400000, 0x84600000⟩] 0x84600000 := by
    simp [Ranges.Adjoin]
  have hram : Ranges.Adjoin 0x84800000 [(⟨0x84800000, 0x85000000⟩ : Ranges.Range Nat),
      ⟨0x85000000, systemMemoryEnd.toNat + 1⟩] (systemMemoryEnd.toNat + 1) :=
    ⟨rfl, by decide, rfl, Nat.le_succ_of_le hend, rfl⟩
  have habove : address ∉ Ranges.cover
      (⟨systemMemoryEnd.toNat + 1, dramHighSpaceBase.toNat⟩ ::
        (highRegions (platformPcds dramHighSpaceBase) report).map Region.range) := by
    apply Ranges.not_mem_cover_of_lt
    intro range hrange
    rcases List.mem_cons.mp hrange with rfl | hrange
    · exact Nat.lt_succ_of_le hto
    · rw [lower_highRegions hrange]
      exact Nat.lt_of_le_of_lt hto hhigh
  rw [reportedRegions_ranges hend hhigh, Ranges.cover_append, Ranges.cover_append,
    Ranges.cover_append, himage.cover_eq, hram.cover_eq, Set.mem_union, Set.mem_union,
    Set.mem_union, or_iff_right hmmio, or_iff_left habove, Set.mem_Ico, Set.mem_Ico]
  omega

end

/-- **Which addresses are described.** All of the DRAM but the 2 MiB before the framebuffer. -/
theorem describes_iff (memOutputBufferSig : UInt32)
    {dramHighSpaceBase systemMemoryEnd virtualMemoryTable address : UInt64}
    (memInfo : MemInitOutputBuffer) (hallocated : virtualMemoryTable ≠ 0)
    (hend : 0x85000000 ≤ systemMemoryEnd.toNat)
    (hhigh : systemMemoryEnd.toNat < dramHighSpaceBase.toNat)
    (hfrom : 0x80000000 ≤ address.toNat) (hto : address.toNat ≤ systemMemoryEnd.toNat) :
    ∃ map,
      armPlatformGetVirtualMemoryMap memOutputBufferSig (platformPcds dramHighSpaceBase)
        systemMemoryEnd memInfo virtualMemoryTable = some map ∧
      (map.Describes address ↔
        ¬ (0x84600000 ≤ address.toNat ∧ address.toNat < 0x84800000)) := by
  refine ⟨_, armPlatformGetVirtualMemoryMap_eq _ _ _ _ hallocated, ?_⟩
  rw [describes_iff_mem_cover]
  exact mem_cover_reportedRegions_iff hend hhigh hfrom hto

theorem describes_framebuffer :
    ∃ map,
      armPlatformGetVirtualMemoryMap 0x314D454D (platformPcds 0x400000000) 0x17FFFFFFF
        sampleMemInfo 0x90000000 = some map ∧
      (map.Describes 0x84800000 ↔
        ¬ (0x84600000 ≤ (0x84800000 : UInt64).toNat ∧
          (0x84800000 : UInt64).toNat < 0x84800000)) :=
  describes_iff 0x314D454D sampleMemInfo (by decide) (by decide) (by decide) (by decide) (by decide)

/-- The first address after the image. -/
theorem imageEnd_undescribed :
    ∃ map,
      armPlatformGetVirtualMemoryMap 0x314D454D (platformPcds 0x400000000) 0x17FFFFFFF
        sampleMemInfo 0x90000000 = some map ∧ ¬ map.Describes 0x84600000 := by
  refine ⟨_, armPlatformGetVirtualMemoryMap_eq _ _ _ _ (by decide), fun hdescribes => ?_⟩
  rw [describes_iff_mem_cover, mem_cover_reportedRegions_iff (by decide) (by decide) (by decide)
    (by decide)] at hdescribes
  exact hdescribes (by decide)

end OrionO6.Platform
