import OrionO6.Flash.HeaderRoundTrip

/-!
# The region the headers describe

The headers say how long the firmware volume is and how many blocks it has, and the instance says
where it begins. The layout is checked in 64 bits and on the three bases, the length is a sum of 32
bits, and the number of blocks is a division that drops the remainder.
-/

namespace OrionO6.Flash

section

variable {pcds : FlashPcds} {blockSize : UInt32}

theorem LayoutAccepted.blockSize_pos (hlayout : LayoutAccepted pcds blockSize) :
    0 < blockSize.toNat := by
  apply Nat.pos_of_ne_zero
  intro hzero
  apply hlayout.variableSize_pos
  right
  rw [UInt32.le_iff_toNat_le, UInt32.toNat_div, hzero, Nat.div_zero]
  exact Nat.zero_le _

theorem LayoutAccepted.toNat_ftwWorkingBase (hlayout : LayoutAccepted pcds blockSize) :
    pcds.ftwWorkingBase.toNat = (pcds.variableBase.toNat + pcds.variableSize.toNat) % 2 ^ 64 := by
  rw [← hlayout.ftwWorkingBase_eq, UInt64.toNat_add, UInt32.toNat_toUInt64]

theorem LayoutAccepted.toNat_ftwSpareBase (hlayout : LayoutAccepted pcds blockSize) :
    pcds.ftwSpareBase.toNat =
      (pcds.ftwWorkingBase.toNat + pcds.ftwWorkingSize.toNat) % 2 ^ 64 := by
  rw [← hlayout.ftwSpareBase_eq, UInt64.toNat_add, UInt32.toNat_toUInt64]

theorem dvd_toNat_of_mod {base : UInt64} (hmod : base % blockSize.toUInt64 = 0) :
    blockSize.toNat ∣ base.toNat := by
  have hrest := congrArg UInt64.toNat hmod
  rw [UInt64.toNat_mod, UInt32.toNat_toUInt64] at hrest
  exact Nat.dvd_of_mod_eq_zero hrest

theorem LayoutAccepted.dvd_bases (hlayout : LayoutAccepted pcds blockSize) :
    blockSize.toNat ∣ pcds.variableBase.toNat ∧ blockSize.toNat ∣ pcds.ftwWorkingBase.toNat ∧
      blockSize.toNat ∣ pcds.ftwSpareBase.toNat := by
  have haligned := hlayout.bases_aligned
  simp only [not_or, not_not] at haligned
  exact ⟨dvd_toNat_of_mod haligned.1, dvd_toNat_of_mod haligned.2.1,
    dvd_toNat_of_mod haligned.2.2⟩

theorem FlashPcds.toNat_totalSize (pcds : FlashPcds) :
    pcds.totalSize.toNat =
      (pcds.variableSize.toNat + pcds.ftwWorkingSize.toNat + pcds.ftwSpareSize.toNat) % 2 ^ 32 := by
  rw [totalSize, UInt32.toNat_add, UInt32.toNat_add, Nat.mod_add_mod]

/-- The integer distance from the variable base to the end of the FTW spare area is what the length
field says when neither the bases nor the sum of the sizes wrap around. -/
theorem totalSize_eq_distance_iff (hlayout : LayoutAccepted pcds blockSize) :
    (pcds.totalSize.toNat : Int) =
        pcds.ftwSpareBase.toNat + pcds.ftwSpareSize.toNat - pcds.variableBase.toNat ↔
      pcds.variableBase.toNat + pcds.variableSize.toNat + pcds.ftwWorkingSize.toNat < 2 ^ 64 ∧
        pcds.variableSize.toNat + pcds.ftwWorkingSize.toNat + pcds.ftwSpareSize.toNat < 2 ^ 32 := by
  have hbase := pcds.variableBase.toNat_lt
  have hvariable := pcds.variableSize.toNat_lt
  have hworking := pcds.ftwWorkingSize.toNat_lt
  have hspare := pcds.ftwSpareSize.toNat_lt
  rw [hlayout.toNat_ftwSpareBase, hlayout.toNat_ftwWorkingBase, pcds.toNat_totalSize]
  omega

theorem dvd_totalSize_iff (hlayout : LayoutAccepted pcds blockSize)
    (hnowrap : pcds.variableBase.toNat + pcds.variableSize.toNat + pcds.ftwWorkingSize.toNat < 2 ^ 64)
    (hsum : pcds.variableSize.toNat + pcds.ftwWorkingSize.toNat + pcds.ftwSpareSize.toNat < 2 ^ 32) :
    blockSize.toNat ∣ pcds.totalSize.toNat ↔ blockSize.toNat ∣ pcds.ftwSpareSize.toNat := by
  obtain ⟨hvariableBase, hworkingBase, hspareBase⟩ := hlayout.dvd_bases
  have hworking := hlayout.toNat_ftwWorkingBase
  have hspare := hlayout.toNat_ftwSpareBase
  rw [Nat.mod_eq_of_lt (by omega)] at hworking
  rw [Nat.mod_eq_of_lt (by omega)] at hspare
  have hvariableSize : blockSize.toNat ∣ pcds.variableSize.toNat := by
    rw [hworking] at hworkingBase
    exact (Nat.dvd_add_right hvariableBase).mp hworkingBase
  have hworkingSize : blockSize.toNat ∣ pcds.ftwWorkingSize.toNat := by
    rw [hspare] at hspareBase
    exact (Nat.dvd_add_right hworkingBase).mp hspareBase
  rw [pcds.toNat_totalSize, Nat.mod_eq_of_lt hsum]
  exact Nat.dvd_add_right (Nat.dvd_add hvariableSize hworkingSize)

end

/-! ### The written headers -/

section

variable {constants : HeaderConstants} {pcds : FlashPcds} {nor : NorFlashInstance}
  {headers : Nat → UInt8}

theorem fvLength_setHeaders :
    FirmwareVolumeHeader.fvLength.get (setHeaders constants pcds nor headers) =
      pcds.totalSize.toNat := by
  rw [get_setHeaders (by decide) (by decide)]
  simp (disch := decide) only [setFirmwareVolumeFields, Memory.Field.get_set_of_disjoint,
    Memory.Field.get_set]
  exact Nat.mod_eq_of_lt (Nat.lt_trans pcds.totalSize.toNat_lt (by decide))

theorem numBlocks_setHeaders :
    (FirmwareVolumeHeader.blockMapNumBlocks 0).get
        (setHeaders constants pcds (norFlashFvbInitializeRegion pcds nor) headers) =
      pcds.totalSize.toNat / nor.media.blockSize.toNat := by
  rw [get_setHeaders (by decide) (by decide)]
  simp (disch := decide) only [setFirmwareVolumeFields, Memory.Field.get_set_of_disjoint,
    Memory.Field.get_set]
  have hblocks : (norFlashFvbInitializeRegion pcds nor).blocks.toNat =
      pcds.totalSize.toNat / nor.media.blockSize.toNat := by
    rw [norFlashFvbInitializeRegion, UInt32.toNat_toUInt64, UInt32.toNat_div]
  rw [hblocks]
  exact Nat.mod_eq_of_lt (Nat.lt_of_le_of_lt (Nat.div_le_self _ _) pcds.totalSize.toNat_lt)

theorem blockMapLength_setHeaders :
    (FirmwareVolumeHeader.blockMapLength 0).get (setHeaders constants pcds nor headers) =
      nor.media.blockSize.toNat := by
  rw [get_setHeaders (by decide) (by decide)]
  simp (disch := decide) only [setFirmwareVolumeFields, Memory.Field.get_set_of_disjoint,
    Memory.Field.get_set]
  exact Nat.mod_eq_of_lt nor.media.blockSize.toNat_lt

/-- The offset of a base is what the first block and the block size say, whatever the device base
that is added to it and subtracted again. -/
theorem startLba_mul_blockSize (hlayout : LayoutAccepted pcds nor.media.blockSize) :
    (norFlashFvbInitializeRegion pcds nor).startLba.toNat * nor.media.blockSize.toNat =
      pcds.variableBase.toNat := by
  have hoffset : pcds.variableBase + nor.deviceBaseAddress - nor.deviceBaseAddress =
      pcds.variableBase := UInt64.add_sub_cancel _ _
  rw [norFlashFvbInitializeRegion, hoffset, UInt64.toNat_div, UInt32.toNat_toUInt64]
  exact Nat.div_mul_cancel hlayout.dvd_bases.1

structure DescribesRegion (pcds : FlashPcds) (nor : NorFlashInstance) (headers : Nat → UInt8) :
    Prop where
  fvLength_eq : (FirmwareVolumeHeader.fvLength.get headers : Int) =
    pcds.ftwSpareBase.toNat + pcds.ftwSpareSize.toNat - pcds.variableBase.toNat
  blockMap_eq : (FirmwareVolumeHeader.blockMapNumBlocks 0).get headers *
    (FirmwareVolumeHeader.blockMapLength 0).get headers = FirmwareVolumeHeader.fvLength.get headers
  startLba_eq : nor.startLba.toNat * nor.media.blockSize.toNat = pcds.variableBase.toNat

/-- The headers that reach `NorFlashWrite`, for the region of the same PCDs. -/
def writtenHeaders (constants : HeaderConstants) (pcds : FlashPcds) (nor : NorFlashInstance)
    (pool : Buffer) : Nat → UInt8 :=
  setHeaders constants pcds (norFlashFvbInitializeRegion pcds nor) (zeroed pool headersLength).bytes

/-- **When the headers describe the region.** -/
theorem describesRegion_iff {σ : Type} (lib : NorFlashLib σ) (constants : HeaderConstants)
    (pool : Buffer) (hlayout : LayoutAccepted pcds nor.media.blockSize) :
    let region := norFlashFvbInitializeRegion pcds nor
    let headers := writtenHeaders constants pcds nor pool
    initializeFvAndVariableStoreHeaders constants pcds lib region pool =
        lib.norFlashWrite region region.startLba 0 headersLength { pool with bytes := headers } ∧
      (DescribesRegion pcds region headers ↔
        pcds.variableBase.toNat + pcds.variableSize.toNat + pcds.ftwWorkingSize.toNat < 2 ^ 64 ∧
          pcds.variableSize.toNat + pcds.ftwWorkingSize.toNat + pcds.ftwSpareSize.toNat < 2 ^ 32 ∧
          nor.media.blockSize.toNat ∣ pcds.ftwSpareSize.toNat) := by
  intro region headers
  have hregion : LayoutAccepted pcds region.media.blockSize := hlayout
  have hlengthField : FirmwareVolumeHeader.fvLength.get headers = pcds.totalSize.toNat :=
    fvLength_setHeaders
  have hblocksField : (FirmwareVolumeHeader.blockMapNumBlocks 0).get headers =
      pcds.totalSize.toNat / nor.media.blockSize.toNat := numBlocks_setHeaders
  have hsizeField : (FirmwareVolumeHeader.blockMapLength 0).get headers =
      nor.media.blockSize.toNat := blockMapLength_setHeaders
  refine ⟨initialize_of_layoutAccepted hregion, ?_⟩
  constructor
  · rintro ⟨hlength, hblockMap, -⟩
    rw [hlengthField] at hlength
    rw [hlengthField, hblocksField, hsizeField] at hblockMap
    obtain ⟨hnowrap, hsum⟩ := (totalSize_eq_distance_iff hlayout).mp hlength
    have htotal : nor.media.blockSize.toNat ∣ pcds.totalSize.toNat :=
      (Nat.dvd_iff_div_mul_eq _ _).mpr hblockMap
    exact ⟨hnowrap, hsum, (dvd_totalSize_iff hlayout hnowrap hsum).mp htotal⟩
  · rintro ⟨hnowrap, hsum, hspare⟩
    refine ⟨?_, ?_, startLba_mul_blockSize hlayout⟩
    · rw [hlengthField]
      exact (totalSize_eq_distance_iff hlayout).mpr ⟨hnowrap, hsum⟩
    · rw [hlengthField, hblocksField, hsizeField]
      exact Nat.div_mul_cancel ((dvd_totalSize_iff hlayout hnowrap hsum).mpr hspare)

end

theorem samplePcds_describesRegion :
    DescribesRegion samplePcds (norFlashFvbInitializeRegion samplePcds (sampleInstance false))
      (writtenHeaders sampleConstants samplePcds (sampleInstance false) sampleBuffer) :=
  (describesRegion_iff NorFlashLib.idle sampleConstants sampleBuffer
    samplePcds_layoutAccepted).2.mpr (by decide)

/-- The sample layout with a spare area of 64 blocks and a half. -/
def unevenPcds : FlashPcds := { samplePcds with ftwSpareSize := 0x40800 }

theorem unevenPcds_not_described :
    LayoutAccepted unevenPcds (sampleInstance false).media.blockSize ∧
      ¬ DescribesRegion unevenPcds (norFlashFvbInitializeRegion unevenPcds (sampleInstance false))
        (writtenHeaders sampleConstants unevenPcds (sampleInstance false) sampleBuffer) := by
  refine ⟨by constructor <;> decide, fun hdescribes => ?_⟩
  have hblockMap := hdescribes.blockMap_eq
  rw [writtenHeaders, fvLength_setHeaders, numBlocks_setHeaders, blockMapLength_setHeaders]
    at hblockMap
  exact absurd hblockMap (by decide)

end OrionO6.Flash
