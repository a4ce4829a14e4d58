import OrionO6.Flash.Fvb

/-!
# The status of a truncated transfer

A transfer may not cross the end of its block. A write that would is cut there and answered
`EFI_BAD_BUFFER_SIZE`. A read notes the same status but returns another one, and a request for as
many bytes as a block has is not cut at all, whatever its offset.
-/

namespace OrionO6.Flash

section

variable (nor : NorFlashInstance) (offset numBytes : UInt64)

def FitsBlock : Prop :=
  0 < numBytes.toNat ∧ offset.toNat + numBytes.toNat ≤ nor.media.blockSize.toNat

instance : Decidable (FitsBlock nor offset numBytes) :=
  inferInstanceAs (Decidable (_ ∧ _))

/-- The status of a transfer when the device does not fail, by the comments on both functions. -/
def transferStatus : EfiStatus :=
  if FitsBlock nor offset numBytes then .success else .badBufferSize

/-- The request starts inside the block, is no longer than a block, and ends in the next one. -/
def CrossesBoundary : Prop :=
  offset.toNat < nor.media.blockSize.toNat ∧ numBytes.toNat ≤ nor.media.blockSize.toNat ∧
    nor.media.blockSize.toNat < offset.toNat + numBytes.toNat

end

variable {nor : NorFlashInstance} {offset numBytes : UInt64}

theorem transferStatus_of_fits (hfits : FitsBlock nor offset numBytes) :
    transferStatus nor offset numBytes = .success :=
  if_pos hfits

theorem transferStatus_of_not_fits (hfits : ¬ FitsBlock nor offset numBytes) :
    transferStatus nor offset numBytes = .badBufferSize :=
  if_neg hfits

theorem not_isError_of_success {status : EfiStatus} (hstatus : status = .success) :
    ¬ status.isError = true := by
  rw [hstatus]
  decide

theorem success_ne_badBufferSize : EfiStatus.success ≠ EfiStatus.badBufferSize := by
  decide

theorem not_transferRejected_iff_toNat :
    ¬ TransferRejected nor offset numBytes ↔
      offset.toNat < nor.media.blockSize.toNat ∧ numBytes.toNat ≤ nor.media.blockSize.toNat ∧
        0 < numBytes.toNat := by
  rw [not_transferRejected_iff, UInt64.lt_iff_toNat_lt, UInt64.le_iff_toNat_le,
    UInt32.toNat_toUInt64]
  have hzero : numBytes ≠ 0 ↔ 0 < numBytes.toNat := by
    rw [Nat.pos_iff_ne_zero]
    exact not_congr UInt64.toNat_inj.symm
  rw [hzero]

/-- Neither comparison wraps around once the request is not rejected. -/
theorem spaned_iff_crossesBoundary (haccepted : ¬ TransferRejected nor offset numBytes) :
    offset + numBytes > nor.media.blockSize.toUInt64 ↔ CrossesBoundary nor offset numBytes := by
  obtain ⟨hoffset, hbytes, -⟩ := not_transferRejected_iff_toNat.mp haccepted
  have hsize := nor.media.blockSize.toNat_lt
  have hsum := calc (offset + numBytes).toNat
    _ = (offset.toNat + numBytes.toNat) % 2 ^ 64 := UInt64.toNat_add _ _
    _ = offset.toNat + numBytes.toNat := Nat.mod_eq_of_lt (by omega)
  rw [gt_iff_lt, UInt64.lt_iff_toNat_lt, hsum, UInt32.toNat_toUInt64, CrossesBoundary]
  omega

theorem fitsBlock_iff (haccepted : ¬ TransferRejected nor offset numBytes) :
    FitsBlock nor offset numBytes ↔ ¬ CrossesBoundary nor offset numBytes := by
  obtain ⟨hoffset, hbytes, hpos⟩ := not_transferRejected_iff_toNat.mp haccepted
  rw [FitsBlock, CrossesBoundary]
  omega

theorem not_crossesBoundary_of_rejected (hrejected : TransferRejected nor offset numBytes) :
    ¬ CrossesBoundary nor offset numBytes := by
  rintro ⟨hoffset, hbytes, hcrosses⟩
  exact not_transferRejected_iff_toNat.mpr ⟨hoffset, hbytes, by omega⟩ hrejected

theorem not_fitsBlock_of_rejected (hrejected : TransferRejected nor offset numBytes) :
    ¬ FitsBlock nor offset numBytes := by
  rintro ⟨hpos, hfits⟩
  have hnot : ¬ (offset.toNat < nor.media.blockSize.toNat ∧
      numBytes.toNat ≤ nor.media.blockSize.toNat ∧ 0 < numBytes.toNat) := fun haccepted =>
    not_transferRejected_iff_toNat.mpr haccepted hrejected
  omega

section

variable {σ : Type} {lib : NorFlashLib σ} {lba : UInt64} {buffer : Buffer} {state : σ}

theorem fvbRead_status_of_rejected (hrejected : TransferRejected nor offset numBytes) :
    ((fvbRead lib nor lba offset numBytes buffer).run state).value.status = .badBufferSize := by
  obtain ⟨count, hread⟩ := fvbRead_of_rejected lib lba buffer hrejected
  rw [hread, Traced.run_pure]

/-- A read that is not rejected is answered with success, cut or not. -/
theorem fvbRead_status_of_accepted (haccepted : ¬ TransferRejected nor offset numBytes)
    (hcalls : ∀ call ∈ ((fvbRead lib nor lba offset numBytes buffer).run state).calls,
      call.status = .success) :
    ((fvbRead lib nor lba offset numBytes buffer).run state).value.status = .success := by
  obtain ⟨-, hbytes, -⟩ := not_transferRejected_iff.mp haccepted
  rcases UInt64.lt_or_eq_of_le hbytes with hpart | hwhole
  · rw [fvbRead_of_part lib lba buffer haccepted hpart] at hcalls ⊢
    apply Traced.value_of_call (fun transfer => transfer.status = .success) hcalls
    intro answer hanswer
    exact if_neg (not_isError_of_success hanswer)
  · rw [fvbRead_of_whole lib lba buffer haccepted hwhole] at hcalls ⊢
    apply Traced.value_of_call (fun transfer => transfer.status = .success) hcalls
    intro answer hanswer
    exact if_neg (not_isError_of_success hanswer)

theorem fvbWrite_status_of_rejected (hwritable : nor.media.readOnly = false)
    (hrejected : TransferRejected nor offset numBytes) :
    ((fvbWrite lib nor lba offset numBytes buffer).run state).value.status = .badBufferSize := by
  obtain ⟨count, hwrite⟩ := fvbWrite_of_rejected lib lba buffer hwritable hrejected
  rw [hwrite, Traced.run_pure]

theorem fvbWrite_status_of_not_crosses (hwritable : nor.media.readOnly = false)
    (haccepted : ¬ TransferRejected nor offset numBytes)
    (hinside : ¬ CrossesBoundary nor offset numBytes)
    (hcalls : ∀ call ∈ ((fvbWrite lib nor lba offset numBytes buffer).run state).calls,
      call.status = .success) :
    ((fvbWrite lib nor lba offset numBytes buffer).run state).value.status = .success := by
  obtain ⟨-, hbytes, -⟩ := not_transferRejected_iff.mp haccepted
  have hspaned : ¬ offset + numBytes > nor.media.blockSize.toUInt64 := fun hspaned =>
    hinside ((spaned_iff_crossesBoundary haccepted).mp hspaned)
  rcases UInt64.lt_or_eq_of_le hbytes with hpart | hwhole
  · rw [fvbWrite_of_part lib lba buffer hwritable haccepted hpart] at hcalls ⊢
    apply Traced.value_of_call (fun transfer => transfer.status = .success) hcalls
    intro status hstatus
    exact (if_neg fun hboth => hspaned hboth.2).trans hstatus
  · rw [fvbWrite_of_whole lib lba buffer hwritable haccepted hwhole] at hcalls ⊢
    apply Traced.value_of_call (fun transfer => transfer.status = .success) hcalls
    intro status hstatus
    exact (if_neg (not_isError_of_success hstatus)).trans hstatus

/-- **When both functions report truncation as documented.** -/
theorem transfers_report_truncation_iff (nor : NorFlashInstance) (lba offset numBytes : UInt64)
    {readLib writeLib : NorFlashLib σ} (readBuffer writeBuffer : Buffer) (readState writeState : σ)
    (hwritable : nor.media.readOnly = false)
    (hread : ∀ call ∈ ((fvbRead readLib nor lba offset numBytes readBuffer).run readState).calls,
      call.status = .success)
    (hwrite : ∀ call ∈
      ((fvbWrite writeLib nor lba offset numBytes writeBuffer).run writeState).calls,
      call.status = .success) :
    ((fvbRead readLib nor lba offset numBytes readBuffer).run readState).value.status =
          transferStatus nor offset numBytes ∧
        ((fvbWrite writeLib nor lba offset numBytes writeBuffer).run writeState).value.status =
          transferStatus nor offset numBytes ↔
      ¬ CrossesBoundary nor offset numBytes := by
  by_cases hrejected : TransferRejected nor offset numBytes
  · rw [transferStatus_of_not_fits (not_fitsBlock_of_rejected hrejected),
      fvbRead_status_of_rejected hrejected, fvbWrite_status_of_rejected hwritable hrejected]
    exact iff_of_true ⟨rfl, rfl⟩ (not_crossesBoundary_of_rejected hrejected)
  by_cases hcrosses : CrossesBoundary nor offset numBytes
  · have hfits : ¬ FitsBlock nor offset numBytes := fun hfits =>
      (fitsBlock_iff hrejected).mp hfits hcrosses
    rw [fvbRead_status_of_accepted hrejected hread, transferStatus_of_not_fits hfits]
    exact iff_of_false (fun hboth => success_ne_badBufferSize hboth.1) (not_not_intro hcrosses)
  · rw [fvbRead_status_of_accepted hrejected hread,
      fvbWrite_status_of_not_crosses hwritable hrejected hcrosses hwrite,
      transferStatus_of_fits ((fitsBlock_iff hrejected).mpr hcrosses)]
    exact iff_of_true ⟨rfl, rfl⟩ hcrosses

end

/-- The last 0xC0 bytes of a block are transferred, and both functions report success. -/
theorem transfers_report_truncation_at_block_end :
    ((fvbRead NorFlashLib.idle (sampleInstance false) 0 0xF40 0xC0 sampleBuffer).run ()).value.status
          = .success ∧
      ((fvbWrite NorFlashLib.idle (sampleInstance false) 0 0xF40 0xC0 sampleBuffer).run
          ()).value.status = .success := by
  have hinside : ¬ CrossesBoundary (sampleInstance false) 0xF40 0xC0 := by
    rw [CrossesBoundary]
    decide
  exact (transfers_report_truncation_iff (sampleInstance false) 0 0xF40 0xC0 sampleBuffer
    sampleBuffer () () rfl (by decide) (by decide)).mpr hinside

/-- Eight bytes are asked for four bytes before the end of a block. -/
theorem fvbRead_hides_truncation :
    let nor := sampleInstance false
    let read := (fvbRead NorFlashLib.idle nor 0 0xFFC 8 sampleBuffer).run ()
    let write := (fvbWrite NorFlashLib.idle nor 0 0xFFC 8 sampleBuffer).run ()
    nor.media.readOnly = false ∧ 0 < nor.blocks ∧
      (∀ call ∈ read.calls ++ write.calls, call.status = .success) ∧
      transferStatus nor 0xFFC 8 = .badBufferSize ∧
      write.value.status = .badBufferSize ∧
      read.value.numBytes = 4 ∧ read.value.status = .success := by
  decide

end OrionO6.Flash
