import OrionO6.Flash.HeaderRoundTrip

/-!
# What `ValidateFvHeader` examines

The checks on the two headers, with every field they look at. The first ones lie at fixed offsets.
How far the checksum reaches, and where the variable store header is looked for, come from the
header length in the bytes that were read, which no check bounds.
-/

namespace OrionO6.Flash

open Memory

/-- Reads something out of a memory, and records which part of it. -/
def examine {α : Type} (field : Field) (read : (Nat → UInt8) → α) :
    Traced (Nat → UInt8) Field α :=
  Traced.call (fun memory => (read memory, memory)) fun _ => field

def look (field : Field) : Traced (Nat → UInt8) Field Nat := examine field field.get

def sumField (length : Nat) : Field := { offset := 0, size := 2 * (length / 2) }

section

variable (constants : HeaderConstants) (pcds : FlashPcds)

/-- The checks up to the GUID of the firmware volume, which stop at the first mismatch. -/
def examineFixedFields : Traced (Nat → UInt8) Field Bool := do
  let revision ← look FirmwareVolumeHeader.revision
  if revision ≠ constants.fvhRevision.toNat then
    pure false
  else do
    let signature ← look FirmwareVolumeHeader.signature
    if signature ≠ constants.fvhSignature.toNat then
      pure false
    else do
      let fvLength ← look FirmwareVolumeHeader.fvLength
      if fvLength ≠ pcds.totalSize.toNat then
        pure false
      else do
        let guid ← look FirmwareVolumeHeader.fileSystemGuid
        pure (decide (guid = constants.systemNvDataFvGuid.toNat))

/-- The checks from the checksum on. -/
def examineFrom (headerLength : Nat) : Traced (Nat → UInt8) Field EfiStatus := do
  let sum ← examine (sumField headerLength) fun memory => calculateSum16 memory headerLength
  if sum ≠ 0 then
    pure .notFound
  else do
    let signature ← look (VariableStoreHeader.signature.shift headerLength)
    if signature ≠ constants.variableGuid.toNat ∧
        signature ≠ constants.authenticatedVariableGuid.toNat then
      pure .notFound
    else do
      let size ← look (VariableStoreHeader.size.shift headerLength)
      if size ≠ (pcds.variableSize - UInt32.ofNat headerLength).toNat then
        pure .notFound
      else
        pure .success

def examineFvHeader : Traced (Nat → UInt8) Field EfiStatus := do
  let fixed ← examineFixedFields constants pcds
  if fixed = false then
    pure .notFound
  else do
    let headerLength ← look FirmwareVolumeHeader.headerLength
    examineFrom constants pcds headerLength

structure FixedFieldsMatch (fwVolHeader : Nat → UInt8) : Prop where
  revision_eq : FirmwareVolumeHeader.revision.get fwVolHeader = constants.fvhRevision.toNat
  signature_eq : FirmwareVolumeHeader.signature.get fwVolHeader = constants.fvhSignature.toNat
  fvLength_eq : FirmwareVolumeHeader.fvLength.get fwVolHeader = pcds.totalSize.toNat
  fileSystemGuid_eq :
    FirmwareVolumeHeader.fileSystemGuid.get fwVolHeader = constants.systemNvDataFvGuid.toNat

def StoreSignatureMatches (headerLength : Nat) (fwVolHeader : Nat → UInt8) : Prop :=
  (VariableStoreHeader.signature.shift headerLength).get fwVolHeader =
      constants.variableGuid.toNat ∨
    (VariableStoreHeader.signature.shift headerLength).get fwVolHeader =
      constants.authenticatedVariableGuid.toNat

def StoreSizeMatches (headerLength : Nat) (fwVolHeader : Nat → UInt8) : Prop :=
  (VariableStoreHeader.size.shift headerLength).get fwVolHeader =
    (pcds.variableSize - UInt32.ofNat headerLength).toNat

instance (headerLength : Nat) (fwVolHeader : Nat → UInt8) :
    Decidable (StoreSizeMatches pcds headerLength fwVolHeader) :=
  inferInstanceAs (Decidable (_ = _))

/-- The header length takes the checksum past the 100 bytes, or, if the checksum is right, the
signature or then the size of the variable store; or it is odd and every check passes. -/
def EscapesFrom (headerLength : Nat) (fwVolHeader : Nat → UInt8) : Prop :=
  101 < headerLength ∨ calculateSum16 fwVolHeader headerLength = 0 ∧
    (84 < headerLength ∨ StoreSignatureMatches constants headerLength fwVolHeader ∧
      (80 < headerLength ∨
        headerLength % 2 = 1 ∧ StoreSizeMatches pcds headerLength fwVolHeader))

end

variable {constants : HeaderConstants} {pcds : FlashPcds} {fwVolHeader : Nat → UInt8}

@[simp]
theorem run_examine {α : Type} (field : Field) (read : (Nat → UInt8) → α) (memory : Nat → UInt8) :
    (examine field read).run memory = ⟨read memory, memory, [field]⟩ := rfl

@[simp]
theorem run_look (field : Field) (memory : Nat → UInt8) :
    (look field).run memory = ⟨field.get memory, memory, [field]⟩ := rfl

theorem run_examineFixedFields_of_match (hmatch : FixedFieldsMatch constants pcds fwVolHeader) :
    (examineFixedFields constants pcds).run fwVolHeader =
      ⟨true, fwVolHeader, [FirmwareVolumeHeader.revision, FirmwareVolumeHeader.signature,
        FirmwareVolumeHeader.fvLength, FirmwareVolumeHeader.fileSystemGuid]⟩ := by
  obtain ⟨hrevision, hsignature, hlength, hguid⟩ := hmatch
  simp only [examineFixedFields, Traced.run_bind, run_look, hrevision, hsignature, hlength, hguid,
    ne_eq, not_true, if_false, Traced.run_pure, decide_true, List.append_nil, List.cons_append,
    List.nil_append]

theorem value_examineFixedFields_of_not_match
    (hmismatch : ¬ FixedFieldsMatch constants pcds fwVolHeader) :
    ((examineFixedFields constants pcds).run fwVolHeader).value = false := by
  by_cases hrevision : FirmwareVolumeHeader.revision.get fwVolHeader = constants.fvhRevision.toNat
  swap
  · simp [examineFixedFields, hrevision]
  by_cases hsignature : FirmwareVolumeHeader.signature.get fwVolHeader =
      constants.fvhSignature.toNat
  swap
  · simp [examineFixedFields, hrevision, hsignature]
  by_cases hlength : FirmwareVolumeHeader.fvLength.get fwVolHeader = pcds.totalSize.toNat
  swap
  · simp [examineFixedFields, hrevision, hsignature, hlength]
  have hguid : ¬ FirmwareVolumeHeader.fileSystemGuid.get fwVolHeader =
      constants.systemNvDataFvGuid.toNat := fun hguid =>
    hmismatch ⟨hrevision, hsignature, hlength, hguid⟩
  simp [examineFixedFields, hrevision, hsignature, hlength, hguid]

def Inside (field : Field) : Prop := field.offset + field.size ≤ headersLength.toNat

theorem inside_fixedFields :
    Inside FirmwareVolumeHeader.revision ∧ Inside FirmwareVolumeHeader.signature ∧
      Inside FirmwareVolumeHeader.fvLength ∧ Inside FirmwareVolumeHeader.fileSystemGuid ∧
      Inside FirmwareVolumeHeader.headerLength := by
  unfold Inside
  decide

/-- The checks before the header length look at the first 64 bytes only. -/
theorem calls_examineFixedFields : Traced.Calls Inside (examineFixedFields constants pcds) := by
  obtain ⟨hrevision, hsignature, hlength, hguid, -⟩ := inside_fixedFields
  have hlook (field : Field) (hinside : Inside field) : Traced.Calls Inside (look field) :=
    Traced.Calls.call fun _ => hinside
  apply (hlook _ hrevision).bind
  intro revision
  split
  · exact Traced.Calls.pure _
  apply (hlook _ hsignature).bind
  intro signature
  split
  · exact Traced.Calls.pure _
  apply (hlook _ hlength).bind
  intro fvLength
  split
  · exact Traced.Calls.pure _
  apply (hlook _ hguid).bind
  intro guid
  exact Traced.Calls.pure _

theorem run_examineFvHeader_of_not_match
    (hmismatch : ¬ FixedFieldsMatch constants pcds fwVolHeader) :
    ((examineFvHeader constants pcds).run fwVolHeader).value = .notFound ∧
      ((examineFvHeader constants pcds).run fwVolHeader).calls =
        ((examineFixedFields constants pcds).run fwVolHeader).calls := by
  rw [examineFvHeader, Traced.run_bind, value_examineFixedFields_of_not_match hmismatch]
  simp only [if_true, Traced.run_pure, List.append_nil, and_self]

theorem run_examineFvHeader_of_match (hmatch : FixedFieldsMatch constants pcds fwVolHeader) :
    let rest := (examineFrom constants pcds
      (FirmwareVolumeHeader.headerLength.get fwVolHeader)).run fwVolHeader
    ((examineFvHeader constants pcds).run fwVolHeader).value = rest.value ∧
      ((examineFvHeader constants pcds).run fwVolHeader).calls =
        [FirmwareVolumeHeader.revision, FirmwareVolumeHeader.signature,
          FirmwareVolumeHeader.fvLength, FirmwareVolumeHeader.fileSystemGuid,
          FirmwareVolumeHeader.headerLength] ++ rest.calls := by
  rw [examineFvHeader, Traced.run_bind, run_examineFixedFields_of_match hmatch]
  simp only [Bool.true_eq_false, if_false, Traced.run_bind, run_look, List.cons_append,
    List.nil_append, and_self]

/-! ### From the checksum on -/

section

variable {headerLength : Nat}

theorem sumField_mem_calls :
    sumField headerLength ∈ ((examineFrom constants pcds headerLength).run fwVolHeader).calls := by
  rw [examineFrom, Traced.run_bind, run_examine]
  exact List.mem_append_left _ (List.mem_singleton_self _)

theorem run_examineFrom_of_sum (hsum : calculateSum16 fwVolHeader headerLength ≠ 0) :
    (examineFrom constants pcds headerLength).run fwVolHeader =
      ⟨.notFound, fwVolHeader, [sumField headerLength]⟩ := by
  simp only [examineFrom, Traced.run_bind, run_examine, ne_eq, hsum, not_false_eq_true, if_true,
    Traced.run_pure, List.append_nil]

theorem run_examineFrom_of_signature (hsum : calculateSum16 fwVolHeader headerLength = 0)
    (hstore : ¬ StoreSignatureMatches constants headerLength fwVolHeader) :
    (examineFrom constants pcds headerLength).run fwVolHeader =
      ⟨.notFound, fwVolHeader,
        [sumField headerLength, VariableStoreHeader.signature.shift headerLength]⟩ := by
  rw [StoreSignatureMatches, not_or] at hstore
  simp only [examineFrom, Traced.run_bind, run_examine, run_look, ne_eq, hsum, not_true, if_false,
    hstore, not_false_eq_true, and_self, if_true, Traced.run_pure, List.append_nil,
    List.cons_append, List.nil_append]

theorem run_examineFrom_of_store (hsum : calculateSum16 fwVolHeader headerLength = 0)
    (hstore : StoreSignatureMatches constants headerLength fwVolHeader) :
    (examineFrom constants pcds headerLength).run fwVolHeader =
      ⟨if StoreSizeMatches pcds headerLength fwVolHeader then .success else .notFound, fwVolHeader,
        [sumField headerLength, VariableStoreHeader.signature.shift headerLength,
          VariableStoreHeader.size.shift headerLength]⟩ := by
  have hsignature : ¬ ((VariableStoreHeader.signature.shift headerLength).get fwVolHeader ≠
        constants.variableGuid.toNat ∧
      (VariableStoreHeader.signature.shift headerLength).get fwVolHeader ≠
        constants.authenticatedVariableGuid.toNat) := by
    rintro ⟨hvariable, hauthenticated⟩
    exact hstore.elim hvariable hauthenticated
  rw [examineFrom, Traced.run_bind, run_examine]
  dsimp only
  rw [if_neg (not_not.mpr hsum), Traced.run_bind, run_look]
  dsimp only
  rw [if_neg hsignature, Traced.run_bind, run_look]
  dsimp only
  by_cases hsize : StoreSizeMatches pcds headerLength fwVolHeader
  · rw [if_pos hsize, if_neg fun hne => hne hsize, Traced.run_pure]
    rfl
  · have hne : (VariableStoreHeader.size.shift headerLength).get fwVolHeader ≠
        (pcds.variableSize - UInt32.ofNat headerLength).toNat := hsize
    rw [if_neg hsize, if_pos hne, Traced.run_pure]
    rfl

theorem inside_sumField_iff : Inside (sumField headerLength) ↔ ¬ 101 < headerLength := by
  change 0 + 2 * (headerLength / 2) ≤ 100 ↔ _
  omega

theorem inside_signature_iff :
    Inside (VariableStoreHeader.signature.shift headerLength) ↔ ¬ 84 < headerLength := by
  change headerLength + 0 + 16 ≤ 100 ↔ _
  omega

theorem inside_size_iff :
    Inside (VariableStoreHeader.size.shift headerLength) ↔ ¬ 80 < headerLength := by
  change headerLength + 16 + 4 ≤ 100 ↔ _
  omega

/-- The extent of what is examined from the checksum on. -/
theorem examineFrom_inside_iff :
    ((∀ field ∈ ((examineFrom constants pcds headerLength).run fwVolHeader).calls, Inside field) ∧
        (headerLength % 2 = 1 →
          ((examineFrom constants pcds headerLength).run fwVolHeader).value ≠ .success)) ↔
      ¬ EscapesFrom constants pcds headerLength fwVolHeader := by
  rw [EscapesFrom]
  have hnotFound : EfiStatus.notFound ≠ .success := by decide
  by_cases hsum : calculateSum16 fwVolHeader headerLength = 0
  swap
  · rw [run_examineFrom_of_sum hsum]
    simp only [List.forall_mem_singleton, inside_sumField_iff, hsum, ne_eq, hnotFound,
      not_false_eq_true, implies_true, and_true, false_and, or_false]
  by_cases hstore : StoreSignatureMatches constants headerLength fwVolHeader
  swap
  · rw [run_examineFrom_of_signature hsum hstore]
    simp only [List.forall_mem_cons, List.not_mem_nil, false_implies, inside_sumField_iff,
      inside_signature_iff, hsum, hstore, ne_eq, hnotFound, not_false_eq_true, implies_true,
      and_true, true_and, false_and, or_false, not_or]
  have hvalue : (if StoreSizeMatches pcds headerLength fwVolHeader then EfiStatus.success
      else .notFound) ≠ .success ↔ ¬ StoreSizeMatches pcds headerLength fwVolHeader := by
    by_cases hsize : StoreSizeMatches pcds headerLength fwVolHeader
    · rw [if_pos hsize]
      exact iff_of_false (not_not_intro rfl) (not_not_intro hsize)
    · rw [if_neg hsize]
      exact iff_of_true hnotFound hsize
  rw [run_examineFrom_of_store hsum hstore, hvalue]
  simp only [List.forall_mem_cons, List.not_mem_nil, false_implies, implies_true, and_true,
    inside_sumField_iff, inside_signature_iff, inside_size_iff, hsum, hstore, true_and, not_or,
    not_and, and_assoc]

end

/-! ### The whole function -/

theorem headerConsistent_iff :
    HeaderConsistent constants pcds fwVolHeader ↔
      FixedFieldsMatch constants pcds fwVolHeader ∧
        calculateSum16 fwVolHeader (FirmwareVolumeHeader.headerLength.get fwVolHeader) = 0 ∧
        StoreSignatureMatches constants (FirmwareVolumeHeader.headerLength.get fwVolHeader)
          fwVolHeader ∧
        StoreSizeMatches pcds (FirmwareVolumeHeader.headerLength.get fwVolHeader) fwVolHeader := by
  constructor
  · rintro ⟨hrevision, hsignature, hlength, hguid, hsum, hstore, hsize⟩
    exact ⟨⟨hrevision, hsignature, hlength, hguid⟩, hsum, hstore, hsize⟩
  · rintro ⟨⟨hrevision, hsignature, hlength, hguid⟩, hsum, hstore, hsize⟩
    exact ⟨hrevision, hsignature, hlength, hguid, hsum, hstore, hsize⟩

/-- Keeping the record of what is examined changes no check. -/
theorem value_examineFvHeader (constants : HeaderConstants) (pcds : FlashPcds)
    (fwVolHeader : Nat → UInt8) :
    ((examineFvHeader constants pcds).run fwVolHeader).value =
      checkFvHeader constants pcds fwVolHeader := by
  by_cases hmatch : FixedFieldsMatch constants pcds fwVolHeader
  swap
  · rw [(run_examineFvHeader_of_not_match hmatch).1, checkFvHeader_of_not_consistent]
    exact fun hconsistent => hmatch (headerConsistent_iff.mp hconsistent).1
  rw [(run_examineFvHeader_of_match hmatch).1]
  by_cases hsum : calculateSum16 fwVolHeader
      (FirmwareVolumeHeader.headerLength.get fwVolHeader) = 0
  swap
  · rw [run_examineFrom_of_sum hsum, checkFvHeader_of_not_consistent]
    exact fun hconsistent => hsum (headerConsistent_iff.mp hconsistent).2.1
  by_cases hstore : StoreSignatureMatches constants
      (FirmwareVolumeHeader.headerLength.get fwVolHeader) fwVolHeader
  swap
  · rw [run_examineFrom_of_signature hsum hstore, checkFvHeader_of_not_consistent]
    exact fun hconsistent => hstore (headerConsistent_iff.mp hconsistent).2.2.1
  rw [run_examineFrom_of_store hsum hstore]
  by_cases hsize : StoreSizeMatches pcds (FirmwareVolumeHeader.headerLength.get fwVolHeader)
      fwVolHeader
  · rw [if_pos hsize,
      checkFvHeader_of_consistent (headerConsistent_iff.mpr ⟨hmatch, hsum, hstore, hsize⟩)]
  · rw [if_neg hsize, checkFvHeader_of_not_consistent]
    exact fun hconsistent => hsize (headerConsistent_iff.mp hconsistent).2.2.2

structure StaysInside (constants : HeaderConstants) (pcds : FlashPcds)
    (fwVolHeader : Nat → UInt8) : Prop where
  inside : ∀ field ∈ ((examineFvHeader constants pcds).run fwVolHeader).calls, Inside field
  odd_rejected : FirmwareVolumeHeader.headerLength.get fwVolHeader % 2 = 1 →
    checkFvHeader constants pcds fwVolHeader ≠ .success

/-- **When `ValidateFvHeader` stays inside what it read.** `fwVolHeader` is the buffer after the
read: 100 bytes of flash, then whatever lies behind the buffer. -/
theorem staysInside_iff (constants : HeaderConstants) (pcds : FlashPcds)
    (fwVolHeader : Nat → UInt8) :
    StaysInside constants pcds fwVolHeader ↔
      ¬ (FixedFieldsMatch constants pcds fwVolHeader ∧
        EscapesFrom constants pcds (FirmwareVolumeHeader.headerLength.get fwVolHeader)
          fwVolHeader) := by
  by_cases hmatch : FixedFieldsMatch constants pcds fwVolHeader
  · obtain ⟨hvalue, hcalls⟩ := run_examineFvHeader_of_match hmatch
    have hfixed : ∀ field ∈ [FirmwareVolumeHeader.revision, FirmwareVolumeHeader.signature,
        FirmwareVolumeHeader.fvLength, FirmwareVolumeHeader.fileSystemGuid,
        FirmwareVolumeHeader.headerLength], Inside field := by
      simpa only [List.forall_mem_cons, List.not_mem_nil, false_implies, implies_true, and_true]
        using inside_fixedFields
    rw [and_iff_right hmatch, ← examineFrom_inside_iff]
    constructor
    · rintro ⟨hinside, hodd⟩
      rw [← value_examineFvHeader, hvalue] at hodd
      refine ⟨fun field hfield => hinside field ?_, hodd⟩
      rw [hcalls]
      exact List.mem_append_right _ hfield
    · rintro ⟨hinside, hodd⟩
      refine ⟨?_, ?_⟩
      · rw [hcalls, List.forall_mem_append]
        exact ⟨hfixed, hinside⟩
      · rwa [← value_examineFvHeader, hvalue]
  · obtain ⟨hvalue, hcalls⟩ := run_examineFvHeader_of_not_match hmatch
    refine iff_of_true ⟨?_, ?_⟩ fun hescapes => hmatch hescapes.1
    · rw [hcalls]
      exact calls_examineFixedFields fwVolHeader
    · have hnotFound : EfiStatus.notFound ≠ .success := by decide
      rw [← value_examineFvHeader, hvalue]
      exact fun _ => hnotFound

/-- `ValidateFvHeader` examines the buffer that its read filled. -/
theorem value_validateFvHeader {σ : Type} {lib : NorFlashLib σ} {nor : NorFlashInstance}
    {pool : Buffer} {state : σ} {status : EfiStatus}
    (hread : (lib.read nor nor.startLba 0 headersLength (zeroed pool headersLength) state).1 =
      (status, fwVolHeader)) (hstatus : status.isError = false) :
    ((validateFvHeader constants pcds lib nor (some pool)).run state).value =
      ((examineFvHeader constants pcds).run fwVolHeader).value := by
  rw [value_examineFvHeader, validateFvHeader, Traced.run_bind, NorFlashLib.norFlashRead,
    Traced.run_call, hread]
  simp only [hstatus, Bool.false_eq_true, if_false, Traced.run_pure]

/-! ### A header that is longer than the buffer -/

/-- What `InitializeFvAndVariableStoreHeaders` writes, with another header length. -/
def oversizedHeader : Nat → UInt8 :=
  FirmwareVolumeHeader.headerLength.set 0xFFFE
    (setHeaders sampleConstants samplePcds (sampleInstance false)
      (zeroed sampleBuffer headersLength).bytes)

theorem oversizedHeader_escapes :
    sumField 0xFFFE ∈ ((examineFvHeader sampleConstants samplePcds).run oversizedHeader).calls ∧
      ¬ Inside (sumField 0xFFFE) ∧ ¬ StaysInside sampleConstants samplePcds oversizedHeader := by
  have hlength : FirmwareVolumeHeader.headerLength.get oversizedHeader = 0xFFFE := by
    rw [oversizedHeader, Field.get_set]
    exact Nat.mod_eq_of_lt (by decide : 0xFFFE < 256 ^ 2)
  have hmatch : FixedFieldsMatch sampleConstants samplePcds oversizedHeader := by
    have hconsistent : HeaderConsistent sampleConstants samplePcds
        (setHeaders sampleConstants samplePcds (sampleInstance false)
          (zeroed sampleBuffer headersLength).bytes) :=
      headerConsistent_setHeaders (checksum_zeroed sampleBuffer)
    constructor
    · rw [oversizedHeader, Field.get_set_of_disjoint (by decide), hconsistent.revision_eq]
    · rw [oversizedHeader, Field.get_set_of_disjoint (by decide), hconsistent.signature_eq]
    · rw [oversizedHeader, Field.get_set_of_disjoint (by decide), hconsistent.fvLength_eq]
    · rw [oversizedHeader, Field.get_set_of_disjoint (by decide), hconsistent.fileSystemGuid_eq]
  have hsum : sumField 0xFFFE ∈
      ((examineFvHeader sampleConstants samplePcds).run oversizedHeader).calls := by
    rw [(run_examineFvHeader_of_match hmatch).2, hlength]
    exact List.mem_append_right _ sumField_mem_calls
  have hover : ¬ Inside (sumField 0xFFFE) := by
    rw [inside_sumField_iff]
    decide
  exact ⟨hsum, hover, fun hstays => hover (hstays.inside _ hsum)⟩

end OrionO6.Flash
