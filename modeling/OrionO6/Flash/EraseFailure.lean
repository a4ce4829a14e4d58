import OrionO6.Flash.SharedStore

/-!
# Erasing that fails

The library may fail at any range of an erase. Whatever it does, the ranges that were tried are the
first ones of the list, all but the last one succeeded, and the status says whether it did too.
-/

namespace OrionO6.Flash

section

variable {σ : Type} (lib : NorFlashLib σ) (nor : NorFlashInstance)

/-- The erases that a list of arguments asks for. -/
def eraseOps : List UInt64 → List FlashOp
  | startingLba :: numOfLba :: args =>
      if startingLba = efiLbaListTerminator then []
      else
        .erase (nor.startLba + startingLba) (numOfLba * nor.media.blockSize.toUInt64) :: eraseOps args
  | _ => []

/-- What an erase has done when it returns: it tried a first part of what it was asked for, and
only the last erase of this part can have failed. If none failed, it tried everything and returns no
error. -/
structure ErasedUpTo (ops : List FlashOp) (ran : Ran σ Call EfiStatus) : Prop where
  tried : ran.calls.map Call.op <+: ops
  succeeded : ∀ call ∈ ran.calls.dropLast, call.status.isError = false
  failed_iff : ran.value = .deviceError ↔ ∃ call ∈ ran.calls, call.status.isError = true
  finished : (∀ call ∈ ran.calls, call.status.isError = false) →
    ran.calls.map Call.op = ops ∧ ran.value.isError = false

theorem erasedUpTo_of_none {value : EfiStatus} {state : σ} (hvalue : value.isError = false) :
    ErasedUpTo [] (⟨value, state, []⟩ : Ran σ Call EfiStatus) where
  tried := List.prefix_refl _
  succeeded := fun call hcall => by cases hcall
  failed_iff := by
    refine iff_of_false ?_ (by simp)
    rintro rfl
    cases hvalue
  finished := fun _ => ⟨rfl, hvalue⟩

theorem erasedUpTo_of_failed {op : FlashOp} {status : EfiStatus} {ops : List FlashOp} {state : σ}
    (hstatus : status.isError = true) :
    ErasedUpTo (op :: ops) (⟨.deviceError, state, [{ op, status }]⟩ : Ran σ Call EfiStatus) where
  tried := ⟨ops, rfl⟩
  succeeded := fun call hcall => by cases hcall
  failed_iff := iff_of_true rfl ⟨_, List.mem_singleton_self _, hstatus⟩
  finished := by
    intro hnone
    have hfirst := hnone _ (List.mem_singleton_self _)
    rw [hstatus] at hfirst
    cases hfirst

/-- After an erase that succeeded, the rest of the list decides. -/
theorem ErasedUpTo.cons {op : FlashOp} {status : EfiStatus} {ops : List FlashOp}
    {ran : Ran σ Call EfiStatus} (hran : ErasedUpTo ops ran) (hstatus : status.isError = false) :
    ErasedUpTo (op :: ops)
      (⟨ran.value, ran.state, { op, status } :: ran.calls⟩ : Ran σ Call EfiStatus) where
  tried := by
    rw [List.map_cons]
    exact List.prefix_cons_inj op |>.mpr hran.tried
  succeeded := by
    intro call hcall
    dsimp only at hcall
    cases hcalls : ran.calls with
    | nil =>
        rw [hcalls] at hcall
        cases hcall
    | cons next rest =>
        rw [hcalls, List.dropLast_cons_of_ne_nil (List.cons_ne_nil _ _), ← hcalls] at hcall
        rcases List.mem_cons.mp hcall with rfl | hlater
        · exact hstatus
        · exact hran.succeeded call hlater
  failed_iff := by
    rw [hran.failed_iff, List.exists_mem_cons_iff, hstatus]
    simp
  finished := by
    intro hnone
    obtain ⟨hops, hvalue⟩ := hran.finished (List.forall_mem_cons.mp hnone).2
    exact ⟨by rw [List.map_cons, hops], hvalue⟩

theorem erasedUpTo_eraseRanges (args : List UInt64) (status : EfiStatus)
    (hstatus : status.isError = false) (state : σ) :
    ErasedUpTo (eraseOps nor args) ((eraseRanges lib nor status args).run state) := by
  induction args using eraseOps.induct generalizing status state with
  | case1 numOfLba args =>
      rw [eraseRanges, if_pos rfl, eraseOps, if_pos rfl]
      exact erasedUpTo_of_none hstatus
  | case2 startingLba numOfLba args hstarting ih =>
      rw [eraseRanges, if_neg hstarting, eraseOps, if_neg hstarting, Traced.run_bind,
        NorFlashLib.norFlashErase, Traced.run_call]
      cases herror : (lib.erase nor (nor.startLba + startingLba)
          (numOfLba * nor.media.blockSize.toUInt64) state).1.isError with
      | true =>
          simp only [if_true]
          exact erasedUpTo_of_failed herror
      | false =>
          simp only [Bool.false_eq_true, if_false]
          exact (ih _ herror _).cons herror
  | case3 args hargs =>
      rw [eraseRanges.eq_2 lib nor _ args hargs, eraseOps.eq_2 nor args hargs]
      exact erasedUpTo_of_none hstatus

/-- **An erase that fails has erased a first part of the list.** Whatever the library does and
whatever the arguments are, a writable volume refuses the whole list with `EFI_INVALID_PARAMETER`
and no call, or tries its ranges in order until one fails; the status is `EFI_DEVICE_ERROR` just in
case one did, and otherwise every range has been erased. -/
theorem fvbEraseBlocks_erasedUpTo (args : List UInt64) (state : σ)
    (hwritable : nor.media.readOnly = false) :
    let ran := (fvbEraseBlocks lib nor args).run state
    (eraseArgsAccepted nor args = false ∧ ran.value = .invalidParameter ∧ ran.calls = []) ∨
      (eraseArgsAccepted nor args = true ∧ ErasedUpTo (eraseOps nor args) ran) := by
  intro ran
  cases haccepted : eraseArgsAccepted nor args with
  | false =>
      have hran : ran = (pure .invalidParameter : Driver σ EfiStatus).run state := by
        simp only [ran, fvbEraseBlocks, hwritable, haccepted, Bool.false_eq_true, if_false]
      rw [hran]
      exact Or.inl ⟨rfl, rfl, rfl⟩
  | true =>
      have hran : ran = (eraseRanges lib nor .success args).run state := by
        simp only [ran, fvbEraseBlocks, hwritable, haccepted, Bool.false_eq_true, if_false, if_true]
      rw [hran]
      exact Or.inr ⟨rfl, erasedUpTo_eraseRanges lib nor args .success rfl state⟩

end

/-- A device on which the block 0x710 cannot be erased. -/
def NorFlashLib.worn : NorFlashLib Unit :=
  { NorFlashLib.idle with
    erase := fun _ lba _ state => (if lba = 0x710 then .deviceError else .success, state) }

/-- Three ranges, of which the second begins at the worn block. -/
def wornArgs : List UInt64 := [2, 3, 0x10, 2, 0x20, 1, efiLbaListTerminator]

theorem fvbEraseBlocks_erasedUpTo_worn :
    ErasedUpTo (eraseOps (sampleInstance false) wornArgs)
        ((fvbEraseBlocks NorFlashLib.worn (sampleInstance false) wornArgs).run ()) ∧
      ((fvbEraseBlocks NorFlashLib.worn (sampleInstance false) wornArgs).run ()).value =
        .deviceError ∧
      ((fvbEraseBlocks NorFlashLib.worn (sampleInstance false) wornArgs).run ()).calls = [
        { op := .erase 0x702 0x3000, status := .success },
        { op := .erase 0x710 0x2000, status := .deviceError }] := by
  refine ⟨?_, rfl, rfl⟩
  rcases fvbEraseBlocks_erasedUpTo NorFlashLib.worn (sampleInstance false) wornArgs () rfl with
    ⟨hrefused, -⟩ | ⟨-, herased⟩
  · exact absurd hrefused (by decide)
  · exact herased

end OrionO6.Flash
