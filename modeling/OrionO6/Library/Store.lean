import Mathlib.Data.Set.Function
import OrionO6.Library.Memory

/-!
# Stores

A store gives every address a byte. It is edited and fetched window by window. After a run of edits
an address holds what the latest edit of it put there, and two stores that agree on an area keep
doing so.
-/

namespace Store

variable {β : Type}

structure Window where
  start : Nat
  length : Nat

def Window.Covers (window : Window) (address : Nat) : Prop :=
  window.start ≤ address ∧ address < window.start + window.length

instance (window : Window) (address : Nat) : Decidable (window.Covers address) :=
  inferInstanceAs (Decidable (_ ∧ _))

structure Edit (β : Type) extends Window where
  source : Nat → β

def Edit.apply (edit : Edit β) (store : Nat → β) : Nat → β :=
  Memory.overwrite store edit.start edit.length edit.source

def applyAll (edits : List (Edit β)) (store : Nat → β) : Nat → β :=
  edits.foldl (fun store edit => edit.apply store) store

@[simp]
theorem applyAll_nil (store : Nat → β) : applyAll [] store = store := rfl

@[simp]
theorem applyAll_cons (edit : Edit β) (edits : List (Edit β)) (store : Nat → β) :
    applyAll (edit :: edits) store = applyAll edits (edit.apply store) := rfl

theorem applyAll_append (first second : List (Edit β)) (store : Nat → β) :
    applyAll (first ++ second) store = applyAll second (applyAll first store) :=
  List.foldl_append

theorem Edit.apply_of_covers {edit : Edit β} {address : Nat} (hcovers : edit.Covers address)
    (store : Nat → β) : edit.apply store address = edit.source (address - edit.start) :=
  Memory.overwrite_inside _ _ hcovers.1 hcovers.2

theorem Edit.apply_of_not_covers {edit : Edit β} {address : Nat} (hnot : ¬ edit.Covers address)
    (store : Nat → β) : edit.apply store address = store address :=
  if_neg hnot

theorem applyAll_of_not_covers {edits : List (Edit β)} {address : Nat}
    (hnot : ∀ edit ∈ edits, ¬ edit.Covers address) (store : Nat → β) :
    applyAll edits store address = store address := by
  induction edits generalizing store with
  | nil => rfl
  | cons edit edits ih =>
      obtain ⟨hhead, htail⟩ := List.forall_mem_cons.mp hnot
      rw [applyAll_cons, ih htail, Edit.apply_of_not_covers hhead]

/-! ### The latest edit -/

/-- What the latest edit of an address puts there. -/
def latest (address : Nat) : List (Edit β) → Option β
  | [] => none
  | edit :: edits =>
      (latest address edits).or
        (if edit.Covers address then some (edit.source (address - edit.start)) else none)

/-- **The latest edit wins.** -/
theorem applyAll_eq_latest (edits : List (Edit β)) (store : Nat → β) (address : Nat) :
    applyAll edits store address = (latest address edits).getD (store address) := by
  induction edits generalizing store with
  | nil => rfl
  | cons edit edits ih =>
      rw [applyAll_cons, ih, latest]
      cases latest address edits with
      | some byte => rfl
      | none =>
          by_cases hcovers : edit.Covers address
          · rw [if_pos hcovers]
            exact Edit.apply_of_covers hcovers store
          · rw [if_neg hcovers]
            exact Edit.apply_of_not_covers hcovers store

theorem exists_of_latest {address : Nat} {edits : List (Edit β)} {byte : β}
    (hlatest : latest address edits = some byte) :
    ∃ edit ∈ edits, edit.Covers address ∧ byte = edit.source (address - edit.start) := by
  induction edits with
  | nil => cases hlatest
  | cons edit edits ih =>
      rw [latest] at hlatest
      cases hlater : latest address edits with
      | some later =>
          rw [hlater, Option.some_or] at hlatest
          obtain ⟨other, hother, hwrote⟩ := ih (hlater.trans hlatest)
          exact ⟨other, List.mem_cons_of_mem _ hother, hwrote⟩
      | none =>
          rw [hlater, Option.none_or] at hlatest
          by_cases hcovers : edit.Covers address
          · rw [if_pos hcovers] at hlatest
            exact ⟨edit, List.mem_cons_self, hcovers, (Option.some.inj hlatest).symm⟩
          · rw [if_neg hcovers] at hlatest
            cases hlatest

theorem latest_eq_none_iff {address : Nat} {edits : List (Edit β)} :
    latest address edits = none ↔ ∀ edit ∈ edits, ¬ edit.Covers address := by
  induction edits with
  | nil => simp [latest]
  | cons edit edits ih =>
      rw [latest, Option.or_eq_none_iff, ih, List.forall_mem_cons, and_comm]
      simp

/-- Edits that all take their bytes from one image leave the image wherever they have been, in
whichever order they are made. -/
theorem applyAll_of_image {image : Nat → β} {edits : List (Edit β)}
    (himage : ∀ edit ∈ edits, ∀ address, edit.Covers address →
      edit.source (address - edit.start) = image address)
    (store : Nat → β) {address : Nat} (hcovered : ∃ edit ∈ edits, edit.Covers address) :
    applyAll edits store address = image address := by
  obtain ⟨edit, hedit, hcovers⟩ := hcovered
  rw [applyAll_eq_latest]
  cases hlatest : latest address edits with
  | none => exact absurd hcovers (latest_eq_none_iff.mp hlatest edit hedit)
  | some byte =>
      obtain ⟨other, hother, hcoversOther, hbyte⟩ := exists_of_latest hlatest
      exact hbyte.trans (himage other hother address hcoversOther)

/-! ### Operations -/

inductive Op (β : Type) where
  | fetch (window : Window)
  | edit (edits : List (Edit β))

namespace Op

def edits : Op β → List (Edit β)
  | fetch _ => []
  | edit edits => edits

def apply (op : Op β) (store : Nat → β) : Nat → β := applyAll op.edits store

/-- The bytes that an operation fetches. An edit fetches none. -/
def fetched (store : Nat → β) : Op β → List β
  | fetch window => (List.range window.length).map fun index => store (window.start + index)
  | edit _ => []

/-- Everything the operation fetches lies in the area. -/
def FetchesIn (area : Set Nat) : Op β → Prop
  | fetch window => ∀ address, window.Covers address → address ∈ area
  | edit _ => True

def EditsOutside (area : Set Nat) (op : Op β) : Prop :=
  ∀ edit ∈ op.edits, ∀ address ∈ area, ¬ edit.Covers address

theorem fetched_congr {area : Set Nat} {op : Op β} {store other : Nat → β}
    (hop : op.FetchesIn area) (hagree : Set.EqOn store other area) :
    op.fetched store = op.fetched other := by
  cases op with
  | edit edits => rfl
  | fetch window =>
      apply List.map_congr_left
      intro index hindex
      exact hagree (hop _ ⟨Nat.le_add_right _ _, Nat.add_lt_add_left (List.mem_range.mp hindex) _⟩)

theorem apply_of_editsOutside {area : Set Nat} {op : Op β} (hop : op.EditsOutside area)
    (store : Nat → β) : Set.EqOn (op.apply store) store area :=
  fun address haddress => applyAll_of_not_covers (fun edit hedit => hop edit hedit address haddress) _

theorem apply_congr {area : Set Nat} (op : Op β) {store other : Nat → β}
    (hagree : Set.EqOn store other area) : Set.EqOn (op.apply store) (op.apply other) area := by
  intro address haddress
  rw [apply, apply, applyAll_eq_latest, applyAll_eq_latest, hagree haddress]

end Op

end Store
