import Mathlib.Order.CompletePartialOrder
import Mathlib.Order.Interval.Set.Disjoint

/-!
# Ranges in order

A list of half-open ranges over a linear order. Ranges that ascend, each from where the one before
it has ended, share no point and stay between their two ends; ranges that adjoin leave none out.
-/

namespace Ranges

structure Range (α : Type*) where
  lower : α
  upper : α
  deriving DecidableEq

variable {α : Type*} [LinearOrder α]

def Range.toSet (range : Range α) : Set α := Set.Ico range.lower range.upper

def cover (ranges : List (Range α)) : Set α := {point | ∃ range ∈ ranges, point ∈ range.toSet}

theorem cover_nil : cover ([] : List (Range α)) = ∅ := by
  ext point
  simp [cover]

theorem cover_cons (range : Range α) (ranges : List (Range α)) :
    cover (range :: ranges) = range.toSet ∪ cover ranges := by
  ext point
  simp [cover]

theorem cover_append (first second : List (Range α)) :
    cover (first ++ second) = cover first ∪ cover second := by
  induction first with
  | nil => rw [List.nil_append, cover_nil, Set.empty_union]
  | cons range ranges ih => rw [List.cons_append, cover_cons, cover_cons, ih, Set.union_assoc]

theorem not_mem_cover_of_lt {point : α} {ranges : List (Range α)}
    (hbefore : ∀ range ∈ ranges, point < range.lower) : point ∉ cover ranges := by
  rintro ⟨range, hmem, hlower, -⟩
  exact (hbefore range hmem).not_ge hlower

/-! ### Ascending ranges -/

/-- The ranges are not empty and lie one after the other between the two points, with or without
gaps. -/
def Ascend : α → List (Range α) → α → Prop
  | start, [], stop => start ≤ stop
  | start, range :: ranges, stop =>
      start ≤ range.lower ∧ range.lower < range.upper ∧ Ascend range.upper ranges stop

variable {start middle stop : α} {range : Range α} {ranges first second : List (Range α)}

theorem Ascend.le (hascend : Ascend start ranges stop) : start ≤ stop := by
  induction ranges generalizing start with
  | nil => exact hascend
  | cons range ranges ih =>
      obtain ⟨hlower, hupper, hrest⟩ := hascend
      calc
        start ≤ range.lower := hlower
        _ ≤ range.upper := hupper.le
        _ ≤ stop := ih hrest

theorem Ascend.of_le (hle : start ≤ middle) (hascend : Ascend middle ranges stop) :
    Ascend start ranges stop := by
  cases ranges with
  | nil => exact hle.trans hascend
  | cons range ranges => exact ⟨hle.trans hascend.1, hascend.2⟩

theorem Ascend.append (hfirst : Ascend start first middle) (hsecond : Ascend middle second stop) :
    Ascend start (first ++ second) stop := by
  induction first generalizing start with
  | nil => exact hsecond.of_le hfirst
  | cons range ranges ih => exact ⟨hfirst.1, hfirst.2.1, ih hfirst.2.2⟩

theorem Ascend.bounds (hascend : Ascend start ranges stop) (hmem : range ∈ ranges) :
    start ≤ range.lower ∧ range.lower < range.upper ∧ range.upper ≤ stop := by
  induction ranges generalizing start with
  | nil => cases hmem
  | cons head ranges ih =>
      obtain ⟨hlower, hupper, hrest⟩ := hascend
      rcases List.mem_cons.mp hmem with rfl | hmem
      · exact ⟨hlower, hupper, hrest.le⟩
      · obtain ⟨hfrom, hnonempty, hto⟩ := ih hrest hmem
        exact ⟨(hlower.trans hupper.le).trans hfrom, hnonempty, hto⟩

theorem Ascend.pairwise (hascend : Ascend start ranges stop) :
    ranges.Pairwise fun left right => left.upper ≤ right.lower := by
  induction ranges generalizing start with
  | nil => exact List.Pairwise.nil
  | cons range ranges ih =>
      obtain ⟨-, -, hrest⟩ := hascend
      exact List.Pairwise.cons (fun right hmem => (hrest.bounds hmem).1) (ih hrest)

theorem Ascend.pairwise_lower_lt (hascend : Ascend start ranges stop) :
    ranges.Pairwise fun left right => left.lower < right.lower :=
  hascend.pairwise.imp_of_mem fun hleft _ hle => (hascend.bounds hleft).2.1.trans_le hle

theorem disjoint_of_le {left right : Range α} (hle : left.upper ≤ right.lower) :
    Disjoint left.toSet right.toSet :=
  Set.Ico_disjoint_Ico.mpr ((min_le_left _ _).trans (hle.trans (le_max_right _ _)))

theorem Ascend.pairwise_disjoint (hascend : Ascend start ranges stop) :
    ranges.Pairwise fun left right => Disjoint left.toSet right.toSet :=
  hascend.pairwise.imp disjoint_of_le

/-! ### Adjoining ranges -/

/-- The ranges lead from the one point to the other, each beginning where the one before it ends. -/
def Adjoin : α → List (Range α) → α → Prop
  | start, [], stop => start = stop
  | start, range :: ranges, stop =>
      range.lower = start ∧ start ≤ range.upper ∧ Adjoin range.upper ranges stop

theorem Adjoin.le (hadjoin : Adjoin start ranges stop) : start ≤ stop := by
  induction ranges generalizing start with
  | nil => exact le_of_eq hadjoin
  | cons range ranges ih => exact hadjoin.2.1.trans (ih hadjoin.2.2)

/-- **Adjoining ranges have no gap.** -/
theorem Adjoin.cover_eq (hadjoin : Adjoin start ranges stop) :
    cover ranges = Set.Ico start stop := by
  induction ranges generalizing start with
  | nil =>
      obtain rfl : start = stop := hadjoin
      rw [cover_nil, Set.Ico_self]
  | cons range ranges ih =>
      obtain ⟨rfl, hle, hrest⟩ := hadjoin
      rw [cover_cons, ih hrest, Range.toSet, Set.Ico_union_Ico_eq_Ico hle hrest.le]

end Ranges
