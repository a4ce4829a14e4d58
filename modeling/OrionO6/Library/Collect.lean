import Mathlib.Data.List.Basic

/-!
# Collecting in two passes

A first pass counts what is to be collected, so that room for just that much can be set aside; a
second pass writes it there behind a cursor. If both passes take the same things, the second one
never writes outside.
-/

namespace Collect

variable {α β : Type} (takes : α → Bool) (entry : α → β)

def count (values : List α) : Nat :=
  values.foldl (fun found value => if takes value then found + 1 else found) 0

/-- One step of the second pass, on the pool and the cursor; `none` where it writes outside. -/
def fillStep : List β × Nat → α → Option (List β × Nat)
  | (pool, cursor), value =>
      if takes value then
        if cursor < pool.length then some (pool.set cursor (entry value), cursor + 1) else none
      else
        some (pool, cursor)

def fill (pool : List β) (values : List α) : Option (List β × Nat) :=
  values.foldlM (fillStep takes entry) (pool, 0)

variable {takes entry}

theorem count_eq (values : List α) : count takes values = (values.filter takes).length := by
  have hfold (found : Nat) : values.foldl
      (fun found value => if takes value then found + 1 else found) found =
        found + (values.filter takes).length := by
    induction values generalizing found with
    | nil => rfl
    | cons value values ih =>
        rw [List.foldl_cons, ih]
        by_cases htakes : takes value = true
        · rw [if_pos htakes, List.filter_cons_of_pos htakes, List.length_cons]
          omega
        · rw [if_neg htakes, List.filter_cons_of_neg htakes]
  rw [count, hfold, Nat.zero_add]

/-- The second pass from any cursor on: what it has written stays, and what it takes comes next. -/
theorem foldlM_fillStep (written : List β) : ∀ (values : List α) (pool : List β),
    (values.filter takes).length = pool.length →
      values.foldlM (fillStep takes entry) (written ++ pool, written.length) =
        some (written ++ (values.filter takes).map entry, written.length + pool.length) := by
  intro values
  induction values generalizing written with
  | nil =>
      intro pool hroom
      obtain rfl := List.length_eq_zero_iff.mp hroom.symm
      rfl
  | cons value values ih =>
      intro pool hroom
      rw [List.foldlM_cons]
      by_cases htakes : takes value = true
      · rw [List.filter_cons_of_pos htakes] at hroom ⊢
        cases pool with
        | nil => cases hroom
        | cons free pool =>
            have hcursor : written.length < (written ++ free :: pool).length := by
              rw [List.length_append, List.length_cons]
              omega
            have hstep : fillStep takes entry (written ++ free :: pool, written.length) value =
                some (written ++ [entry value] ++ pool, (written ++ [entry value]).length) := by
              rw [fillStep, if_pos htakes, if_pos hcursor]
              simp
            rw [hstep, Option.bind_eq_bind, Option.bind_some,
              ih (written ++ [entry value]) pool (Nat.succ.inj hroom)]
            simp [Nat.add_comm, Nat.add_left_comm]
      · rw [List.filter_cons_of_neg htakes] at hroom ⊢
        have hstep : fillStep takes entry (written ++ pool, written.length) value =
            some (written ++ pool, written.length) := by
          rw [fillStep, if_neg htakes]
        rw [hstep, Option.bind_eq_bind, Option.bind_some, ih written pool hroom]

/-- **A pool of the counted size is filled exactly.** -/
theorem fill_replicate_count (free : β) (values : List α) :
    fill takes entry (List.replicate (count takes values) free) values =
      some ((values.filter takes).map entry, count takes values) := by
  have hroom : (values.filter takes).length =
      (List.replicate (count takes values) free).length := by
    rw [List.length_replicate, count_eq]
  have hfill := @foldlM_fillStep _ _ takes entry [] values _ hroom
  rwa [List.nil_append, List.nil_append, List.length_nil, Nat.zero_add, List.length_replicate]
    at hfill

end Collect
