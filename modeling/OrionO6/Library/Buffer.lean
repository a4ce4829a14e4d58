import Mathlib.Tactic.Common

/-!
# Fixed-size buffers

A buffer is a list whose length never changes. Taking a window of it and overwriting a window are
partial: a window that is inverted or runs past the end has no value, which is where a
bounds-checked language aborts.
-/

namespace Buffer

variable {α : Type}

/-- The window from `start` up to, but not including, `stop`. -/
def slice (buffer : List α) (start stop : Nat) : Option (List α) :=
  if start ≤ stop ∧ stop ≤ buffer.length then
    some ((buffer.drop start).take (stop - start))
  else
    none

/-- Overwrites the window that begins at `start` and is as long as `source`. -/
def store (buffer : List α) (start : Nat) (source : List α) : Option (List α) :=
  if start + source.length ≤ buffer.length then
    some (buffer.take start ++ source ++ buffer.drop (start + source.length))
  else
    none

def padTo (size : Nat) (fill : α) (source : List α) : List α :=
  source.take size ++ List.replicate (size - source.length) fill

theorem slice_append (before window after : List α) {start stop : Nat}
    (hstart : before.length = start) (hstop : start + window.length = stop) :
    slice (before ++ window ++ after) start stop = some window := by
  have hbounds : start ≤ stop ∧ stop ≤ (before ++ window ++ after).length := by
    simp only [List.length_append]
    omega
  rw [slice, if_pos hbounds, List.append_assoc, List.drop_left' hstart, List.take_left' (by omega)]

theorem length_of_slice {buffer window : List α} {start stop : Nat}
    (hslice : slice buffer start stop = some window) : window.length = stop - start := by
  unfold slice at hslice
  split at hslice
  · rename_i hbounds
    cases hslice
    rw [List.length_take_of_le]
    simp only [List.length_drop]
    omega
  · cases hslice

theorem store_append (before after source : List α) {start : Nat}
    (hstart : before.length = start) (hfits : source.length ≤ after.length) :
    store (before ++ after) start source = some (before ++ source ++ after.drop source.length) := by
  have hbounds : start + source.length ≤ (before ++ after).length := by
    simp only [List.length_append]
    omega
  rw [store, if_pos hbounds, List.take_left' hstart, ← hstart, List.drop_append]
  simp

@[simp]
theorem length_padTo (size : Nat) (fill : α) (source : List α) :
    (padTo size fill source).length = size := by
  simp only [padTo, List.length_append, List.length_take, List.length_replicate]
  omega

end Buffer
