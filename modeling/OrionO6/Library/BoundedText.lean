import Mathlib.Data.List.Basic

/-!
# Text in a buffer of fixed capacity

A buffer holds a string of at most `capacity` bytes in UTF-8. A fragment is appended whole or not at
all, a writer gives up at the first fragment that does not fit, and shortening to a byte length
aborts unless a character ends there.
-/

structure BoundedText (capacity : Nat) where
  text : String
  fits : text.utf8ByteSize ≤ capacity

namespace BoundedText

variable {capacity : Nat}

def empty : BoundedText capacity where
  text := ""
  fits := Nat.zero_le _

def len (buffer : BoundedText capacity) : Nat := buffer.text.utf8ByteSize

def push? (buffer : BoundedText capacity) (fragment : String) : Option (BoundedText capacity) :=
  if hfits : (buffer.text ++ fragment).utf8ByteSize ≤ capacity then
    some ⟨buffer.text ++ fragment, hfits⟩
  else
    none

/-- Appends a fragment if it fits, and changes nothing if it does not. -/
def push (buffer : BoundedText capacity) (fragment : String) : BoundedText capacity :=
  (buffer.push? fragment).getD buffer

/-- Appends fragments until one of them does not fit. -/
def write (buffer : BoundedText capacity) : List String → BoundedText capacity
  | [] => buffer
  | fragment :: fragments =>
      match buffer.push? fragment with
      | some longer => longer.write fragments
      | none => buffer

theorem utf8ByteSize_sliceTo_le (text : String) (pos : text.Pos) :
    (text.sliceTo pos).copy.utf8ByteSize ≤ text.utf8ByteSize := by
  calc (text.sliceTo pos).copy.utf8ByteSize
    _ ≤ ((text.sliceTo pos).copy ++ (text.sliceFrom pos).copy).utf8ByteSize := by
          rw [String.utf8ByteSize_append]
          exact Nat.le_add_right _ _
    _ = text.utf8ByteSize := by rw [String.sliceTo_append_sliceFrom]

/-- Shortens the text to `count` bytes. A text no longer than that is left alone; `none` where
`count` falls inside a character. -/
def truncate? (buffer : BoundedText capacity) (count : Nat) : Option (BoundedText capacity) :=
  if count ≤ buffer.len then
    if hboundary : String.Pos.Raw.IsValid buffer.text ⟨count⟩ then
      some {
        text := (buffer.text.sliceTo (buffer.text.pos ⟨count⟩ hboundary)).copy
        fits := Nat.le_trans (utf8ByteSize_sliceTo_le _ _) buffer.fits }
    else
      none
  else
    some buffer

theorem push?_of_fits {buffer : BoundedText capacity} {fragment : String}
    (hfits : (buffer.text ++ fragment).utf8ByteSize ≤ capacity) :
    buffer.push? fragment = some ⟨buffer.text ++ fragment, hfits⟩ := dif_pos hfits

theorem push?_of_overflows {buffer : BoundedText capacity} {fragment : String}
    (hlong : capacity < (buffer.text ++ fragment).utf8ByteSize) :
    buffer.push? fragment = none := dif_neg (Nat.not_le_of_lt hlong)

theorem push_of_fits {buffer : BoundedText capacity} {fragment : String}
    (hfits : (buffer.text ++ fragment).utf8ByteSize ≤ capacity) :
    (buffer.push fragment).text = buffer.text ++ fragment := by
  rw [push, push?_of_fits hfits, Option.getD_some]

/-! ### Writing -/

theorem write_of_fits {buffer : BoundedText capacity} {fragment : String} {fragments : List String}
    (hfits : (buffer.text ++ fragment).utf8ByteSize ≤ capacity) :
    buffer.write (fragment :: fragments) =
      (⟨buffer.text ++ fragment, hfits⟩ : BoundedText capacity).write fragments := by
  rw [write, push?_of_fits hfits]

theorem write_of_overflows {buffer : BoundedText capacity} {fragment : String}
    {fragments : List String} (hlong : capacity < (buffer.text ++ fragment).utf8ByteSize) :
    buffer.write (fragment :: fragments) = buffer := by
  rw [write, push?_of_overflows hlong]

/-- What fits is written, and writing goes on after it. -/
theorem write_append {buffer : BoundedText capacity} {taken : List String}
    (hfits : (buffer.text ++ String.join taken).utf8ByteSize ≤ capacity) (rest : List String) :
    buffer.write (taken ++ rest) =
      (⟨buffer.text ++ String.join taken, hfits⟩ : BoundedText capacity).write rest := by
  induction taken generalizing buffer with
  | nil => simp
  | cons fragment taken ih =>
      have hassoc : buffer.text ++ String.join (fragment :: taken) =
          buffer.text ++ fragment ++ String.join taken := by
        rw [String.join_cons, String.append_assoc]
      have hhead : (buffer.text ++ fragment).utf8ByteSize ≤ capacity := by
        rw [hassoc, String.utf8ByteSize_append] at hfits
        omega
      rw [List.cons_append, write_of_fits hhead, ih (by rwa [hassoc] at hfits)]
      simp only [hassoc]

/-- **Writing takes the longest leading run that fits.** -/
theorem exists_taken (buffer : BoundedText capacity) (fragments : List String) :
    ∃ taken rest, fragments = taken ++ rest ∧
      (buffer.write fragments).text = buffer.text ++ String.join taken ∧
      ∀ fragment ∈ rest.head?,
        capacity < ((buffer.write fragments).text ++ fragment).utf8ByteSize := by
  induction fragments generalizing buffer with
  | nil => exact ⟨[], [], rfl, by simp [write], by simp⟩
  | cons fragment fragments ih =>
      by_cases hfits : (buffer.text ++ fragment).utf8ByteSize ≤ capacity
      · obtain ⟨taken, rest, hsplit, htext, hnext⟩ := ih ⟨buffer.text ++ fragment, hfits⟩
        rw [write_of_fits hfits]
        refine ⟨fragment :: taken, rest, ?_, ?_, hnext⟩
        · rw [hsplit, List.cons_append]
        · rw [htext, String.join_cons, String.append_assoc]
      · have hlong : capacity < (buffer.text ++ fragment).utf8ByteSize := by omega
        rw [write_of_overflows hlong]
        exact ⟨[], fragment :: fragments, rfl, by simp, by simpa using hlong⟩

/-- A leading run that fits begins what is written. -/
theorem exists_text_write_append {buffer : BoundedText capacity} {taken : List String}
    (hfits : (buffer.text ++ String.join taken).utf8ByteSize ≤ capacity) (rest : List String) :
    ∃ more, (buffer.write (taken ++ rest)).text = buffer.text ++ String.join taken ++ more := by
  rw [write_append hfits]
  obtain ⟨more, _, _, htext, _⟩ :=
    exists_taken (⟨buffer.text ++ String.join taken, hfits⟩ : BoundedText capacity) rest
  exact ⟨String.join more, htext⟩

theorem text_write_of_fits {buffer : BoundedText capacity} {fragments : List String}
    (hfits : (buffer.text ++ String.join fragments).utf8ByteSize ≤ capacity) :
    (buffer.write fragments).text = buffer.text ++ String.join fragments := by
  have hwrite := write_append hfits []
  rw [List.append_nil] at hwrite
  rw [hwrite, write]

/-! ### Shortening -/

theorem truncate?_of_inside {buffer : BoundedText capacity} {count : Nat} (hle : count ≤ buffer.len)
    (hinside : ¬ String.Pos.Raw.IsValid buffer.text ⟨count⟩) : buffer.truncate? count = none := by
  rw [truncate?, if_pos hle, dif_neg hinside]

theorem exists_truncate?_of_boundary {buffer : BoundedText capacity} {count : Nat}
    (hle : count ≤ buffer.len) (hboundary : String.Pos.Raw.IsValid buffer.text ⟨count⟩) :
    ∃ shorter rest, buffer.truncate? count = some shorter ∧ buffer.text = shorter.text ++ rest ∧
      shorter.len = count := by
  have htruncate : buffer.truncate? count = some {
      text := (buffer.text.sliceTo (buffer.text.pos ⟨count⟩ hboundary)).copy
      fits := Nat.le_trans (utf8ByteSize_sliceTo_le _ _) buffer.fits } := by
    rw [truncate?, if_pos hle, dif_pos hboundary]
  refine ⟨_, (buffer.text.sliceFrom (buffer.text.pos ⟨count⟩ hboundary)).copy, htruncate, ?_, ?_⟩
  · exact String.sliceTo_append_sliceFrom.symm
  · have hoffset := (buffer.text.pos ⟨count⟩ hboundary).splits.offset_eq_rawEndPos
    rw [String.offset_pos] at hoffset
    exact (congrArg String.Pos.Raw.byteIdx hoffset).symm

end BoundedText
