import Mathlib.Algebra.Order.Ring.Nat
import Mathlib.Tactic.Common

/-!
# Byte memories

A memory gives every address a byte. A window of it can be overwritten, fields of a record can be
read and set in little-endian order, and its 16-bit words can be summed modulo 2^16.
-/

namespace Memory

section

variable {β : Type}

/-- The memory with the `length` bytes from `start` on taken from `source`. -/
def overwrite (memory : Nat → β) (start length : Nat) (source : Nat → β) : Nat → β :=
  fun address =>
    if start ≤ address ∧ address < start + length then source (address - start)
    else memory address

theorem overwrite_inside (memory source : Nat → β) {start length address : Nat}
    (hfrom : start ≤ address) (hto : address < start + length) :
    overwrite memory start length source address = source (address - start) :=
  if_pos ⟨hfrom, hto⟩

theorem overwrite_front (memory source : Nat → β) {length address : Nat}
    (haddress : address < length) : overwrite memory 0 length source address = source address := by
  rw [overwrite_inside _ _ (Nat.zero_le _) (by omega), Nat.sub_zero]

theorem overwrite_outside (memory source : Nat → β) {start length address : Nat}
    (houtside : address < start ∨ start + length ≤ address) :
    overwrite memory start length source address = memory address := by
  apply if_neg
  omega

end

/-! ### Little-endian numbers -/

/-- The number that `size` bytes hold from an address on, the lowest byte first. -/
def loadLe (memory : Nat → UInt8) (start : Nat) : Nat → Nat
  | 0 => 0
  | size + 1 => (memory start).toNat + 256 * loadLe memory (start + 1) size

variable {memory other : Nat → UInt8}

theorem loadLe_congr {start size : Nat}
    (hagree : ∀ address, start ≤ address → address < start + size →
      memory address = other address) :
    loadLe memory start size = loadLe other start size := by
  induction size generalizing start with
  | zero => rfl
  | succ size ih =>
      have htail : loadLe memory (start + 1) size = loadLe other (start + 1) size := by
        refine ih fun address hfrom hto => hagree address ?_ ?_ <;> omega
      rw [loadLe, loadLe, hagree start (Nat.le_refl _) (by omega), htail]

/-- Reading the base-256 digits of a number gives it back, cut to the width. -/
theorem loadLe_digits {start size value : Nat}
    (hdigits : ∀ index < size, memory (start + index) = UInt8.ofNat (value / 256 ^ index)) :
    loadLe memory start size = value % 256 ^ size := by
  induction size generalizing start value with
  | zero => rw [loadLe, Nat.pow_zero, Nat.mod_one]
  | succ size ih =>
      have hhead : memory start = UInt8.ofNat value := by
        simpa using hdigits 0 (Nat.succ_pos size)
      have htail : loadLe memory (start + 1) size = value / 256 % 256 ^ size := by
        apply ih
        intro index hindex
        rw [Nat.add_assoc, Nat.add_comm 1 index, hdigits (index + 1) (by omega), Nat.pow_succ',
          Nat.div_div_eq_div_mul]
      have hbyte : (UInt8.ofNat value).toNat = value % 256 := UInt8.toNat_ofNat'
      calc loadLe memory start (size + 1)
        _ = value % 256 + 256 * (value / 256 % 256 ^ size) := by rw [loadLe, hhead, htail, hbyte]
        _ = value % 256 ^ (size + 1) := by rw [Nat.pow_succ', Nat.mod_mul]

/-! ### Fields -/

structure Field where
  offset : Nat
  size : Nat

namespace Field

def shift (base : Nat) (field : Field) : Field := { field with offset := base + field.offset }

def Disjoint (field other : Field) : Prop :=
  field.offset + field.size ≤ other.offset ∨ other.offset + other.size ≤ field.offset

instance (field other : Field) : Decidable (field.Disjoint other) :=
  inferInstanceAs (Decidable (_ ∨ _))

def get (field : Field) (memory : Nat → UInt8) : Nat := loadLe memory field.offset field.size

/-- The memory with the field set to a number, which is cut to the width of the field. -/
def set (field : Field) (value : Nat) (memory : Nat → UInt8) : Nat → UInt8 :=
  overwrite memory field.offset field.size fun index => UInt8.ofNat (value / 256 ^ index)

variable {field second : Field}

theorem get_congr
    (hagree : ∀ address, field.offset ≤ address → address < field.offset + field.size →
      memory address = other address) :
    field.get memory = field.get other :=
  loadLe_congr hagree

@[simp]
theorem get_set (field : Field) (value : Nat) (memory : Nat → UInt8) :
    field.get (field.set value memory) = value % 256 ^ field.size := by
  apply loadLe_digits
  intro index hindex
  rw [set, overwrite_inside _ _ (by omega) (by omega), Nat.add_sub_cancel_left]

theorem get_set_of_disjoint (hdisjoint : field.Disjoint second) (value : Nat)
    (memory : Nat → UInt8) : field.get (second.set value memory) = field.get memory := by
  apply get_congr
  intro address hfrom hto
  rw [set, overwrite_outside]
  rcases hdisjoint with hbefore | hafter
  · exact Or.inl (by omega)
  · exact Or.inr (by omega)

end Field

/-! ### Sums of words -/

def word (index : Nat) : Field := { offset := 2 * index, size := 2 }

@[simp]
theorem word_offset (index : Nat) : (word index).offset = 2 * index := rfl

@[simp]
theorem word_size (index : Nat) : (word index).size = 2 := rfl

theorem word_disjoint {index other : Nat} (hne : index ≠ other) :
    (word index).Disjoint (word other) := by
  rcases Nat.lt_or_gt_of_ne hne with hlt | hgt
  · exact Or.inl (by simp only [word_offset, word_size]; omega)
  · exact Or.inr (by simp only [word_offset, word_size]; omega)

def sum16 (memory : Nat → UInt8) : Nat → UInt16
  | 0 => 0
  | count + 1 => sum16 memory count + UInt16.ofNat ((word count).get memory)

theorem sum16_congr {count : Nat}
    (hagree : ∀ address < 2 * count, memory address = other address) :
    sum16 memory count = sum16 other count := by
  induction count with
  | zero => rfl
  | succ count ih =>
      have hlast : (word count).get memory = (word count).get other := by
        refine Field.get_congr fun address _ hto => hagree address ?_
        simp only [word_offset, word_size] at hto
        omega
      rw [sum16, sum16, hlast, ih fun address haddress => hagree address (by omega)]

theorem sum16_set_of_le {count : Nat} {field : Field} (hle : 2 * count ≤ field.offset)
    (value : Nat) (memory : Nat → UInt8) :
    sum16 (field.set value memory) count = sum16 memory count := by
  apply sum16_congr
  intro address haddress
  rw [Field.set, overwrite_outside _ _ (Or.inl (by omega))]

/-- Setting one of the words changes the sum by the difference of the word. -/
theorem sum16_set {count index : Nat} (hlt : index < count) (value : UInt16)
    (memory : Nat → UInt8) :
    sum16 ((word index).set value.toNat memory) count + UInt16.ofNat ((word index).get memory) =
      sum16 memory count + value := by
  induction count with
  | zero => exact absurd hlt (Nat.not_lt_zero _)
  | succ count ih =>
      set changed := (word index).set value.toNat memory
      rcases Nat.lt_or_eq_of_le (Nat.le_of_lt_succ hlt) with hbefore | rfl
      · have hlast : (word count).get changed = (word count).get memory :=
          Field.get_set_of_disjoint (word_disjoint (Nat.ne_of_gt hbefore)) _ _
        calc sum16 changed (count + 1) + UInt16.ofNat ((word index).get memory)
          _ = sum16 changed count + UInt16.ofNat ((word index).get memory) +
                UInt16.ofNat ((word count).get memory) := by rw [sum16, hlast]; ac_rfl
          _ = sum16 memory count + value + UInt16.ofNat ((word count).get memory) := by
                rw [ih hbefore]
          _ = sum16 memory (count + 1) + value := by rw [sum16]; ac_rfl
      · have hlast : UInt16.ofNat ((word index).get changed) = value := by
          have hcut : value.toNat % 256 ^ 2 = value.toNat := Nat.mod_eq_of_lt value.toNat_lt
          rw [Field.get_set, word_size, hcut, UInt16.ofNat_toNat]
        calc sum16 changed (index + 1) + UInt16.ofNat ((word index).get memory)
          _ = sum16 memory index + value + UInt16.ofNat ((word index).get memory) := by
                rw [sum16, hlast, sum16_set_of_le (Nat.le_refl _)]
          _ = sum16 memory (index + 1) + value := by rw [sum16]; ac_rfl

/-- The sum tells a memory from what it becomes when one of its words changes. -/
theorem sum16_set_ne {count index : Nat} (hlt : index < count) {value : UInt16}
    {memory : Nat → UInt8} (hvalue : value ≠ UInt16.ofNat ((word index).get memory)) :
    sum16 ((word index).set value.toNat memory) count ≠ sum16 memory count := by
  intro hsum
  have hset := sum16_set hlt value memory
  rw [hsum] at hset
  exact hvalue (by grind)

/-- A word that was zero and is set to the negated sum makes the sum zero. -/
theorem sum16_set_neg {count index : Nat} (hlt : index < count) {memory : Nat → UInt8}
    (hzero : (word index).get memory = 0) :
    sum16 ((word index).set (0 - sum16 memory count).toNat memory) count = 0 := by
  have hset := sum16_set hlt (0 - sum16 memory count) memory
  rw [hzero] at hset
  grind

end Memory
