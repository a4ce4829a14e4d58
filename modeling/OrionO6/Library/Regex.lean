import Mathlib.Computability.Language

/-!
# Regular expressions over character classes

A regular expression denotes a language. Its derivative by a symbol denotes what may follow that
symbol, so a text is matched symbol by symbol, and the longest match at the front of a text is found
in one pass over it.
-/

open Computability

inductive Regex (α : Type) where
  | empty
  | epsilon
  | one (accepts : α → Bool)
  | alt (first second : Regex α)
  | seq (first second : Regex α)
  | star (inner : Regex α)

namespace Regex

variable {α : Type}

/-- The words of one symbol that a class accepts. -/
def letters (accepts : α → Bool) : Language α :=
  {word | ∃ symbol, accepts symbol = true ∧ word = [symbol]}

theorem mem_letters (accepts : α → Bool) (word : List α) :
    word ∈ letters accepts ↔ ∃ symbol, accepts symbol = true ∧ word = [symbol] := Iff.rfl

def lang : Regex α → Language α
  | empty => 0
  | epsilon => 1
  | one accepts => letters accepts
  | alt first second => first.lang + second.lang
  | seq first second => first.lang * second.lang
  | star inner => inner.lang∗

def nullable : Regex α → Bool
  | empty => false
  | epsilon => true
  | one _ => false
  | alt first second => first.nullable || second.nullable
  | seq first second => first.nullable && second.nullable
  | star _ => true

/-- `alt` without alternatives that match nothing. -/
def mkAlt : Regex α → Regex α → Regex α
  | empty, second => second
  | first, empty => first
  | first, second => alt first second

/-- `seq` without parts that match nothing or only the empty word. -/
def mkSeq : Regex α → Regex α → Regex α
  | empty, _ => empty
  | epsilon, second => second
  | first, second => seq first second

def deriv (symbol : α) : Regex α → Regex α
  | empty => empty
  | epsilon => empty
  | one accepts => if accepts symbol then epsilon else empty
  | alt first second => mkAlt (first.deriv symbol) (second.deriv symbol)
  | seq first second =>
      if first.nullable then
        mkAlt (mkSeq (first.deriv symbol) second) (second.deriv symbol)
      else
        mkSeq (first.deriv symbol) second
  | star inner => mkSeq (inner.deriv symbol) (star inner)

theorem nil_mem_lang_iff (regex : Regex α) : [] ∈ regex.lang ↔ regex.nullable = true := by
  induction regex with
  | empty => simp [lang, nullable]
  | epsilon => simp [lang, nullable]
  | one accepts => simp [lang, nullable, mem_letters]
  | alt first second ihFirst ihSecond =>
      rw [lang, nullable, Language.mem_add, ihFirst, ihSecond, Bool.or_eq_true]
  | seq first second ihFirst ihSecond =>
      rw [lang, nullable, Bool.and_eq_true, ← ihFirst, ← ihSecond, Language.mem_mul]
      simp
  | star inner => exact iff_of_true (Language.nil_mem_kstar _) rfl

theorem lang_mkAlt (first second : Regex α) :
    (mkAlt first second).lang = first.lang + second.lang := by
  cases first <;> cases second <;> simp [mkAlt, lang]

theorem lang_mkSeq (first second : Regex α) :
    (mkSeq first second).lang = first.lang * second.lang := by
  cases first <;> simp [mkSeq, lang]

/-! ### Derivatives of languages -/

section

variable (symbol : α) (word : List α) (first second : Language α)

theorem cons_mem_mul_iff :
    symbol :: word ∈ first * second ↔
      (∃ before after, symbol :: before ∈ first ∧ after ∈ second ∧ word = before ++ after) ∨
        [] ∈ first ∧ symbol :: word ∈ second := by
  rw [Language.mem_mul]
  constructor
  · rintro ⟨before, hbefore, after, hafter, happend⟩
    cases before with
    | nil => exact Or.inr ⟨hbefore, by rwa [← happend]⟩
    | cons head before =>
        obtain ⟨rfl, rfl⟩ := List.cons_eq_cons.mp happend
        exact Or.inl ⟨before, after, hbefore, hafter, rfl⟩
  · rintro (⟨before, after, hbefore, hafter, rfl⟩ | ⟨hempty, hword⟩)
    · exact ⟨_, hbefore, _, hafter, rfl⟩
    · exact ⟨_, hempty, _, hword, rfl⟩

theorem cons_mem_kstar_iff :
    symbol :: word ∈ first∗ ↔
      ∃ before after, symbol :: before ∈ first ∧ after ∈ first∗ ∧ word = before ++ after := by
  constructor
  · intro hword
    obtain ⟨parts, hparts, hmem⟩ := Language.mem_kstar_iff_exists_nonempty.mp hword
    cases parts with
    | nil => cases hparts
    | cons part parts =>
        obtain ⟨hpart, hnonempty⟩ := hmem part List.mem_cons_self
        obtain ⟨head, before, rfl⟩ := List.exists_cons_of_ne_nil hnonempty
        rw [List.flatten_cons, List.cons_append] at hparts
        obtain ⟨rfl, rfl⟩ := List.cons_eq_cons.mp hparts
        refine ⟨before, parts.flatten, hpart, ?_, rfl⟩
        apply Language.join_mem_kstar
        intro later hlater
        exact (hmem later (List.mem_cons_of_mem _ hlater)).1
  · rintro ⟨before, after, hbefore, hafter, rfl⟩
    rw [← Language.one_add_self_mul_kstar_eq_kstar, Language.mem_add]
    exact Or.inr (Language.append_mem_mul hbefore hafter)

end

/-- **Derivatives are correct.** -/
theorem mem_lang_deriv_iff (regex : Regex α) (symbol : α) (word : List α) :
    word ∈ (regex.deriv symbol).lang ↔ symbol :: word ∈ regex.lang := by
  induction regex generalizing word with
  | empty => exact Iff.rfl
  | epsilon => simp [deriv, lang]
  | one accepts =>
      by_cases haccepts : accepts symbol = true
      · simp [deriv, lang, mem_letters, haccepts]
      · simp [deriv, lang, mem_letters, haccepts]
  | alt first second ihFirst ihSecond =>
      rw [deriv, lang_mkAlt, lang, Language.mem_add, Language.mem_add, ihFirst, ihSecond]
  | seq first second ihFirst ihSecond =>
      have hseq : word ∈ (mkSeq (first.deriv symbol) second).lang ↔
          ∃ before after, symbol :: before ∈ first.lang ∧ after ∈ second.lang ∧
            word = before ++ after := by
        rw [lang_mkSeq, Language.mem_mul]
        constructor
        · rintro ⟨before, hbefore, after, hafter, rfl⟩
          exact ⟨before, after, (ihFirst before).mp hbefore, hafter, rfl⟩
        · rintro ⟨before, after, hbefore, hafter, rfl⟩
          exact ⟨before, (ihFirst before).mpr hbefore, after, hafter, rfl⟩
      rw [deriv, lang, cons_mem_mul_iff, nil_mem_lang_iff]
      split
      · rename_i hnullable
        rw [lang_mkAlt, Language.mem_add, hseq, ihSecond]
        simp [hnullable]
      · rename_i hnullable
        rw [hseq]
        simp [hnullable]
  | star inner ih =>
      rw [deriv, lang_mkSeq, lang, cons_mem_kstar_iff, Language.mem_mul]
      constructor
      · rintro ⟨before, hbefore, after, hafter, rfl⟩
        exact ⟨before, after, (ih before).mp hbefore, hafter, rfl⟩
      · rintro ⟨before, after, hbefore, hafter, rfl⟩
        exact ⟨before, (ih before).mpr hbefore, after, hafter, rfl⟩

/-! ### The longest match -/

/-- The length of the longest match at the front of a text. -/
def longest (regex : Regex α) : List α → Option Nat
  | [] => if regex.nullable then some 0 else none
  | symbol :: text =>
      match longest (regex.deriv symbol) text with
      | some length => some (length + 1)
      | none => if regex.nullable then some 0 else none

/-- `length` is that of the longest word of a language at the front of a text. -/
structure IsLongest (language : Language α) (text : List α) (length : Nat) : Prop where
  length_le : length ≤ text.length
  matched : text.take length ∈ language
  not_longer : ∀ longer, length < longer → longer ≤ text.length → text.take longer ∉ language

theorem IsLongest.unique {language : Language α} {text : List α} {length length' : Nat}
    (hlongest : IsLongest language text length) (hlongest' : IsLongest language text length') :
    length = length' := by
  rcases Nat.lt_trichotomy length length' with hlt | heq | hgt
  · exact absurd hlongest'.matched (hlongest.not_longer _ hlt hlongest'.length_le)
  · exact heq
  · exact absurd hlongest.matched (hlongest'.not_longer _ hgt hlongest.length_le)

section

variable {regex : Regex α} {symbol : α} {text : List α} {length : Nat}

theorem take_succ_mem_lang_iff :
    (symbol :: text).take (length + 1) ∈ regex.lang ↔
      text.take length ∈ (regex.deriv symbol).lang := by
  rw [List.take_succ_cons, mem_lang_deriv_iff]

/-- A longest match of the derivative is one of the expression, with the symbol before it. -/
theorem IsLongest.cons (hlongest : IsLongest (regex.deriv symbol).lang text length) :
    IsLongest regex.lang (symbol :: text) (length + 1) := by
  refine ⟨Nat.succ_le_succ hlongest.length_le, take_succ_mem_lang_iff.mpr hlongest.matched, ?_⟩
  intro longer hlt hle
  obtain ⟨longer, rfl⟩ : ∃ n, longer = n + 1 := ⟨longer - 1, by omega⟩
  rw [take_succ_mem_lang_iff]
  exact hlongest.not_longer longer (Nat.lt_of_succ_lt_succ hlt) (Nat.le_of_succ_le_succ hle)

/-- Where the derivative matches nothing, a longest match is empty. -/
theorem isLongest_zero (hnullable : regex.nullable = true)
    (hnone : ∀ length ≤ text.length, text.take length ∉ (regex.deriv symbol).lang) :
    IsLongest regex.lang (symbol :: text) 0 := by
  refine ⟨Nat.zero_le _, (nil_mem_lang_iff regex).mpr hnullable, ?_⟩
  intro longer hlt hle
  obtain ⟨longer, rfl⟩ : ∃ n, longer = n + 1 := ⟨longer - 1, by omega⟩
  rw [take_succ_mem_lang_iff]
  exact hnone longer (Nat.le_of_succ_le_succ hle)

theorem not_mem_lang_of_deriv (hnullable : regex.nullable ≠ true)
    (hnone : ∀ length ≤ text.length, text.take length ∉ (regex.deriv symbol).lang) :
    ∀ length ≤ (symbol :: text).length, (symbol :: text).take length ∉ regex.lang := by
  intro length hle
  cases length with
  | zero => rwa [List.take_zero, nil_mem_lang_iff]
  | succ length =>
      rw [take_succ_mem_lang_iff]
      exact hnone length (Nat.le_of_succ_le_succ hle)

end

/-- What `longest` answers: the longest match, or that there is none. -/
def Answers (regex : Regex α) (text : List α) : Option Nat → Prop
  | some length => IsLongest regex.lang text length
  | none => ∀ length ≤ text.length, text.take length ∉ regex.lang

/-- By induction on the text, with the derivative for the rest of it. -/
theorem answers_longest (regex : Regex α) (text : List α) :
    Answers regex text (regex.longest text) := by
  induction text generalizing regex with
  | nil =>
      by_cases hnullable : regex.nullable = true
      · rw [longest, if_pos hnullable]
        refine ⟨Nat.le_refl 0, (nil_mem_lang_iff regex).mpr hnullable, ?_⟩
        intro longer hlt hle
        exact absurd hle (Nat.not_le_of_lt hlt)
      · rw [longest, if_neg hnullable]
        intro length _
        rwa [List.take_nil, nil_mem_lang_iff]
  | cons symbol text ih =>
      have hrest := ih (regex.deriv symbol)
      rw [longest]
      cases hlongest : (regex.deriv symbol).longest text with
      | some length =>
          rw [hlongest] at hrest
          exact IsLongest.cons hrest
      | none =>
          rw [hlongest] at hrest
          by_cases hnullable : regex.nullable = true
          · simp only [if_pos hnullable]
            exact isLongest_zero hnullable hrest
          · simp only [if_neg hnullable]
            exact not_mem_lang_of_deriv hnullable hrest

/-- **`longest` finds the longest match.** -/
theorem longest_eq_some_iff (regex : Regex α) (text : List α) (length : Nat) :
    regex.longest text = some length ↔ IsLongest regex.lang text length := by
  have hanswers := answers_longest regex text
  constructor
  · intro hlongest
    rwa [hlongest] at hanswers
  · intro hlongest
    cases hfound : regex.longest text with
    | some other =>
        rw [hfound] at hanswers
        rw [hlongest.unique hanswers]
    | none =>
        rw [hfound] at hanswers
        exact absurd hlongest.matched (hanswers length hlongest.length_le)

/-! ### Computing matches -/

section

variable {symbol : α} {text : List α} {accepts : α → Bool}

@[simp]
theorem longest_empty (text : List α) : (empty : Regex α).longest text = none := by
  induction text with
  | nil => rfl
  | cons symbol text ih => simp [longest, deriv, ih, nullable]

@[simp]
theorem longest_epsilon (text : List α) : (epsilon : Regex α).longest text = some 0 := by
  cases text with
  | nil => rfl
  | cons symbol text => simp [longest, deriv, nullable]

@[simp]
theorem longest_one_cons :
    (one accepts).longest (symbol :: text) = if accepts symbol then some 1 else none := by
  by_cases haccepts : accepts symbol = true
  · simp [longest, deriv, haccepts]
  · simp [longest, deriv, haccepts, nullable]

/-- A match that consumes a symbol goes on with the derivative. -/
theorem longest_cons_of_not_nullable {regex : Regex α} (hnullable : regex.nullable = false) :
    regex.longest (symbol :: text) = ((regex.deriv symbol).longest text).map (· + 1) := by
  rw [longest]
  cases (regex.deriv symbol).longest text <;> simp [hnullable]

@[simp]
theorem longest_seq_one_cons {regex : Regex α} :
    (seq (one accepts) regex).longest (symbol :: text) =
      if accepts symbol then (regex.longest text).map (· + 1) else none := by
  rw [longest_cons_of_not_nullable rfl]
  by_cases haccepts : accepts symbol = true
  · simp [deriv, nullable, haccepts, mkSeq]
  · simp [deriv, nullable, haccepts, mkSeq]

/-- The star of a class matches the longest run of its symbols. -/
@[simp]
theorem longest_star_one (accepts : α → Bool) (text : List α) :
    (star (one accepts)).longest text = some (text.takeWhile accepts).length := by
  induction text with
  | nil => rfl
  | cons symbol text ih =>
      by_cases haccepts : accepts symbol = true
      · simp [longest, deriv, haccepts, mkSeq, ih]
      · simp [longest, deriv, haccepts, mkSeq, nullable]

theorem longest_run_cons {stops : α → Bool} {letter : α}
    (hletter : accepts letter = true ∧ stops letter = false) :
    (seq (star (one accepts)) (one stops)).longest (letter :: text) =
      ((seq (star (one accepts)) (one stops)).longest text).map (· + 1) := by
  have hderiv : (seq (star (one accepts)) (one stops)).deriv letter =
      seq (star (one accepts)) (one stops) := by
    simp [deriv, nullable, mkSeq, mkAlt, hletter]
  rw [longest_cons_of_not_nullable rfl, hderiv]

/-- A run of one class up to the first symbol of another. -/
theorem longest_run_append {stops : α → Bool} {run rest : List α}
    (hrun : ∀ letter ∈ run, accepts letter = true ∧ stops letter = false)
    (hsymbol : accepts symbol = false ∧ stops symbol = true) :
    (seq (star (one accepts)) (one stops)).longest (run ++ symbol :: rest) =
      some (run.length + 1) := by
  induction run with
  | nil =>
      rw [List.nil_append, longest_cons_of_not_nullable rfl]
      simp [deriv, nullable, mkSeq, mkAlt, hsymbol]
  | cons letter run ih =>
      rw [List.cons_append, longest_run_cons (hrun letter List.mem_cons_self),
        ih fun later hlater => hrun later (List.mem_cons_of_mem _ hlater)]
      rfl

theorem longest_run_eq_none {stops : α → Bool} {run : List α}
    (hrun : ∀ letter ∈ run, accepts letter = true ∧ stops letter = false) :
    (seq (star (one accepts)) (one stops)).longest run = none := by
  induction run with
  | nil => rfl
  | cons letter run ih =>
      rw [longest_run_cons (hrun letter List.mem_cons_self),
        ih fun later hlater => hrun later (List.mem_cons_of_mem _ hlater)]
      rfl

end

end Regex
