import Mathlib.Data.List.Basic
import OrionO6.Library.Regex

/-!
# Lexing by longest match

A lexer cuts a text into pieces from the front. Of the rules that match there it takes the one with
the longest match, the earlier rule among equals; a symbol that no rule matches is a piece of its
own.
-/

namespace Lexer

variable {α κ : Type}

/-! ### Searching -/

section

variable [DecidableEq α]

/-- The first place where a pattern occurs. -/
def find (pattern : List α) : List α → Option Nat
  | [] => if pattern = [] then some 0 else none
  | symbol :: text =>
      if pattern <+: symbol :: text then some 0 else (find pattern text).map (· + 1)

theorem find_eq_some_iff {pattern : List α} (hpattern : pattern ≠ []) (text : List α)
    (index : Nat) :
    find pattern text = some index ↔
      pattern <+: text.drop index ∧ ∀ earlier < index, ¬ pattern <+: text.drop earlier := by
  induction text generalizing index with
  | nil => simp [find, hpattern]
  | cons symbol text ih =>
      by_cases hhead : pattern <+: symbol :: text
      · rw [find, if_pos hhead, Option.some.injEq]
        constructor
        · rintro rfl
          exact ⟨hhead, fun earlier hearlier => absurd hearlier (Nat.not_lt_zero _)⟩
        · rintro ⟨-, hfirst⟩
          by_contra hindex
          exact hfirst 0 (Nat.pos_of_ne_zero (Ne.symm hindex)) hhead
      · rw [find, if_neg hhead, Option.map_eq_some_iff]
        constructor
        · rintro ⟨rest, hrest, rfl⟩
          obtain ⟨hoccurs, hfirst⟩ := (ih rest).mp hrest
          refine ⟨hoccurs, fun earlier hearlier => ?_⟩
          cases earlier with
          | zero => exact hhead
          | succ earlier => exact hfirst earlier (Nat.lt_of_succ_lt_succ hearlier)
        · rintro ⟨hoccurs, hfirst⟩
          cases index with
          | zero => exact absurd hoccurs hhead
          | succ index =>
              refine ⟨index, (ih index).mpr ⟨hoccurs, fun earlier hearlier => ?_⟩, rfl⟩
              exact hfirst (earlier + 1) (Nat.succ_lt_succ hearlier)

omit [DecidableEq α] in
/-- What stands before an occurrence, with the pattern after it. -/
theorem exists_of_prefix_drop {pattern text : List α} (hpattern : pattern ≠ []) {index : Nat}
    (hoccurs : pattern <+: text.drop index) :
    ∃ rest, text = text.take index ++ pattern ++ rest ∧ (text.take index).length = index := by
  obtain ⟨rest, hrest⟩ := hoccurs
  refine ⟨rest, ?_, List.length_take_of_le ?_⟩
  · rw [List.append_assoc, hrest, List.take_append_drop]
  · by_contra hlong
    rw [List.drop_eq_nil_of_le (by omega)] at hrest
    exact hpattern (List.append_eq_nil_iff.mp hrest).1

theorem exists_of_find {pattern text : List α} (hpattern : pattern ≠ []) {index : Nat}
    (hfind : find pattern text = some index) :
    ∃ rest, text = text.take index ++ pattern ++ rest ∧ (text.take index).length = index :=
  exists_of_prefix_drop hpattern ((find_eq_some_iff hpattern text index).mp hfind).1

theorem not_mem_take_of_find {symbol : α} {text : List α} {index : Nat}
    (hfind : find [symbol] text = some index) : symbol ∉ text.take index := by
  obtain ⟨-, hfirst⟩ := (find_eq_some_iff (List.cons_ne_nil _ _) text index).mp hfind
  intro hmem
  obtain ⟨earlier, hearlier, hsymbol⟩ := List.mem_take_iff_getElem.mp hmem
  refine hfirst earlier (Nat.lt_of_lt_of_le hearlier (Nat.min_le_left _ _)) ?_
  rw [List.drop_eq_getElem_cons (Nat.lt_of_lt_of_le hearlier (Nat.min_le_right _ _)), hsymbol]
  exact ⟨_, rfl⟩

theorem not_infix_of_find_eq_none {pattern text : List α} (hpattern : pattern ≠ [])
    (hnone : find pattern text = none) : ¬ pattern <:+: text := by
  induction text with
  | nil => exact fun hoccurs => hpattern (List.infix_nil.mp hoccurs)
  | cons symbol text ih =>
      by_cases hhead : pattern <+: symbol :: text
      · rw [find, if_pos hhead] at hnone
        cases hnone
      · rw [find, if_neg hhead, Option.map_eq_none_iff] at hnone
        rw [List.infix_cons_iff, not_or]
        exact ⟨hhead, ih hnone⟩

theorem find_eq_none_of_not_infix {pattern text : List α} (hpattern : pattern ≠ [])
    (habsent : ¬ pattern <:+: text) : find pattern text = none := by
  cases hfind : find pattern text with
  | none => rfl
  | some index =>
      obtain ⟨hoccurs, -⟩ := (find_eq_some_iff hpattern text index).mp hfind
      exact absurd (hoccurs.isInfix.trans (List.drop_suffix index text).isInfix) habsent

theorem not_mem_of_find_eq_none {symbol : α} {text : List α}
    (hfind : find [symbol] text = none) : symbol ∉ text := by
  induction text with
  | nil => exact List.not_mem_nil
  | cons head text ih =>
      have hhead : ¬ [symbol] <+: head :: text := by
        intro hoccurs
        rw [find, if_pos hoccurs] at hfind
        cases hfind
      rw [find, if_neg hhead, Option.map_eq_none_iff] at hfind
      rw [List.mem_cons, not_or]
      refine ⟨?_, ih hfind⟩
      rintro rfl
      exact hhead ⟨text, rfl⟩

theorem find_singleton {symbol : α} {before : List α} (hbefore : symbol ∉ before)
    (after : List α) : find [symbol] (before ++ symbol :: after) = some before.length := by
  induction before with
  | nil => simp [find]
  | cons head before ih =>
      rw [List.mem_cons, not_or] at hbefore
      obtain ⟨hhead, hrest⟩ := hbefore
      have hnot : ¬ [symbol] <+: head :: (before ++ symbol :: after) := by
        simpa using hhead
      rw [List.cons_append, find, if_neg hnot, ih hrest]
      rfl

end

/-! ### Pieces -/

/-- Cuts a text into pieces of the kinds and lengths that `cut` says; `skip` symbols at its front
belong to a piece already cut. -/
def pieces (cut : List α → κ × Nat) : Nat → List α → List (κ × List α)
  | _, [] => []
  | skip + 1, _ :: text => pieces cut skip text
  | 0, symbol :: text =>
      let (kind, length) := cut (symbol :: text)
      (kind, (symbol :: text).take length) :: pieces cut (length - 1) text

theorem pieces_eq_drop (cut : List α → κ × Nat) (skip : Nat) (text : List α) :
    pieces cut skip text = pieces cut 0 (text.drop skip) := by
  induction text generalizing skip with
  | nil => simp [pieces]
  | cons symbol text ih =>
      cases skip with
      | zero => rfl
      | succ skip => rw [pieces, ih, List.drop_succ_cons]

/-- A front that is cut off as one piece. -/
theorem pieces_append {cut : List α → κ × Nat} {front rest : List α} {kind : κ}
    (hfront : front ≠ []) (hcut : cut (front ++ rest) = (kind, front.length)) :
    pieces cut 0 (front ++ rest) = (kind, front) :: pieces cut 0 rest := by
  obtain ⟨symbol, front, rfl⟩ := List.exists_cons_of_ne_nil hfront
  rw [List.cons_append] at hcut ⊢
  rw [pieces, hcut]
  dsimp only
  rw [pieces_eq_drop, List.length_cons, Nat.add_sub_cancel, List.drop_left, List.take_succ_cons,
    List.take_left]

/-! ### Rules -/

/-- What becomes of a piece: it is a token, it is left out, or no rule matches it. -/
inductive Kind (κ : Type) where
  | token (token : κ)
  | skipped
  | unmatched
  deriving DecidableEq

structure Rule (α κ : Type) where
  regex : Regex α
  kind : Kind κ

/-- The longest match of any rule, the earlier rule among equals. -/
def best : List (Rule α κ) → List α → Option (Kind κ × Nat)
  | [], _ => none
  | rule :: rules, text =>
      match rule.regex.longest text, best rules text with
      | none, others => others
      | some length, none => some (rule.kind, length)
      | some length, some (kind, longer) =>
          if length < longer then some (kind, longer) else some (rule.kind, length)

/-- An empty match would not move the lexer, so it counts as none. -/
def next (rules : List (Rule α κ)) (text : List α) : Kind κ × Nat :=
  match best rules text with
  | some (kind, length + 1) => (kind, length + 1)
  | _ => (.unmatched, 1)

def lex (rules : List (Rule α κ)) (text : List α) : List (Kind κ × List α) :=
  pieces (next rules) 0 text

section

variable {rules : List (Rule α κ)} {front rest : List α} {kind : Kind κ}

theorem lex_append (hfront : front ≠ [])
    (hbest : best rules (front ++ rest) = some (kind, front.length)) :
    lex rules (front ++ rest) = (kind, front) :: lex rules rest := by
  apply pieces_append hfront
  obtain ⟨symbol, front, rfl⟩ := List.exists_cons_of_ne_nil hfront
  rw [next, hbest]
  rfl

theorem lex_cons_of_none {symbol : α} (hbest : best rules (symbol :: rest) = none) :
    lex rules (symbol :: rest) = (.unmatched, [symbol]) :: lex rules rest := by
  have hnext : next rules ([symbol] ++ rest) = (.unmatched, [symbol].length) := by
    rw [next, List.singleton_append, hbest]
    rfl
  exact pieces_append (List.cons_ne_nil _ _) hnext

end

end Lexer
