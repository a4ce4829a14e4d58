import OrionO6.Library.Lexer

/-!
# Cutting a lexed text

A longest match is still the longest where the text is cut off behind it, so a text that ends with a
token of a longer one is lexed like the front of that one. Nothing is said about a text that goes on
differently: there an earlier token may become longer.
-/

variable {α κ : Type}

namespace Regex

variable {regex : Regex α} {front rest : List α} {length : Nat}

theorem longest_of_append (hle : length ≤ front.length)
    (hlongest : regex.longest (front ++ rest) = some length) : regex.longest front = some length := by
  rw [longest_eq_some_iff] at hlongest ⊢
  refine ⟨hle, ?_, ?_⟩
  · rw [← List.take_append_of_le_length hle]
    exact hlongest.matched
  · intro longer hlt hlonger
    rw [← List.take_append_of_le_length hlonger]
    apply hlongest.not_longer longer hlt
    rw [List.length_append]
    exact Nat.le_add_right_of_le hlonger

theorem exists_longest_append (hlongest : regex.longest front = some length) :
    ∃ longer, length ≤ longer ∧ regex.longest (front ++ rest) = some longer := by
  rw [longest_eq_some_iff] at hlongest
  have hmatched : (front ++ rest).take length ∈ regex.lang := by
    rw [List.take_append_of_le_length hlongest.length_le]
    exact hlongest.matched
  have hle : length ≤ (front ++ rest).length := by
    rw [List.length_append]
    exact Nat.le_add_right_of_le hlongest.length_le
  have hanswers := answers_longest regex (front ++ rest)
  cases hfound : regex.longest (front ++ rest) with
  | none =>
      rw [hfound] at hanswers
      exact absurd hmatched (hanswers length hle)
  | some longer =>
      rw [hfound] at hanswers
      refine ⟨longer, ?_, rfl⟩
      by_contra hshorter
      exact hanswers.not_longer length (Nat.lt_of_not_le hshorter) hle hmatched

theorem longest_eq_none_of_append (hnone : regex.longest (front ++ rest) = none) :
    regex.longest front = none := by
  cases hfound : regex.longest front with
  | none => rfl
  | some length =>
      obtain ⟨longer, -, hlonger⟩ := @exists_longest_append _ _ _ rest _ hfound
      rw [hnone] at hlonger
      cases hlonger

theorem le_length_of_longest {text : List α} (hlongest : regex.longest text = some length) :
    length ≤ text.length :=
  ((longest_eq_some_iff _ _ _).mp hlongest).length_le

end Regex

namespace Lexer

variable {rules : List (Rule α κ)} {front rest text : List α} {kind : Kind κ} {length : Nat}

/-! ### The best rule -/

theorem best_cons_of_none {rule : Rule α κ} (hnone : rule.regex.longest text = none) :
    best (rule :: rules) text = best rules text := by
  rw [best, hnone]

theorem best_cons_of_some {rule : Rule α κ} (hlongest : rule.regex.longest text = some length) :
    best (rule :: rules) text =
      match best rules text with
      | none => some (rule.kind, length)
      | some (kind, longer) =>
          if length < longer then some (kind, longer) else some (rule.kind, length) := by
  rw [best, hlongest]
  cases best rules text <;> rfl

theorem le_length_of_best (hbest : best rules text = some (kind, length)) :
    length ≤ text.length := by
  induction rules with
  | nil => cases hbest
  | cons rule rules ih =>
      cases hlongest : rule.regex.longest text with
      | none =>
          rw [best_cons_of_none hlongest] at hbest
          exact ih hbest
      | some matched =>
          have hmatched := Regex.le_length_of_longest hlongest
          rw [best_cons_of_some hlongest] at hbest
          grind

/-- What the best rule on a text says about the best rule on a front of it. -/
def Cut (front : List α) : Option (Kind κ × Nat) → Option (Kind κ × Nat) → Prop
  | none, onFront => onFront = none
  | some (kind, length), onFront =>
      (length ≤ front.length → onFront = some (kind, length)) ∧
        ∀ kind' length', onFront = some (kind', length') → length' ≤ length

theorem cut_best (rules : List (Rule α κ)) (front rest : List α) :
    Cut front (best rules (front ++ rest)) (best rules front) := by
  induction rules with
  | nil => rfl
  | cons rule rules ih =>
      cases hlongest : rule.regex.longest (front ++ rest) with
      | none =>
          rw [best_cons_of_none hlongest,
            best_cons_of_none (Regex.longest_eq_none_of_append hlongest)]
          exact ih
      | some length =>
          have hcut : length ≤ front.length → rule.regex.longest front = some length :=
            fun hle => Regex.longest_of_append hle hlongest
          rw [best_cons_of_some hlongest]
          cases hfront : rule.regex.longest front with
          | none =>
              rw [best_cons_of_none hfront]
              rw [hfront] at hcut
              cases hbest : best rules (front ++ rest) <;> rw [hbest] at ih <;> grind [Cut]
          | some shorter =>
              obtain ⟨longer, hle, hlonger⟩ := @Regex.exists_longest_append _ _ _ rest _ hfront
              rw [hlongest, Option.some_inj] at hlonger
              rw [best_cons_of_some hfront]
              rw [hfront] at hcut
              cases hbest : best rules (front ++ rest) <;> rw [hbest] at ih <;> grind [Cut]

/-! ### The pieces -/

theorem next_of_append (hnext : next rules (front ++ rest) = (kind, length))
    (hle : length ≤ front.length) : next rules front = (kind, length) := by
  have hcut := cut_best rules front rest
  unfold next at hnext ⊢
  cases hbest : best rules (front ++ rest) with
  | none =>
      rw [hbest] at hcut hnext
      have hnone : best rules front = none := hcut
      rw [hnone]
      exact hnext
  | some found =>
      obtain ⟨found, matched⟩ := found
      rw [hbest] at hcut hnext
      cases matched with
      | zero =>
          rw [hcut.1 (Nat.zero_le _)]
          exact hnext
      | succ matched =>
          simp only [Prod.mk.injEq] at hnext
          obtain ⟨rfl, rfl⟩ := hnext
          rw [hcut.1 hle]

theorem next_bounds (htext : text ≠ []) (hnext : next rules text = (kind, length)) :
    0 < length ∧ length ≤ text.length := by
  have hpos := List.length_pos_iff.mpr htext
  unfold next at hnext
  cases hbest : best rules text with
  | none =>
      rw [hbest, Prod.mk.injEq] at hnext
      omega
  | some found =>
      obtain ⟨found, matched⟩ := found
      have hmatched := le_length_of_best hbest
      rw [hbest] at hnext
      cases matched with
      | zero =>
          simp only [Prod.mk.injEq] at hnext
          omega
      | succ matched =>
          simp only [Prod.mk.injEq] at hnext
          omega

theorem exists_of_lex_cons {lexeme : List α} {lexemes : List (Kind κ × List α)}
    (hlex : lex rules text = (kind, lexeme) :: lexemes) :
    ∃ rest, text = lexeme ++ rest ∧ lexeme ≠ [] ∧ next rules text = (kind, lexeme.length) ∧
      lex rules rest = lexemes := by
  cases text with
  | nil => cases hlex
  | cons symbol text =>
      cases hnext : next rules (symbol :: text) with
      | mk found matched =>
          obtain ⟨hpos, hle⟩ := next_bounds (List.cons_ne_nil _ _) hnext
          have hlength : ((symbol :: text).take matched).length = matched :=
            List.length_take_of_le hle
          have hnonempty : (symbol :: text).take matched ≠ [] := by
            intro hnil
            rw [hnil] at hlength
            exact absurd hlength.symm (Nat.ne_of_gt hpos)
          have hpieces := @pieces_append _ _ (next rules) ((symbol :: text).take matched)
            ((symbol :: text).drop matched) found hnonempty
            (by rw [List.take_append_drop, hlength, hnext])
          rw [List.take_append_drop] at hpieces
          rw [lex, hpieces, List.cons.injEq, Prod.mk.injEq] at hlex
          obtain ⟨⟨rfl, rfl⟩, hlater⟩ := hlex
          refine ⟨(symbol :: text).drop matched, (List.take_append_drop _ _).symm, hnonempty, ?_,
            hlater⟩
          rw [hlength]

/-- The text that lexemes stand for. -/
def textOf (lexemes : List (Kind κ × List α)) : List α := lexemes.flatMap Prod.snd

theorem textOf_cons (kind : Kind κ) (lexeme : List α) (lexemes : List (Kind κ × List α)) :
    textOf ((kind, lexeme) :: lexemes) = lexeme ++ textOf lexemes := List.flatMap_cons

theorem textOf_append (lexemes later : List (Kind κ × List α)) :
    textOf (lexemes ++ later) = textOf lexemes ++ textOf later := List.flatMap_append

theorem textOf_lex (text : List α) : textOf (lex rules text) = text := by
  induction hlength : text.length using Nat.strongRecOn generalizing text with
  | ind length ih =>
      cases hlex : lex rules text with
      | nil =>
          cases text with
          | nil => rfl
          | cons symbol text => cases hlex
      | cons piece lexemes =>
          obtain ⟨rest, rfl, hlexeme, -, hrest⟩ := exists_of_lex_cons hlex
          have hpos := List.length_pos_iff.mpr hlexeme
          rw [List.length_append] at hlength
          have htail := ih rest.length (by omega) rest rfl
          rw [hrest] at htail
          rw [textOf_cons, htail]

theorem length_lex_le (text : List α) : (lex rules text).length ≤ text.length := by
  induction hlength : text.length using Nat.strongRecOn generalizing text with
  | ind length ih =>
      cases hlex : lex rules text with
      | nil => exact Nat.zero_le _
      | cons piece lexemes =>
          obtain ⟨rest, rfl, hlexeme, -, hrest⟩ := exists_of_lex_cons hlex
          have hpos := List.length_pos_iff.mpr hlexeme
          rw [List.length_append] at hlength
          have htail := ih rest.length (by omega) rest rfl
          rw [hrest] at htail
          rw [List.length_cons]
          omega

/-- **A text cut off behind a token is lexed like its continuation.** -/
theorem lex_of_append {lexemes later : List (Kind κ × List α)} {rest : List α}
    (hlex : lex rules (textOf lexemes ++ rest) = lexemes ++ later) :
    lex rules (textOf lexemes) = lexemes := by
  induction lexemes with
  | nil => rfl
  | cons piece lexemes ih =>
      obtain ⟨tail, htail, hlexeme, hnext, hrest⟩ := exists_of_lex_cons hlex
      rw [textOf_cons, List.append_assoc] at htail
      rw [← List.append_cancel_left htail] at hrest
      rw [textOf_cons] at hnext ⊢
      have hfront := next_of_append hnext
        (by rw [List.length_append]; exact Nat.le_add_right _ _)
      rw [lex, pieces_append hlexeme hfront]
      exact congrArg (piece :: ·) (ih hrest)

end Lexer
