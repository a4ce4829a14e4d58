import Mathlib.Data.List.DropRight
import OrionO6.Acpi.AslText

/-!
# ASL tokens

The lexer of the tests, rule by rule, and what it makes of each item of a source text. Every item is
lexed as what it is, with one exception. The regular expression for block comments takes stars in
pairs, so it finds the terminator of a comment only where the stars before the slash are odd in
number.
-/

namespace OrionO6.Acpi

open Regex

inductive AslToken where
  | blockComment
  | lineComment
  | stringLiteral
  | openBrace
  | closeBrace
  | other
  | slash
  deriving DecidableEq

def isChar (expected symbol : Char) : Bool := decide (symbol = expected)

def notChar (expected symbol : Char) : Bool := decide (symbol ≠ expected)

def isSkipped (symbol : Char) : Bool :=
  symbol = ' ' || symbol = '\t' || symbol = '\r' || symbol = '\n' || symbol = '\x0c'

/-- The class `\s`, which is that of Unicode. -/
def isWhitespace (symbol : Char) : Bool :=
  let point := symbol.toNat
  (0x09 ≤ point && point ≤ 0x0D) || point = 0x20 || point = 0x85 || point = 0xA0 ||
    point = 0x1680 || (0x2000 ≤ point && point ≤ 0x200A) || point = 0x2028 || point = 0x2029 ||
    point = 0x202F || point = 0x205F || point = 0x3000

def isOther (symbol : Char) : Bool :=
  !(isWhitespace symbol || symbol = '{' || symbol = '}' || symbol = '/' || symbol = '"')

namespace AslToken

def skip : Regex Char := seq (one isSkipped) (star (one isSkipped))

def blockCommentRegex : Regex Char :=
  seq (one (isChar '/')) (seq (one (isChar '*')) (seq (star (one (notChar '*')))
    (seq (star (seq (one (isChar '*')) (seq (one (notChar '/')) (star (one (notChar '*'))))))
      (seq (one (isChar '*')) (one (isChar '/'))))))

def lineCommentRegex : Regex Char :=
  seq (one (isChar '/')) (seq (one (isChar '/')) (star (one (notChar '\n'))))

def stringLiteralRegex : Regex Char :=
  seq (one (isChar '"')) (seq (star (one (notChar '"'))) (one (isChar '"')))

def rules : List (Lexer.Rule Char AslToken) := [
  ⟨skip, .skipped⟩,
  ⟨blockCommentRegex, .token blockComment⟩,
  ⟨lineCommentRegex, .token lineComment⟩,
  ⟨stringLiteralRegex, .token stringLiteral⟩,
  ⟨one (isChar '{'), .token openBrace⟩,
  ⟨one (isChar '}'), .token closeBrace⟩,
  ⟨one isOther, .token other⟩,
  ⟨one (isChar '/'), .token slash⟩]

def lex (text : Text) : List (Lexer.Kind AslToken × Text) := Lexer.lex rules text

/-! ### Single characters -/

/-- A lexeme that does not change the depth. -/
def Neutral (kind : Lexer.Kind AslToken) : Prop :=
  kind ≠ .token openBrace ∧ kind ≠ .token closeBrace

instance (kind : Lexer.Kind AslToken) : Decidable (Neutral kind) :=
  inferInstanceAs (Decidable (_ ∧ _))

section

variable {symbol : Char} {rest : Text}

attribute [local simp] rules Lexer.best skip blockCommentRegex lineCommentRegex stringLiteralRegex
  isChar isSkipped isOther

theorem lex_openBrace (rest : Text) :
    lex ('{' :: rest) = (.token openBrace, ['{']) :: lex rest := by
  have hbest : Lexer.best rules (['{'] ++ rest) = some (.token openBrace, 1) := by simp
  exact Lexer.lex_append (List.cons_ne_nil _ _) hbest

theorem lex_closeBrace (rest : Text) :
    lex ('}' :: rest) = (.token closeBrace, ['}']) :: lex rest := by
  have hbest : Lexer.best rules (['}'] ++ rest) = some (.token closeBrace, 1) := by simp
  exact Lexer.lex_append (List.cons_ne_nil _ _) hbest

theorem lex_slash (hstar : ¬ ['*'] <+: rest) (hslash : ¬ ['/'] <+: rest) :
    lex ('/' :: rest) = (.token slash, ['/']) :: lex rest := by
  have hbest : Lexer.best rules (['/'] ++ rest) = some (.token slash, 1) := by
    cases rest with
    | nil => decide
    | cons next rest =>
        have hnextStar : next ≠ '*' := by
          rintro rfl
          exact hstar ⟨rest, rfl⟩
        have hnextSlash : next ≠ '/' := by
          rintro rfl
          exact hslash ⟨rest, rfl⟩
        simp [hnextStar, hnextSlash]
  exact Lexer.lex_append (List.cons_ne_nil _ _) hbest

theorem isWhitespace_of_isSkipped (hsymbol : isSkipped symbol = true) :
    isWhitespace symbol = true := by
  simp only [isSkipped, Bool.or_eq_true, decide_eq_true_eq] at hsymbol
  rcases hsymbol with (((rfl | rfl) | rfl) | rfl) | rfl <;> decide

end

section

variable {symbol : Char}

attribute [local simp] rules Lexer.best skip blockCommentRegex lineCommentRegex stringLiteralRegex
  isChar

/-- Whitespace that is left out is one piece, however long. -/
theorem lex_skip (hsymbol : isSkipped symbol = true) (rest : Text) :
    lex (symbol :: rest) =
      (.skipped, symbol :: rest.takeWhile isSkipped) :: lex (rest.dropWhile isSkipped) := by
  have hother : isOther symbol = false := by
    rw [isOther, isWhitespace_of_isSkipped hsymbol]
    rfl
  have hne (first : Char) (hfirst : isSkipped first = false) : symbol ≠ first := by
    rintro rfl
    rw [hsymbol] at hfirst
    cases hfirst
  have hbest : Lexer.best rules
      (symbol :: rest.takeWhile isSkipped ++ rest.dropWhile isSkipped) =
        some (.skipped, (symbol :: rest.takeWhile isSkipped).length) := by
    rw [List.cons_append, List.takeWhile_append_dropWhile, List.length_cons]
    simp [hsymbol, hother, hne '/' rfl, hne '"' rfl, hne '{' rfl, hne '}' rfl]
  have hlex := Lexer.lex_append (List.cons_ne_nil _ _) hbest
  rwa [List.cons_append, List.takeWhile_append_dropWhile] at hlex

/-- Any other character that begins nothing is a token of its own, or is matched by no rule. -/
theorem exists_lex_other (hskip : isSkipped symbol = false) (hslash : symbol ≠ '/')
    (hquote : symbol ≠ '"') (hopen : symbol ≠ '{') (hclose : symbol ≠ '}') (rest : Text) :
    ∃ kind, Neutral kind ∧ lex (symbol :: rest) = (kind, [symbol]) :: lex rest := by
  by_cases hother : isOther symbol = true
  · have hbest : Lexer.best rules ([symbol] ++ rest) = some (.token other, 1) := by
      simp [hskip, hother, hslash, hquote, hopen, hclose]
    exact ⟨.token other, by decide, Lexer.lex_append (List.cons_ne_nil _ _) hbest⟩
  · have hbest : Lexer.best rules (symbol :: rest) = none := by
      simp [hskip, hother, hslash, hquote, hopen, hclose]
    exact ⟨.unmatched, by decide, Lexer.lex_cons_of_none hbest⟩

end

/-! ### Comments and string literals -/

section

variable {body : Text}

attribute [local simp] rules Lexer.best skip lineCommentRegex isChar isSkipped isOther

theorem lex_lineComment {rest : Text}
    (hbody : (body ++ rest).takeWhile (fun symbol => symbol ≠ '\n') = body) :
    lex ((Item.lineComment body).text ++ rest) =
      (.token lineComment, (Item.lineComment body).text) :: lex rest := by
  have hrun : ((body ++ rest).takeWhile (notChar '\n')).length = body.length :=
    congrArg List.length hbody
  have hbest : Lexer.best rules ((Item.lineComment body).text ++ rest) =
      some (.token lineComment, (Item.lineComment body).text.length) := by
    rw [Item.text, List.append_assoc]
    simp [hrun, blockCommentRegex, stringLiteralRegex]
  exact Lexer.lex_append (List.cons_ne_nil _ _) hbest

/-- What a string literal may contain. -/
theorem stringLetters (hbody : '"' ∉ body) :
    ∀ letter ∈ body, notChar '"' letter = true ∧ isChar '"' letter = false := by
  intro letter hletter
  have hne : letter ≠ '"' := by
    rintro rfl
    exact hbody hletter
  simp [notChar, hne]

theorem lex_stringLiteral (hbody : '"' ∉ body) (rest : Text) :
    lex ((Item.stringLiteral body).text ++ rest) =
      (.token stringLiteral, (Item.stringLiteral body).text) :: lex rest := by
  have hlongest : stringLiteralRegex.longest ('"' :: (body ++ '"' :: rest)) =
      some (body.length + 2) := by
    rw [stringLiteralRegex, longest_seq_one_cons,
      longest_run_append (stringLetters hbody) (by decide)]
    rfl
  have hbest : Lexer.best rules ((Item.stringLiteral body).text ++ rest) =
      some (.token stringLiteral, (Item.stringLiteral body).text.length) := by
    rw [Item.text, List.append_assoc, List.append_assoc]
    simp [hlongest, blockCommentRegex]
  exact Lexer.lex_append (List.cons_ne_nil _ _) hbest

/-- A quote without a partner is matched by no rule. -/
theorem lex_unterminatedString (hbody : '"' ∉ body) :
    lex ('"' :: body) = (.unmatched, ['"']) :: lex body := by
  have hlongest : stringLiteralRegex.longest ('"' :: body) = none := by
    rw [stringLiteralRegex, longest_seq_one_cons, longest_run_eq_none (stringLetters hbody)]
    rfl
  have hbest : Lexer.best rules ('"' :: body) = none := by
    simp [hlongest, blockCommentRegex]
  exact Lexer.lex_cons_of_none hbest

end

end AslToken

end OrionO6.Acpi
