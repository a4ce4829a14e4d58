import OrionO6.Library.Brackets
import OrionO6.Acpi.BlockComment

/-!
# Extracting a block

`extract_named_block` of the tests: it searches for the keyword and the name, then for an opening
brace, and from there counts the brace tokens until the depth is back at zero. A step of the count
over one item of the text is followed through the lexer first; the run over all of them is the scan
of a bracket word.
-/

namespace OrionO6.Acpi

/-- Where the tests panic. They run with overflow checks. -/
inductive ExtractPanic where
  | notFound (keyword name : Text)
  | noOpeningBrace (keyword name : Text)
  | unmatchedBraces (keyword name : Text)
  | addOverflow
  | subtractOverflow
  deriving DecidableEq

def ExtractPanic.message : ExtractPanic → Text
  | notFound keyword name => keyword ++ ['('] ++ name ++ ") not found in source".toList
  | noOpeningBrace keyword name =>
      "No opening brace after ".toList ++ keyword ++ ['('] ++ name ++ [')']
  | unmatchedBraces keyword name =>
      "Unmatched braces in ".toList ++ keyword ++ ['('] ++ name ++ [')']
  | addOverflow => "attempt to add with overflow".toList
  | subtractOverflow => "attempt to subtract with overflow".toList

/-- The largest `u32`. -/
def maxDepth : Nat := 2 ^ 32 - 1

/-- The loop over the tokens, which stand behind the first `openBrace + spanEnd` characters. It
leaves `end` at zero where the tokens run out. -/
def closingEnd (openBrace : Nat) :
    Nat → Nat → List (Lexer.Kind AslToken × Text) → Except ExtractPanic Nat
  | _, _, [] => .ok 0
  | depth, spanEnd, (kind, lexeme) :: lexemes =>
      let spanEnd := spanEnd + lexeme.length
      match kind with
      | .token .openBrace =>
          if depth < maxDepth then closingEnd openBrace (depth + 1) spanEnd lexemes
          else .error .addOverflow
      | .token .closeBrace =>
          if depth = 0 then .error .subtractOverflow
          else if depth - 1 = 0 then .ok (openBrace + spanEnd)
          else closingEnd openBrace (depth - 1) spanEnd lexemes
      | _ => closingEnd openBrace depth spanEnd lexemes

def patterns (keyword name : Text) : List Text := [
  keyword ++ ['('] ++ name ++ [')'],
  keyword ++ [' ', '('] ++ name ++ [')']]

def extractNamedBlock (source keyword name : Text) : Except ExtractPanic Text :=
  match ((patterns keyword name).filterMap fun pattern => Lexer.find pattern source).min? with
  | none => .error (.notFound keyword name)
  | some start =>
      let rest := source.drop start
      match Lexer.find ['{'] rest with
      | none => .error (.noOpeningBrace keyword name)
      | some openBrace => do
          let stop ← closingEnd openBrace 0 0 (AslToken.lex (rest.drop openBrace))
          if 0 < stop then pure (rest.take stop) else .error (.unmatchedBraces keyword name)

/-! ### What is searched for -/

section

variable {source keyword name before rest front body : Text}

theorem pattern_ne_nil {pattern : Text} (hpattern : pattern ∈ patterns keyword name) :
    pattern ≠ [] := by
  simp only [patterns, List.mem_cons, List.not_mem_nil, or_false] at hpattern
  rcases hpattern with rfl | rfl <;> simp

/-- A source text cut where the keyword with the name stands in it for the first time. -/
structure FirstFound (source keyword name before rest : Text) : Prop where
  source_eq : source = before ++ rest
  isPattern : ∃ pattern ∈ patterns keyword name, pattern <+: rest
  first : ∀ pattern ∈ patterns keyword name, ∀ earlier < before.length,
    ¬ pattern <+: source.drop earlier

theorem FirstFound.drop_source (hfound : FirstFound source keyword name before rest) :
    source.drop before.length = rest := by
  rw [hfound.source_eq, List.drop_left]

theorem FirstFound.min_find (hfound : FirstFound source keyword name before rest) :
    ((patterns keyword name).filterMap fun pattern => Lexer.find pattern source).min? =
      some before.length := by
  rw [List.min?_eq_some_iff]
  constructor
  · obtain ⟨pattern, hpattern, hlead⟩ := hfound.isPattern
    rw [List.mem_filterMap]
    refine ⟨pattern, hpattern, ?_⟩
    rw [Lexer.find_eq_some_iff (pattern_ne_nil hpattern), hfound.drop_source]
    exact ⟨hlead, hfound.first pattern hpattern⟩
  · intro start hstart
    obtain ⟨pattern, hpattern, hfind⟩ := List.mem_filterMap.mp hstart
    rw [Lexer.find_eq_some_iff (pattern_ne_nil hpattern)] at hfind
    by_contra hbefore
    exact hfound.first pattern hpattern start (Nat.lt_of_not_le hbefore) hfind.1

theorem FirstFound.length_unique {earlier later : Text}
    (hfound : FirstFound source keyword name before rest)
    (hother : FirstFound source keyword name earlier later) : before.length = earlier.length :=
  Option.some.inj (hfound.min_find.symm.trans hother.min_find)

theorem firstFound_of_min {start : Nat}
    (hstart : ((patterns keyword name).filterMap fun pattern =>
      Lexer.find pattern source).min? = some start) :
    FirstFound source keyword name (source.take start) (source.drop start) := by
  obtain ⟨hmem, hleast⟩ := List.min?_eq_some_iff.mp hstart
  obtain ⟨pattern, hpattern, hfind⟩ := List.mem_filterMap.mp hmem
  refine ⟨(List.take_append_drop start source).symm, ⟨pattern, hpattern, ?_⟩, ?_⟩
  · exact ((Lexer.find_eq_some_iff (pattern_ne_nil hpattern) _ _).mp hfind).1
  · intro other hother earlier hearlier hoccurs
    have hbefore : earlier < start :=
      Nat.lt_of_lt_of_le hearlier (List.length_take_le start source)
    cases hfindOther : Lexer.find other source with
    | none =>
        apply Lexer.not_infix_of_find_eq_none (pattern_ne_nil hother) hfindOther
        exact hoccurs.isInfix.trans (List.drop_suffix earlier source).isInfix
    | some index =>
        have hle := hleast index (List.mem_filterMap.mpr ⟨other, hother, hfindOther⟩)
        obtain ⟨-, hfirst⟩ :=
          (Lexer.find_eq_some_iff (pattern_ne_nil hother) _ _).mp hfindOther
        exact hfirst earlier (Nat.lt_of_lt_of_le hbefore hle) hoccurs

/-- The keyword with the name is absent, or it is first found somewhere, with a brace behind it or
without one. -/
theorem found_cases (source keyword name : Text) :
    (∀ pattern ∈ patterns keyword name, ¬ pattern <:+: source) ∨
      (∃ before rest, FirstFound source keyword name before rest ∧ '{' ∉ rest) ∨
      ∃ before front body,
        FirstFound source keyword name before (front ++ '{' :: body) ∧ '{' ∉ front := by
  cases hstart : ((patterns keyword name).filterMap fun pattern =>
      Lexer.find pattern source).min? with
  | none =>
      refine .inl fun pattern hpattern => ?_
      apply Lexer.not_infix_of_find_eq_none (pattern_ne_nil hpattern)
      exact List.filterMap_eq_nil_iff.mp (List.min?_eq_none_iff.mp hstart) pattern hpattern
  | some start =>
      have hfound := firstFound_of_min hstart
      cases hfind : Lexer.find ['{'] (source.drop start) with
      | none => exact .inr (.inl ⟨_, _, hfound, Lexer.not_mem_of_find_eq_none hfind⟩)
      | some openBrace =>
          obtain ⟨body, hrest, -⟩ := Lexer.exists_of_find (List.cons_ne_nil _ _) hfind
          rw [List.append_assoc, List.singleton_append] at hrest
          rw [hrest] at hfound
          exact .inr (.inr ⟨_, _, body, hfound, Lexer.not_mem_take_of_find hfind⟩)

theorem extractNamedBlock_of_absent
    (habsent : ∀ pattern ∈ patterns keyword name, ¬ pattern <:+: source) :
    extractNamedBlock source keyword name = .error (.notFound keyword name) := by
  have hnone : (patterns keyword name).filterMap (fun pattern => Lexer.find pattern source) =
      [] := by
    rw [List.filterMap_eq_nil_iff]
    intro pattern hpattern
    exact Lexer.find_eq_none_of_not_infix (pattern_ne_nil hpattern) (habsent pattern hpattern)
  rw [extractNamedBlock, hnone]
  rfl

theorem FirstFound.extractNamedBlock_of_notMem
    (hfound : FirstFound source keyword name before rest) (habsent : '{' ∉ rest) :
    extractNamedBlock source keyword name = .error (.noOpeningBrace keyword name) := by
  have hnone : Lexer.find ['{'] rest = none := by
    apply Lexer.find_eq_none_of_not_infix (List.cons_ne_nil _ _)
    intro hoccurs
    exact habsent (hoccurs.subset List.mem_cons_self)
  rw [extractNamedBlock, hfound.min_find]
  dsimp only
  rw [hfound.drop_source, hnone]

section

variable (hfound : FirstFound source keyword name before (front ++ '{' :: body))
  (hfront : '{' ∉ front)

include hfound hfront

/-- What is left of the function behind the first brace. -/
theorem FirstFound.extractNamedBlock_of_error {panic : ExtractPanic}
    (hclosing : closingEnd front.length 0 0 (AslToken.lex ('{' :: body)) = .error panic) :
    extractNamedBlock source keyword name = .error panic := by
  rw [extractNamedBlock, hfound.min_find]
  dsimp only
  rw [hfound.drop_source, Lexer.find_singleton hfront]
  dsimp only
  rw [List.drop_left, hclosing]
  rfl

theorem FirstFound.extractNamedBlock_of_ok {stop : Nat}
    (hclosing : closingEnd front.length 0 0 (AslToken.lex ('{' :: body)) = .ok stop) :
    extractNamedBlock source keyword name =
      if 0 < stop then .ok ((front ++ '{' :: body).take stop)
      else .error (.unmatchedBraces keyword name) := by
  rw [extractNamedBlock, hfound.min_find]
  dsimp only
  rw [hfound.drop_source, Lexer.find_singleton hfront]
  dsimp only
  rw [List.drop_left, hclosing]
  rfl

/-- **When a block is returned.** -/
theorem FirstFound.extractNamedBlock_eq_ok_iff (result : Text) :
    extractNamedBlock source keyword name = .ok result ↔
      ∃ stop, (closingEnd front.length 0 0 (AslToken.lex ('{' :: body)) = .ok stop ∧ 0 < stop) ∧
        result = (front ++ '{' :: body).take stop := by
  cases hclosing : closingEnd front.length 0 0 (AslToken.lex ('{' :: body)) with
  | error panic =>
      rw [hfound.extractNamedBlock_of_error hfront hclosing]
      simp
  | ok stop =>
      rw [hfound.extractNamedBlock_of_ok hfront hclosing]
      by_cases hpos : 0 < stop
      · rw [if_pos hpos, Except.ok.injEq]
        constructor
        · intro hresult
          exact ⟨stop, ⟨rfl, hpos⟩, hresult.symm⟩
        · rintro ⟨other, ⟨hother, -⟩, hresult⟩
          rw [hresult, Except.ok.inj hother]
      · rw [if_neg hpos]
        refine iff_of_false (fun hextract => by cases hextract) ?_
        rintro ⟨other, ⟨hother, hpositive⟩, -⟩
        rw [← Except.ok.inj hother] at hpositive
        exact hpos hpositive

end

end

/-! ### One item -/

/-- Braces count where they are code. -/
def side : Item → Brackets.Side
  | .code symbol => if symbol = '{' then .opening else if symbol = '}' then .closing else .plain
  | _ => .plain

section

variable {openBrace depth spanEnd : Nat} {item : Item} {rest : Text}

theorem closingEnd_neutral {kind : Lexer.Kind AslToken} (hneutral : AslToken.Neutral kind)
    (lexeme : Text) (lexemes : List (Lexer.Kind AslToken × Text)) :
    closingEnd openBrace depth spanEnd ((kind, lexeme) :: lexemes) =
      closingEnd openBrace depth (spanEnd + lexeme.length) lexemes := by
  obtain ⟨hopen, hclose⟩ := hneutral
  rw [closingEnd]
  · exact hopen
  · exact hclose

/-- The whitespace a token of it takes along could be counted character by character. -/
theorem closingEnd_lex_skipped (text : Text) :
    closingEnd openBrace depth (spanEnd + (text.takeWhile isSkipped).length)
        (AslToken.lex (text.dropWhile isSkipped)) =
      closingEnd openBrace depth spanEnd (AslToken.lex text) := by
  cases text with
  | nil => rfl
  | cons symbol text =>
      by_cases hsymbol : isSkipped symbol = true
      · rw [AslToken.lex_skip hsymbol, closingEnd_neutral (by decide),
          List.takeWhile_cons_of_pos hsymbol, List.dropWhile_cons_of_pos hsymbol]
      · rw [List.takeWhile_cons_of_neg hsymbol, List.dropWhile_cons_of_neg hsymbol]
        rfl

theorem closingEnd_lex_code {symbol : Char} (hside : side (.code symbol) = .plain)
    (hitem : itemAt pairedEnd (symbol :: rest) = .code symbol) :
    closingEnd openBrace depth spanEnd (AslToken.lex (symbol :: rest)) =
      closingEnd openBrace depth (spanEnd + 1) (AslToken.lex rest) := by
  obtain ⟨hquote, hslash⟩ := code_of_itemAt hitem
  have hopen : symbol ≠ '{' := by
    rintro rfl
    cases hside
  have hclose : symbol ≠ '}' := by
    rintro rfl
    cases hside
  by_cases hskip : isSkipped symbol = true
  · rw [AslToken.lex_skip hskip, closingEnd_neutral (by decide), List.length_cons,
      Nat.add_comm _ 1, ← Nat.add_assoc, closingEnd_lex_skipped]
  · by_cases hsymbol : symbol = '/'
    · obtain ⟨hnotStar, hnotSlash⟩ := hslash hsymbol
      rw [hsymbol, AslToken.lex_slash hnotStar hnotSlash, closingEnd_neutral (by decide)]
      rfl
    · have hnotSkipped : isSkipped symbol = false := Bool.eq_false_iff.mpr hskip
      obtain ⟨kind, hneutral, hlex⟩ :=
        AslToken.exists_lex_other hnotSkipped hsymbol hquote hopen hclose rest
      rw [hlex, closingEnd_neutral hneutral]
      rfl

theorem closingEnd_lex_unterminated {opener text : Text} (htext : text ≠ [])
    (hitem : itemAt pairedEnd text = .unterminated opener) :
    ∃ rest, text = opener ++ rest ∧
      closingEnd openBrace depth spanEnd (AslToken.lex text) =
        closingEnd openBrace depth (spanEnd + opener.length) (AslToken.lex rest) := by
  rcases unterminated_of_itemAt htext hitem with
    ⟨rest, rfl, rfl, hnone⟩ | ⟨rest, rfl, rfl, hnone⟩
  · obtain ⟨kind, hneutral, hstar⟩ : ∃ kind, AslToken.Neutral kind ∧
        AslToken.lex ('*' :: rest) = (kind, ['*']) :: AslToken.lex rest := by
      apply AslToken.exists_lex_other <;> decide
    have hlex : AslToken.lex (['/', '*'] ++ rest) =
        (.token .slash, ['/']) :: (kind, ['*']) :: AslToken.lex rest := by
      rw [List.cons_append, List.singleton_append, AslToken.lex_unterminatedComment hnone, hstar]
    refine ⟨rest, rfl, ?_⟩
    rw [hlex, closingEnd_neutral (by decide), closingEnd_neutral hneutral]
    rfl
  · have hlex : AslToken.lex (['"'] ++ rest) = (.unmatched, ['"']) :: AslToken.lex rest :=
      AslToken.lex_unterminatedString (Lexer.not_mem_of_find_eq_none hnone)
    exact ⟨rest, rfl, by rw [hlex, closingEnd_neutral (by decide)]⟩

/-- **An item that is no brace leaves the count as it is.** -/
theorem closingEnd_lex_plain (hnonempty : item.text ++ rest ≠ [])
    (hitem : itemAt pairedEnd (item.text ++ rest) = item) (hside : side item = .plain) :
    closingEnd openBrace depth spanEnd (AslToken.lex (item.text ++ rest)) =
      closingEnd openBrace depth (spanEnd + item.text.length) (AslToken.lex rest) := by
  cases item with
  | code symbol => exact closingEnd_lex_code hside hitem
  | lineComment body =>
      rw [AslToken.lex_lineComment (lineComment_of_itemAt hitem), closingEnd_neutral (by decide)]
  | blockComment body =>
      rw [AslToken.lex_blockComment (blockComment_of_itemAt hitem),
        closingEnd_neutral (by decide)]
  | stringLiteral body =>
      rw [AslToken.lex_stringLiteral (stringLiteral_of_itemAt hitem),
        closingEnd_neutral (by decide)]
  | unterminated opener =>
      obtain ⟨rest', htext, hscan⟩ := closingEnd_lex_unterminated hnonempty hitem
      rw [hscan, List.append_cancel_left htext]
      rfl

theorem eq_of_side_opening (hside : side item = .opening) : item = .code '{' := by
  cases item with
  | code symbol =>
      by_cases hopen : symbol = '{'
      · rw [hopen]
      · simp only [side, if_neg hopen] at hside
        split at hside <;> cases hside
  | _ => cases hside

theorem eq_of_side_closing (hside : side item = .closing) : item = .code '}' := by
  cases item with
  | code symbol =>
      by_cases hclose : symbol = '}'
      · rw [hclose]
      · simp only [side, if_neg hclose] at hside
        split at hside <;> cases hside
  | _ => cases hside

end

/-! ### The whole run -/

/-- **The loop stops behind the items that close what is open**, as the regular expressions divide
the text. -/
theorem closingEnd_lex_iff (openBrace depth spanEnd stop : Nat) (text : Text) :
    closingEnd openBrace depth spanEnd (AslToken.lex text) = .ok stop ∧ 0 < stop ↔
      ∃ items, items <+: read pairedEnd text ∧ Brackets.Closes side maxDepth depth items ∧
        stop = openBrace + (spanEnd + (textOf items).length) := by
  induction hread : read pairedEnd text generalizing depth spanEnd text with
  | nil =>
      rw [eq_nil_of_read hread]
      refine iff_of_false ?_ Brackets.not_exists_closes_nil
      rintro ⟨hstop, hpos⟩
      cases hstop
      exact absurd hpos (Nat.lt_irrefl 0)
  | cons item items ih =>
      obtain ⟨rest, rfl, hitem, hrest⟩ := exists_of_read_cons hread
      have hnonempty : item.text ++ rest ≠ [] := by
        intro hempty
        rw [hempty] at hread
        cases hread
      cases hside : side item with
      | plain =>
          rw [closingEnd_lex_plain hnonempty hitem hside, ih depth _ rest hrest,
            Brackets.exists_closes_plain_iff hside]
          simp only [textOf_cons, List.length_append, Nat.add_assoc]
      | opening =>
          obtain rfl := eq_of_side_opening hside
          rw [Item.text, List.singleton_append, AslToken.lex_openBrace,
            Brackets.exists_closes_opening_iff hside, closingEnd]
          by_cases hdepth : depth < maxDepth
          · rw [if_pos hdepth, ih (depth + 1) _ rest hrest]
            simp only [hdepth, true_and, textOf_cons, List.length_append, Item.text, Nat.add_assoc]
          · rw [if_neg hdepth]
            simp [hdepth]
      | closing =>
          obtain rfl := eq_of_side_closing hside
          rw [Item.text, List.singleton_append, AslToken.lex_closeBrace, closingEnd]
          cases depth with
          | zero =>
              refine iff_of_false ?_ (Brackets.not_exists_closes_closing hside)
              rintro ⟨hstop, -⟩
              cases hstop
          | succ depth =>
              rw [Brackets.exists_closes_closing_iff hside, if_neg (Nat.succ_ne_zero depth),
                Nat.add_sub_cancel]
              by_cases hlast : depth = 0
              · have hstop : openBrace + (spanEnd + (textOf [Item.code '}']).length) ≠ 0 :=
                  Nat.succ_ne_zero _
                rw [if_pos hlast]
                constructor
                · rintro ⟨hstop, -⟩
                  exact .inl ⟨hlast, (Except.ok.inj hstop).symm⟩
                · rintro (⟨-, rfl⟩ | ⟨hdepth, -⟩)
                  · exact ⟨rfl, Nat.pos_of_ne_zero hstop⟩
                  · exact absurd hlast (Nat.ne_of_gt hdepth)
              · rw [if_neg hlast, ih depth _ rest hrest]
                simp only [hlast, false_and, false_or, Nat.pos_of_ne_zero hlast, true_and,
                  textOf_cons, List.length_append, Item.text, Nat.add_assoc]

end OrionO6.Acpi
