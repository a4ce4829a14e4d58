import OrionO6.Acpi.NamedBlock
import OrionO6.Library.LexerCut

/-!
# What the extractor returns

Of the source text nothing is assumed: it may have stray quotes, comments that never end and braces
that do not match. A block that is returned all the same begins with the keyword and the name, and
extracting from it again gives it back. The tests search the block for the occurrence that it begins
with, so once a block has been extracted, the node is there.
-/

namespace OrionO6.Acpi

/-! ### The count -/

section

variable {openBrace depth spanEnd stop : Nat}
  {lexemes : List (Lexer.Kind AslToken × Text)}

/-- What one token can do to the count, whatever follows it. -/
theorem closingEnd_cons_cases (openBrace depth spanEnd : Nat) (kind : Lexer.Kind AslToken)
    (lexeme : Text) :
    (maxDepth ≤ depth ∧ ∀ lexemes, closingEnd openBrace depth spanEnd ((kind, lexeme) :: lexemes) =
        .error .addOverflow) ∨
      (kind = .token .closeBrace ∧ depth = 0 ∧ ∀ lexemes,
        closingEnd openBrace depth spanEnd ((kind, lexeme) :: lexemes) =
          .error .subtractOverflow) ∨
      (∀ lexemes, closingEnd openBrace depth spanEnd ((kind, lexeme) :: lexemes) =
        .ok (openBrace + (spanEnd + lexeme.length))) ∨
      ∃ depth', depth' ≤ depth + 1 ∧ (0 < depth → 0 < depth') ∧ ∀ lexemes,
        closingEnd openBrace depth spanEnd ((kind, lexeme) :: lexemes) =
          closingEnd openBrace depth' (spanEnd + lexeme.length) lexemes := by
  by_cases hopen : kind = .token .openBrace
  · subst hopen
    by_cases hdepth : depth < maxDepth
    · refine Or.inr (Or.inr (Or.inr ⟨depth + 1, Nat.le_refl _, fun _ => Nat.succ_pos _, ?_⟩))
      intro lexemes
      rw [closingEnd, if_pos hdepth]
    · refine Or.inl ⟨Nat.le_of_not_lt hdepth, fun lexemes => ?_⟩
      rw [closingEnd, if_neg hdepth]
  · by_cases hclose : kind = .token .closeBrace
    · subst hclose
      by_cases hzero : depth = 0
      · refine Or.inr (Or.inl ⟨rfl, hzero, fun lexemes => ?_⟩)
        rw [closingEnd, if_pos hzero]
      · by_cases hlast : depth - 1 = 0
        · refine Or.inr (Or.inr (Or.inl fun lexemes => ?_))
          rw [closingEnd, if_neg hzero, if_pos hlast]
        · refine Or.inr (Or.inr (Or.inr ⟨depth - 1, ?_, fun _ => Nat.pos_of_ne_zero hlast, ?_⟩))
          · exact Nat.le_succ_of_le (Nat.sub_le _ _)
          · intro lexemes
            rw [closingEnd, if_neg hzero, if_neg hlast]
    · refine Or.inr (Or.inr (Or.inr ⟨depth, Nat.le_succ _, id, fun lexemes => ?_⟩))
      exact closingEnd_neutral ⟨hopen, hclose⟩ lexeme lexemes

/-- The count stops behind a front of the tokens and does not depend on what comes after. -/
theorem exists_of_closingEnd (hstop : closingEnd openBrace depth spanEnd lexemes = .ok stop)
    (hpos : 0 < stop) :
    ∃ taken later, lexemes = taken ++ later ∧
      stop = openBrace + (spanEnd + (Lexer.textOf taken).length) ∧
      closingEnd openBrace depth spanEnd taken = .ok stop := by
  induction lexemes generalizing depth spanEnd with
  | nil =>
      cases hstop
      exact absurd hpos (Nat.lt_irrefl 0)
  | cons piece lexemes ih =>
      obtain ⟨kind, lexeme⟩ := piece
      have htext (taken : List (Lexer.Kind AslToken × Text)) :
          (Lexer.textOf ((kind, lexeme) :: taken)).length =
            lexeme.length + (Lexer.textOf taken).length := by
        rw [Lexer.textOf_cons, List.length_append]
      rcases closingEnd_cons_cases openBrace depth spanEnd kind lexeme with
        ⟨-, herror⟩ | ⟨-, -, herror⟩ | hdone | ⟨depth', -, -, hgoes⟩
      · rw [herror] at hstop
        cases hstop
      · rw [herror] at hstop
        cases hstop
      · rw [hdone] at hstop
        refine ⟨[(kind, lexeme)], lexemes, rfl, ?_, ?_⟩
        · rw [htext]
          exact (Except.ok.inj hstop).symm
        · rw [hdone]
          exact hstop
      · rw [hgoes] at hstop
        obtain ⟨taken, later, rfl, hlength, htaken⟩ := ih hstop
        refine ⟨(kind, lexeme) :: taken, later, rfl, ?_, ?_⟩
        · rw [hlength, htext, Nat.add_assoc]
        · rw [hgoes]
          exact htaken

/-- Once a brace is open the count does not go below zero, and it cannot overflow before it has seen
as many tokens as a `u32` can count. -/
theorem closingEnd_ne_overflow {panic : ExtractPanic} (hdepth : 0 < depth)
    (hroom : depth + lexemes.length ≤ maxDepth) :
    closingEnd openBrace depth spanEnd lexemes ≠ .error panic := by
  induction lexemes generalizing depth spanEnd with
  | nil =>
      intro herror
      cases herror
  | cons piece lexemes ih =>
      obtain ⟨kind, lexeme⟩ := piece
      rw [List.length_cons] at hroom
      rcases closingEnd_cons_cases openBrace depth spanEnd kind lexeme with
        ⟨hfull, -⟩ | ⟨-, hzero, -⟩ | hdone | ⟨depth', hle, hpos, hgoes⟩
      · omega
      · omega
      · rw [hdone]
        intro herror
        cases herror
      · rw [hgoes]
        exact ih (hpos hdepth) (by omega)

end

/-! ### Extracting again -/

/-- How a returned block lies in the source: what stands before it and after it, its front up to the
first brace, and the tokens of the rest of it. -/
structure Extraction (source keyword name block before front rest : Text)
    (taken : List (Lexer.Kind AslToken × Text)) : Prop where
  source_eq : source = before ++ (block ++ rest)
  block_eq : block = front ++ Lexer.textOf taken
  isPattern : ∃ pattern ∈ patterns keyword name, pattern <+: block ++ rest
  openBrace_notMem : '{' ∉ front
  openBrace_head : ∃ body, Lexer.textOf taken = '{' :: body
  lex_eq : AslToken.lex (Lexer.textOf taken) = taken
  counts : closingEnd front.length 0 0 taken = .ok block.length

theorem openBrace_notMem_pattern {keyword name pattern : Text} (hkeyword : '{' ∉ keyword)
    (hname : '{' ∉ name) (hpattern : pattern ∈ patterns keyword name) : '{' ∉ pattern := by
  simp only [patterns, List.mem_cons, List.not_mem_nil, or_false] at hpattern
  rcases hpattern with rfl | rfl <;> simp [hkeyword, hname]

section

variable {source keyword name block : Text}

/-- The tokens up to the brace that ends the count, lexed again on their own. -/
theorem extraction_of_closingEnd {stop : Nat} {before front body : Text}
    (hfound : FirstFound source keyword name before (front ++ '{' :: body)) (hfront : '{' ∉ front)
    (hclosing : closingEnd front.length 0 0 (AslToken.lex ('{' :: body)) = .ok stop)
    (hpos : 0 < stop) :
    ∃ rest taken, Extraction source keyword name ((front ++ '{' :: body).take stop) before front
      rest taken := by
  obtain ⟨taken, later, hlex, hstop, htaken⟩ := exists_of_closingEnd hclosing hpos
  have htext : '{' :: body = Lexer.textOf taken ++ Lexer.textOf later := by
    rw [← Lexer.textOf_append, ← hlex]
    exact (Lexer.textOf_lex _).symm
  have hblock : (front ++ '{' :: body).take stop = front ++ Lexer.textOf taken := by
    rw [htext, ← List.append_assoc, hstop, Nat.zero_add, ← List.length_append, List.take_left]
  have hrest : front ++ '{' :: body =
      (front ++ '{' :: body).take stop ++ Lexer.textOf later := by
    rw [hblock, List.append_assoc, ← htext]
  refine ⟨Lexer.textOf later, taken, ?_, hblock, ?_, hfront, ?_, ?_, ?_⟩
  · rw [← hrest]
    exact hfound.source_eq
  · rw [← hrest]
    exact hfound.isPattern
  · rw [AslToken.lex_openBrace] at hlex
    cases taken with
    | nil =>
        cases htaken
        exact absurd hpos (Nat.lt_irrefl 0)
    | cons piece taken =>
        obtain ⟨rfl, -⟩ := List.cons.inj hlex
        exact ⟨_, Lexer.textOf_cons _ _ _⟩
  · rw [htext] at hlex
    exact Lexer.lex_of_append hlex
  · rw [htaken, hblock, hstop, Nat.zero_add, List.length_append]

theorem exists_extraction (hextract : extractNamedBlock source keyword name = .ok block) :
    ∃ before front rest taken, Extraction source keyword name block before front rest taken := by
  rcases found_cases source keyword name with
    habsent | ⟨before, rest, hfound, hnotMem⟩ | ⟨before, front, body, hfound, hfront⟩
  · rw [extractNamedBlock_of_absent habsent] at hextract
    cases hextract
  · rw [hfound.extractNamedBlock_of_notMem hnotMem] at hextract
    cases hextract
  · obtain ⟨stop, ⟨hclosing, hpos⟩, rfl⟩ :=
      (hfound.extractNamedBlock_eq_ok_iff hfront _).mp hextract
    obtain ⟨rest, taken, hextraction⟩ := extraction_of_closingEnd hfound hfront hclosing hpos
    exact ⟨before, front, rest, taken, hextraction⟩

/-- A block begins with the occurrence by which it was found, unless this has a brace in it. -/
theorem Extraction.exists_pattern_prefix {before front rest : Text}
    {taken : List (Lexer.Kind AslToken × Text)}
    (hextraction : Extraction source keyword name block before front rest taken)
    (hkeyword : '{' ∉ keyword) (hname : '{' ∉ name) :
    ∃ pattern ∈ patterns keyword name, pattern <+: front := by
  obtain ⟨pattern, hpattern, hlead⟩ := hextraction.isPattern
  obtain ⟨body, hbody⟩ := hextraction.openBrace_head
  refine ⟨pattern, hpattern, ?_⟩
  rw [hextraction.block_eq, hbody, List.append_assoc] at hlead
  apply List.prefix_of_prefix_length_le hlead (List.prefix_append _ _)
  by_contra hlong
  apply openBrace_notMem_pattern hkeyword hname hpattern
  have hfront : front ++ ['{'] <+: pattern := by
    apply List.prefix_of_prefix_length_le _ hlead
    · rw [List.length_append, List.length_singleton]
      omega
    · exact ⟨body ++ rest, by simp⟩
  exact hfront.subset (List.mem_append_right _ List.mem_cons_self)

/-- **Extracting is idempotent.** Whatever the source text looks like, a returned block is a piece of
it that begins with the keyword and the name, and extracting from the block again returns it. -/
theorem extractNamedBlock_idempotent (source keyword name block : Text) (hkeyword : '{' ∉ keyword)
    (hname : '{' ∉ name) (hextract : extractNamedBlock source keyword name = .ok block) :
    block <:+: source ∧ (∃ pattern ∈ patterns keyword name, pattern <+: block) ∧
      extractNamedBlock block keyword name = .ok block := by
  obtain ⟨before, front, rest, taken, hextraction⟩ := exists_extraction hextract
  obtain ⟨pattern, hpattern, hlead⟩ := hextraction.exists_pattern_prefix hkeyword hname
  have hfront : front <+: block := ⟨_, hextraction.block_eq.symm⟩
  refine ⟨⟨before, rest, ?_⟩, ⟨pattern, hpattern, hlead.trans hfront⟩, ?_⟩
  · rw [List.append_assoc]
    exact hextraction.source_eq.symm
  have hstart : ((patterns keyword name).filterMap fun pattern =>
      Lexer.find pattern block).min? = some 0 := by
    rw [List.min?_eq_some_iff]
    refine ⟨List.mem_filterMap.mpr ⟨pattern, hpattern, ?_⟩, fun _ _ => Nat.zero_le _⟩
    rw [Lexer.find_eq_some_iff (pattern_ne_nil hpattern)]
    exact ⟨hlead.trans hfront, fun earlier hearlier => absurd hearlier (Nat.not_lt_zero _)⟩
  obtain ⟨body, hbody⟩ := hextraction.openBrace_head
  have hfind : Lexer.find ['{'] block = some front.length := by
    rw [hextraction.block_eq, hbody]
    exact Lexer.find_singleton hextraction.openBrace_notMem body
  have hclosing : closingEnd front.length 0 0 (AslToken.lex (block.drop front.length)) =
      .ok block.length := by
    rw [hextraction.block_eq, List.drop_left, hextraction.lex_eq, hextraction.counts,
      ← hextraction.block_eq]
  have hpos : 0 < block.length := by
    rw [hextraction.block_eq, hbody, List.length_append, List.length_cons]
    omega
  rw [extractNamedBlock, hstart]
  dsimp only
  rw [List.drop_zero, hfind]
  dsimp only
  rw [hclosing]
  refine (if_pos hpos).trans ?_
  rw [List.take_length]
  rfl

/-- A quote that is never closed hides no brace, and the count stops at the first closing one. -/
def straySource : Text := "x;Device (A) \x7b\"\x7d\x7b\x7d\x7d".toList

def strayBlock : Text := "Device (A) \x7b\"\x7d".toList

theorem extractNamedBlock_idempotent_stray :
    strayBlock <:+: straySource ∧
      (∃ pattern ∈ patterns "Device".toList "A".toList, pattern <+: strayBlock) ∧
      extractNamedBlock strayBlock "Device".toList "A".toList = .ok strayBlock :=
  extractNamedBlock_idempotent straySource "Device".toList "A".toList strayBlock (by decide)
    (by decide) (by decide)

/-! ### How extracting fails -/

/-- No front of a text is a balanced pair of braces, as the lexer reads it: its block comments end where
the regular expression ends them. -/
def Unclosed (text : Text) : Prop :=
  ∀ depth inner, Brackets.Balanced side depth inner → ¬ braced inner <+: read pairedEnd text

/-- What makes the tests stop: the three messages of the function itself, about the names it was
asked for. -/
inductive FailsWith (source keyword name : Text) : ExtractPanic → Prop where
  | notFound (habsent : ∀ pattern ∈ patterns keyword name, ¬ pattern <:+: source) :
      FailsWith source keyword name (.notFound keyword name)
  | noOpeningBrace {before rest : Text} (hfound : FirstFound source keyword name before rest)
      (habsent : '{' ∉ rest) : FailsWith source keyword name (.noOpeningBrace keyword name)
  | unmatchedBraces {before front body : Text}
      (hfound : FirstFound source keyword name before (front ++ '{' :: body))
      (hfront : '{' ∉ front) (hunclosed : Unclosed ('{' :: body)) :
      FailsWith source keyword name (.unmatchedBraces keyword name)

section

variable {openBrace : Nat} {body : Text}

/-- On a text that a `u32` can count the characters of, the depth stays in its range. -/
theorem exists_closingEnd (hlength : body.length < maxDepth) :
    ∃ stop, closingEnd openBrace 0 0 (AslToken.lex ('{' :: body)) = .ok stop := by
  have hcount : closingEnd openBrace 0 0 (AslToken.lex ('{' :: body)) =
      closingEnd openBrace 1 1 (AslToken.lex body) := by
    rw [AslToken.lex_openBrace, closingEnd, if_pos (by decide)]
    rfl
  rw [hcount]
  cases hclosing : closingEnd openBrace 1 1 (AslToken.lex body) with
  | ok stop => exact ⟨stop, rfl⟩
  | error panic =>
      have hle := @Lexer.length_lex_le _ _ AslToken.rules body
      refine absurd hclosing (closingEnd_ne_overflow Nat.one_pos ?_)
      exact Nat.le_trans (Nat.add_le_add_left hle 1) (by omega)

/-- The count ends exactly where some brace closes the first one. -/
theorem closingEnd_pos_iff (hlength : body.length < maxDepth) :
    (∃ stop, closingEnd openBrace 0 0 (AslToken.lex ('{' :: body)) = .ok stop ∧ 0 < stop) ↔
      ¬ Unclosed ('{' :: body) := by
  constructor
  · rintro ⟨stop, hclosing⟩ hunclosed
    obtain ⟨items, hitems, hcloses, -⟩ := (closingEnd_lex_iff _ _ _ _ _).mp hclosing
    obtain ⟨inner, rfl, hinner⟩ := NamedBlock.eq_braced_of_closes hitems hcloses
    exact hunclosed _ inner hinner hitems
  · intro hclosed
    simp only [Unclosed, not_forall, not_not] at hclosed
    obtain ⟨depth, inner, hinner, hitems⟩ := hclosed
    have hshort : inner.length + 2 ≤ body.length + 1 := by
      have hle := Nat.le_trans hitems.length_le (length_read_le ('{' :: body))
      simpa [braced] using hle
    have hbalanced := hinner.at_length.mono (show inner.length ≤ maxDepth - 1 by omega)
    refine ⟨_, (closingEnd_lex_iff _ _ _ _ _).mpr ⟨braced inner, hitems, ?_, rfl⟩⟩
    exact (Brackets.closes_zero_iff rfl).mpr ⟨inner, _, rfl, hbalanced, rfl⟩

end

/-- **When the tests stop, and with which message.** On a text that a `u32` can count the characters
of, the function stops with one of its own messages, and only where that message is true of the
text: the depth is never counted below zero or beyond its range. -/
theorem extractNamedBlock_failsWith (source keyword name : Text) (panic : ExtractPanic)
    (hlength : source.length ≤ maxDepth) :
    extractNamedBlock source keyword name = .error panic ↔
      FailsWith source keyword name panic := by
  have hshort {before front body : Text}
      (hfound : FirstFound source keyword name before (front ++ '{' :: body)) :
      body.length < maxDepth := by
    have hle := congrArg List.length hfound.source_eq
    simp only [List.length_append, List.length_cons] at hle
    omega
  constructor
  · intro hextract
    rcases found_cases source keyword name with
      habsent | ⟨before, rest, hfound, hnotMem⟩ | ⟨before, front, body, hfound, hfront⟩
    · rw [extractNamedBlock_of_absent habsent] at hextract
      cases hextract
      exact .notFound habsent
    · rw [hfound.extractNamedBlock_of_notMem hnotMem] at hextract
      cases hextract
      exact .noOpeningBrace hfound hnotMem
    · obtain ⟨stop, hclosing⟩ := exists_closingEnd (hshort hfound)
      rw [hfound.extractNamedBlock_of_ok hfront hclosing] at hextract
      by_cases hpos : 0 < stop
      · rw [if_pos hpos] at hextract
        cases hextract
      · rw [if_neg hpos] at hextract
        cases hextract
        refine .unmatchedBraces hfound hfront ?_
        by_contra hclosed
        obtain ⟨other, hother, hpositive⟩ := (closingEnd_pos_iff (hshort hfound)).mpr hclosed
        rw [hclosing] at hother
        exact hpos (Except.ok.inj hother ▸ hpositive)
  · rintro (habsent | ⟨hfound, hnotMem⟩ | ⟨hfound, hfront, hunclosed⟩)
    · exact extractNamedBlock_of_absent habsent
    · exact hfound.extractNamedBlock_of_notMem hnotMem
    · obtain ⟨stop, hclosing⟩ := exists_closingEnd (hshort hfound)
      rw [hfound.extractNamedBlock_of_ok hfront hclosing, if_neg]
      intro hpos
      exact (closingEnd_pos_iff (hshort hfound)).mp ⟨stop, hclosing, hpos⟩ hunclosed

/-- Two braces are opened and one is closed; with the other one closed as well, no message is true of
the text. -/
theorem extractNamedBlock_failsWith_open :
    FailsWith "Device(A)\x7b\x7b\x7d".toList "Device".toList "A".toList
        (.unmatchedBraces "Device".toList "A".toList) ∧
      ¬ FailsWith "Device(A)\x7b\x7b\x7d\x7d".toList "Device".toList "A".toList
        (.unmatchedBraces "Device".toList "A".toList) :=
  ⟨(extractNamedBlock_failsWith _ _ _ _ (by decide)).mp (by decide),
    fun hfails => absurd ((extractNamedBlock_failsWith _ _ _ _ (by decide)).mpr hfails) (by decide)⟩

end

end OrionO6.Acpi
