import OrionO6.Acpi.Extract

/-!
# Named blocks

What `extract_named_block` is for: the text from the first occurrence of a keyword with its name
through the closing brace that matches the first brace behind it, where comments and string literals
hide their braces. The code finds that brace, unless its own view of the text is another one. It
looks for the first brace by a raw search, its block comments end where the regular expression ends
them, and it counts in 32 bits.
-/

namespace OrionO6.Acpi

/-- A pair of braces around a run of items. -/
def braced (inner : List Item) : List Item := .code '{' :: (inner ++ [.code '}'])

theorem textOf_braced (inner : List Item) :
    textOf (braced inner) = '{' :: (textOf inner ++ ['}']) := by
  rw [braced, textOf_cons, textOf_append]
  rfl

/-- A source text all of whose comments and string literals are terminated, cut at the block of a
keyword and a name. -/
structure NamedBlock (source keyword name : Text) where
  before : List Item
  occurrence : Text
  gap : List Item
  inner : List Item
  after : List Item
  depth : Nat
  reads : read firstEnd source =
    before ++ occurrence.map .code ++ gap ++ braced inner ++ after
  terminated : ∀ item ∈ read firstEnd source, item.Terminated
  isPattern : occurrence ∈ patterns keyword name
  first : ∀ pattern ∈ patterns keyword name, ∀ earlier < (textOf before).length,
    ¬ pattern <+: source.drop earlier
  openBrace_not_mem_gap : .code '{' ∉ gap
  balanced : Brackets.Balanced side depth inner

namespace NamedBlock

variable {source keyword name : Text} (block : NamedBlock source keyword name)

def text : Text := block.occurrence ++ textOf block.gap ++ textOf (braced block.inner)

/-- The block as the code sees it: from the first brace character on, read with the block comments
of the regular expression, it is one balanced pair of braces that a `u32` can count. -/
def ClosesAsLexed : Prop :=
  ∃ front inner, '{' ∉ front ∧ block.text = front ++ textOf (braced inner) ∧
    Brackets.Balanced side (maxDepth - 1) inner ∧
    braced inner <+: read pairedEnd (textOf (braced inner) ++ textOf block.after)

theorem source_eq : source = textOf block.before ++ (block.text ++ textOf block.after) := by
  calc
    source = textOf (read firstEnd source) := (textOf_read source).symm
    _ = textOf (block.before ++ block.occurrence.map .code ++ block.gap ++ braced block.inner ++
          block.after) := congrArg textOf block.reads
    _ = textOf block.before ++ (block.text ++ textOf block.after) := by
      simp only [text, textOf_append, textOf_map_code, List.append_assoc]

/-- The search for keyword and name finds the block. -/
theorem firstFound :
    FirstFound source keyword name (textOf block.before) (block.text ++ textOf block.after) := by
  refine ⟨block.source_eq, ⟨block.occurrence, block.isPattern, ?_⟩, block.first⟩
  rw [text, List.append_assoc, List.append_assoc]
  exact List.prefix_append _ _

/-- A front that closes what its first brace opens is that brace's pair. -/
theorem eq_braced_of_closes {text : Text} {items : List Item}
    (hitems : items <+: read pairedEnd ('{' :: text))
    (hcloses : Brackets.Closes side maxDepth 0 items) :
    ∃ inner, items = braced inner ∧ Brackets.Balanced side (maxDepth - 1) inner := by
  have hopen : read pairedEnd ('{' :: text) = .code '{' :: read pairedEnd text := by
    have hitem : itemAt pairedEnd ((Item.code '{').text ++ text) = .code '{' := by
      simp [Item.text, itemAt]
    exact read_of_itemAt (List.cons_ne_nil _ _) hitem
  rw [hopen] at hitems
  cases items with
  | nil => cases hcloses
  | cons opener items =>
      obtain ⟨rfl, -⟩ := List.cons_prefix_cons.mp hitems
      obtain ⟨inner, closer, rfl, hinner, hcloser⟩ := (Brackets.closes_zero_iff rfl).mp hcloses
      exact ⟨inner, by rw [eq_of_side_closing hcloser, braced], hinner⟩

/-- **When the block is extracted as it is.** -/
theorem extractNamedBlock_iff :
    extractNamedBlock source keyword name = .ok block.text ↔ block.ClosesAsLexed := by
  have hfound := block.firstFound
  constructor
  · intro hextract
    rcases found_cases source keyword name with habsent | ⟨before, rest, hother, hnotMem⟩ | hbrace
    · rw [extractNamedBlock_of_absent habsent] at hextract
      cases hextract
    · rw [hother.extractNamedBlock_of_notMem hnotMem] at hextract
      cases hextract
    · obtain ⟨before, front, body, hother, hfront⟩ := hbrace
      obtain ⟨stop, hclosing, hresult⟩ :=
        (hother.extractNamedBlock_eq_ok_iff hfront _).mp hextract
      have hrest : block.text ++ textOf block.after = front ++ '{' :: body := by
        rw [← hfound.drop_source, ← hother.drop_source, hfound.length_unique hother]
      rw [closingEnd_lex_iff] at hclosing
      obtain ⟨items, hitems, hcloses, rfl⟩ := hclosing
      obtain ⟨inner, rfl, hinner⟩ := eq_braced_of_closes hitems hcloses
      obtain ⟨later, hread⟩ := hitems
      obtain ⟨tail, htail, -⟩ := exists_of_read_append hread.symm
      have htext : block.text = front ++ textOf (braced inner) := by
        rw [hresult, htail, ← List.append_assoc, Nat.zero_add, ← List.length_append,
          List.take_left]
      have hafter : tail = textOf block.after := by
        rw [htext, List.append_assoc front, htail] at hrest
        exact (List.append_cancel_left (List.append_cancel_left hrest)).symm
      refine ⟨front, inner, hfront, htext, hinner, later, ?_⟩
      rw [hread, htail, hafter]
  · rintro ⟨front, inner, hfront, htext, hinner, hread⟩
    have hrest : block.text ++ textOf block.after =
        front ++ '{' :: (textOf inner ++ ['}'] ++ textOf block.after) := by
      rw [htext, List.append_assoc, textOf_braced]
      rfl
    rw [hrest] at hfound
    rw [textOf_braced] at hread
    refine (hfound.extractNamedBlock_eq_ok_iff hfront _).mpr
      ⟨front.length + (textOf (braced inner)).length, ?_, ?_⟩
    · rw [closingEnd_lex_iff]
      refine ⟨braced inner, hread, ?_, by rw [Nat.zero_add]⟩
      exact (Brackets.closes_zero_iff rfl).mpr ⟨inner, _, rfl, hinner, rfl⟩
    · rw [← hrest, htext, ← List.length_append, List.take_left]

/-- The first brace behind the occurrence opens the body, no comment in the body ends in an even run
of stars, and a `u32` can count its braces. -/
structure Plain : Prop where
  openBrace_not_mem : '{' ∉ block.occurrence ++ textOf block.gap
  closedByOddRun : ∀ body, .blockComment body ∈ block.inner → ClosedByOddRun body
  depth_lt : block.depth < maxDepth

/-- **Plain blocks are extracted as they are.** -/
theorem closesAsLexed_of_plain (hplain : block.Plain) : block.ClosesAsLexed := by
  refine ⟨_, block.inner, hplain.openBrace_not_mem, rfl,
    block.balanced.mono (Nat.le_pred_of_lt hplain.depth_lt), ?_⟩
  have hread : read firstEnd source =
      (block.before ++ block.occurrence.map .code ++ block.gap) ++
        (braced block.inner ++ block.after) := by
    rw [block.reads, List.append_assoc _ _ block.after]
  obtain ⟨rest, -, hrest⟩ := exists_of_read_append hread
  have htext : textOf (braced block.inner) ++ textOf block.after = rest := by
    rw [← textOf_append, ← hrest, textOf_read]
  rw [htext]
  apply read_pairedEnd hrest
  · intro item hitem
    apply block.terminated
    rw [hread]
    exact List.mem_append_right _ (List.mem_append_left _ hitem)
  · intro body hbody
    apply hplain.closedByOddRun
    simpa [braced] using hbody

end NamedBlock

/-! ### A banner comment -/

/-- A device whose only comment ends in an even run of stars, and a device behind it. -/
def bannerSource : Text := "Device(A){/** x **/}Device(B){/* y */}".toList

def bannerBlock : NamedBlock bannerSource "Device".toList "A".toList where
  before := []
  occurrence := "Device(A)".toList
  gap := []
  inner := [.blockComment "* x *".toList]
  after := read firstEnd "Device(B){/* y */}".toList
  depth := 0
  reads := by decide
  terminated := by decide
  isPattern := by decide
  first := fun _ _ earlier hearlier => absurd hearlier (Nat.not_lt_zero earlier)
  openBrace_not_mem_gap := List.not_mem_nil
  balanced := .plain rfl (.nil 0)

/-- The comment is read on to the terminator in the second device, and the brace that closes the
first device is lost in it. -/
theorem bannerSource_extracts_both :
    extractNamedBlock bannerSource "Device".toList "A".toList = .ok bannerSource ∧
      bannerBlock.text ≠ bannerSource := by
  decide

end OrionO6.Acpi
