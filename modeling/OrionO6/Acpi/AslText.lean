import OrionO6.Library.Lexer

/-!
# ASL source text

How a source text divides into code, comments and string literals, apart from how the tests lex it.
A line comment ends before the next newline and a string literal at the next quote. Where a block
comment ends is left open: at the first `*/` behind its opener, unless one goes by the regular
expression of the tests.
-/

namespace OrionO6.Acpi

abbrev Text := List Char

inductive Item where
  | code (symbol : Char)
  | lineComment (body : Text)
  | blockComment (body : Text)
  | stringLiteral (body : Text)
  | unterminated (opener : Text)
  deriving DecidableEq

namespace Item

def text : Item → Text
  | code symbol => [symbol]
  | lineComment body => ['/', '/'] ++ body
  | blockComment body => ['/', '*'] ++ body ++ ['*', '/']
  | stringLiteral body => ['"'] ++ body ++ ['"']
  | unterminated opener => opener

def Terminated : Item → Prop
  | unterminated _ => False
  | _ => True

instance : (item : Item) → Decidable item.Terminated
  | unterminated _ => inferInstanceAs (Decidable False)
  | code _ | lineComment _ | blockComment _ | stringLiteral _ => inferInstanceAs (Decidable True)

end Item

/-- The text of a run of items. -/
def textOf (items : List Item) : Text := items.flatMap Item.text

@[simp]
theorem textOf_nil : textOf [] = [] := rfl

@[simp]
theorem textOf_cons (item : Item) (items : List Item) :
    textOf (item :: items) = item.text ++ textOf items := rfl

@[simp]
theorem textOf_append (items later : List Item) :
    textOf (items ++ later) = textOf items ++ textOf later := List.flatMap_append

theorem textOf_map_code (symbols : Text) : textOf (symbols.map Item.code) = symbols := by
  induction symbols with
  | nil => rfl
  | cons symbol symbols ih => rw [List.map_cons, textOf_cons, ih, Item.text, List.singleton_append]

/-- Where the body of a block comment ends, given the text behind the opener. -/
structure CommentEnd where
  find : Text → Option Nat
  terminator_of_find : ∀ {text length}, find text = some length → ['*', '/'] <+: text.drop length

theorem CommentEnd.exists_of_find (ends : CommentEnd) {text : Text} {length : Nat}
    (hfind : ends.find text = some length) :
    ∃ rest, text = text.take length ++ ['*', '/'] ++ rest ∧ (text.take length).length = length :=
  Lexer.exists_of_prefix_drop (List.cons_ne_nil _ _) (ends.terminator_of_find hfind)

/-- A block comment ends at the first terminator. -/
def firstEnd : CommentEnd where
  find := Lexer.find ['*', '/']
  terminator_of_find := fun hfind =>
    ((Lexer.find_eq_some_iff (List.cons_ne_nil _ _) _ _).mp hfind).1

variable (ends : CommentEnd)

/-- The item at the front of a text. -/
def itemAt (text : Text) : Item :=
  if ['/', '*'] <+: text then
    match ends.find (text.drop 2) with
    | some length => .blockComment ((text.drop 2).take length)
    | none => .unterminated (text.take 2)
  else if ['/', '/'] <+: text then
    .lineComment ((text.drop 2).takeWhile fun symbol => symbol ≠ '\n')
  else if ['"'] <+: text then
    match Lexer.find ['"'] (text.drop 1) with
    | some length => .stringLiteral ((text.drop 1).take length)
    | none => .unterminated (text.take 1)
  else
    match text with
    | [] => .unterminated []
    | symbol :: _ => .code symbol

def read (text : Text) : List Item :=
  (Lexer.pieces (fun text => (itemAt ends text, (itemAt ends text).text.length)) 0 text).map
    Prod.fst

example : read firstEnd ['a', '/', '*', '*', '/', '"', '{', '"'] =
    [.code 'a', .blockComment [], .stringLiteral ['{']] := by decide

/-! ### Reading item by item -/

section

variable {ends} {text : Text} {item : Item} {items later : List Item}

/-- A body between its opener and its end is a front of the text. -/
theorem enclosed_prefix {opener closer behind : Text} {length : Nat}
    (hbehind : ∃ rest, behind = behind.take length ++ closer ++ rest ∧
      (behind.take length).length = length) :
    opener ++ behind.take length ++ closer <+: opener ++ behind := by
  obtain ⟨rest, hrest, -⟩ := hbehind
  refine ⟨rest, ?_⟩
  rw [List.append_assoc, List.append_assoc, ← List.append_assoc _ _ rest, ← hrest]

theorem itemAt_prefix (ends : CommentEnd) (text : Text) : (itemAt ends text).text <+: text := by
  unfold itemAt
  split
  · rename_i hopener
    obtain ⟨behind, rfl⟩ := hopener
    split
    · rename_i length hfind
      exact enclosed_prefix (ends.exists_of_find hfind)
    · exact List.take_prefix _ _
  · split
    · rename_i hopener
      obtain ⟨behind, rfl⟩ := hopener
      exact (List.prefix_append_right_inj _).mpr (List.takeWhile_prefix _)
    · split
      · rename_i hopener
        obtain ⟨behind, rfl⟩ := hopener
        split
        · rename_i length hfind
          exact enclosed_prefix (Lexer.exists_of_find (List.cons_ne_nil _ _) hfind)
        · exact List.take_prefix _ _
      · cases text with
        | nil => exact List.nil_prefix
        | cons symbol rest => exact ⟨rest, rfl⟩

theorem text_itemAt_ne_nil (htext : text ≠ []) : (itemAt ends text).text ≠ [] := by
  unfold itemAt
  split
  · rename_i hopener
    obtain ⟨body, rfl⟩ := hopener
    split <;> exact List.cons_ne_nil _ _
  · split
    · exact List.cons_ne_nil _ _
    · split
      · rename_i hopener
        obtain ⟨body, rfl⟩ := hopener
        split <;> exact List.cons_ne_nil _ _
      · cases text with
        | nil => exact absurd rfl htext
        | cons symbol rest => exact List.cons_ne_nil _ _

theorem read_of_itemAt {rest : Text} (hnonempty : item.text ++ rest ≠ [])
    (hitem : itemAt ends (item.text ++ rest) = item) :
    read ends (item.text ++ rest) = item :: read ends rest := by
  have htext : item.text ≠ [] := by
    rw [← hitem]
    exact text_itemAt_ne_nil hnonempty
  have hcut : (itemAt ends (item.text ++ rest), (itemAt ends (item.text ++ rest)).text.length) =
      (item, item.text.length) := by rw [hitem]
  rw [read, Lexer.pieces_append htext hcut, List.map_cons, read]

theorem exists_of_read_cons (hread : read ends text = item :: items) :
    ∃ rest, text = item.text ++ rest ∧ itemAt ends text = item ∧ read ends rest = items := by
  have htext : text ≠ [] := by
    rintro rfl
    cases hread
  obtain ⟨rest, hrest⟩ := itemAt_prefix ends text
  rw [← hrest] at htext
  have hitem : itemAt ends ((itemAt ends text).text ++ rest) = itemAt ends text := by rw [hrest]
  have hcons := read_of_itemAt htext hitem
  rw [hrest, hread] at hcons
  obtain ⟨rfl, rfl⟩ := List.cons_eq_cons.mp hcons
  exact ⟨rest, hrest.symm, rfl, rfl⟩

theorem exists_of_read_append (hread : read ends text = items ++ later) :
    ∃ rest, text = textOf items ++ rest ∧ read ends rest = later := by
  induction items generalizing text with
  | nil => exact ⟨text, rfl, hread⟩
  | cons item items ih =>
      obtain ⟨middle, rfl, -, hmiddle⟩ := exists_of_read_cons hread
      obtain ⟨rest, rfl, hrest⟩ := ih hmiddle
      exact ⟨rest, by rw [textOf_cons, List.append_assoc], hrest⟩

theorem eq_nil_of_read (hread : read ends text = []) : text = [] := by
  cases text with
  | nil => rfl
  | cons symbol text => cases hread

theorem length_read_le (text : Text) : (read ends text).length ≤ text.length := by
  induction hread : read ends text generalizing text with
  | nil => exact Nat.zero_le _
  | cons item items ih =>
      obtain ⟨rest, rfl, hitem, hrest⟩ := exists_of_read_cons hread
      have htext : item.text ++ rest ≠ [] := by
        intro hempty
        rw [hempty] at hread
        cases hread
      have hpos : item.text ≠ [] := by
        rw [← hitem]
        exact text_itemAt_ne_nil htext
      have hlength := List.length_pos_iff.mpr hpos
      have hle := ih rest hrest
      rw [List.length_cons, List.length_append]
      omega

/-- Reading loses nothing. -/
theorem textOf_read (text : Text) : textOf (read ends text) = text := by
  have hread : read ends text = read ends text ++ [] := (List.append_nil _).symm
  obtain ⟨rest, htext, hrest⟩ := exists_of_read_append hread
  rw [eq_nil_of_read hrest, List.append_nil] at htext
  exact htext.symm

end

/-! ### What an item says about the text -/

section

variable {ends}

theorem code_of_itemAt {symbol : Char} {rest : Text}
    (hitem : itemAt ends (symbol :: rest) = .code symbol) :
    symbol ≠ '"' ∧ (symbol = '/' → ¬ ['*'] <+: rest ∧ ¬ ['/'] <+: rest) := by
  unfold itemAt at hitem
  split at hitem
  · split at hitem <;> cases hitem
  · rename_i hblock
    split at hitem
    · cases hitem
    · rename_i hline
      split at hitem
      · split at hitem <;> cases hitem
      · rename_i hquote
        refine ⟨?_, ?_⟩
        · rintro rfl
          exact hquote ⟨rest, rfl⟩
        · rintro rfl
          exact ⟨fun hstar => hblock (List.cons_prefix_cons.mpr ⟨rfl, hstar⟩),
            fun hslash => hline (List.cons_prefix_cons.mpr ⟨rfl, hslash⟩)⟩

theorem lineComment_of_itemAt {body rest : Text}
    (hitem : itemAt ends ((Item.lineComment body).text ++ rest) = .lineComment body) :
    (body ++ rest).takeWhile (fun symbol => symbol ≠ '\n') = body := by
  have hblock : ¬ ['/', '*'] <+: (Item.lineComment body).text ++ rest := by
    simp [Item.text]
  have hline : ['/', '/'] <+: (Item.lineComment body).text ++ rest := ⟨body ++ rest, rfl⟩
  rw [itemAt.eq_def, if_neg hblock, if_pos hline] at hitem
  exact Item.lineComment.inj hitem

theorem blockComment_of_itemAt {body rest : Text}
    (hitem : itemAt ends ((Item.blockComment body).text ++ rest) = .blockComment body) :
    ends.find (body ++ ['*', '/'] ++ rest) = some body.length := by
  have hblock : ['/', '*'] <+: (Item.blockComment body).text ++ rest :=
    ⟨body ++ ['*', '/'] ++ rest, rfl⟩
  have hdrop : ((Item.blockComment body).text ++ rest).drop 2 = body ++ ['*', '/'] ++ rest := rfl
  rw [itemAt.eq_def, if_pos hblock, hdrop] at hitem
  split at hitem
  · rename_i length hfind
    obtain ⟨-, -, hlength⟩ := ends.exists_of_find hfind
    rw [Item.blockComment.inj hitem] at hlength
    rwa [hlength]
  · cases hitem

theorem stringLiteral_of_itemAt {body rest : Text}
    (hitem : itemAt ends ((Item.stringLiteral body).text ++ rest) = .stringLiteral body) :
    '"' ∉ body := by
  have hblock : ¬ ['/', '*'] <+: (Item.stringLiteral body).text ++ rest := by
    simp [Item.text]
  have hline : ¬ ['/', '/'] <+: (Item.stringLiteral body).text ++ rest := by
    simp [Item.text]
  have hquote : ['"'] <+: (Item.stringLiteral body).text ++ rest := ⟨body ++ ['"'] ++ rest, rfl⟩
  rw [itemAt.eq_def, if_neg hblock, if_neg hline, if_pos hquote] at hitem
  split at hitem
  · rename_i length hfind
    rw [← Item.stringLiteral.inj hitem]
    exact Lexer.not_mem_take_of_find hfind
  · cases hitem

/-- An opener without its end. -/
theorem unterminated_of_itemAt {opener text : Text} (htext : text ≠ [])
    (hitem : itemAt ends text = .unterminated opener) :
    (∃ rest, opener = ['/', '*'] ∧ text = opener ++ rest ∧ ends.find rest = none) ∨
      ∃ rest, opener = ['"'] ∧ text = opener ++ rest ∧ Lexer.find ['"'] rest = none := by
  unfold itemAt at hitem
  split at hitem
  · rename_i hblock
    obtain ⟨rest, rfl⟩ := hblock
    split at hitem
    · cases hitem
    · rename_i hnone
      exact .inl ⟨rest, (Item.unterminated.inj hitem).symm, by cases hitem; rfl, hnone⟩
  · split at hitem
    · cases hitem
    · split at hitem
      · rename_i hquote
        obtain ⟨rest, rfl⟩ := hquote
        split at hitem
        · cases hitem
        · rename_i hnone
          exact .inr ⟨rest, (Item.unterminated.inj hitem).symm, by cases hitem; rfl, hnone⟩
      · cases text with
        | nil => exact absurd rfl htext
        | cons symbol rest => cases hitem

/-- Where the text opens a block comment and the comment is terminated, that is the item. -/
theorem exists_blockComment_of_prefix {text : Text} (hopener : ['/', '*'] <+: text)
    (hterminated : (itemAt ends text).Terminated) :
    ∃ body, itemAt ends text = .blockComment body := by
  rw [itemAt.eq_def, if_pos hopener] at hterminated ⊢
  split
  · exact ⟨_, rfl⟩
  · rename_i hnone
    rw [hnone] at hterminated
    exact hterminated.elim

end

/-- Only behind the opener of a block comment does it matter where such comments end. -/
theorem itemAt_congr {ends ends' : CommentEnd} {text : Text}
    (hends : ['/', '*'] <+: text → ends.find (text.drop 2) = ends'.find (text.drop 2)) :
    itemAt ends text = itemAt ends' text := by
  by_cases hblock : ['/', '*'] <+: text
  · rw [itemAt.eq_def, itemAt.eq_def, if_pos hblock, if_pos hblock, hends hblock]
  · rw [itemAt.eq_def, itemAt.eq_def, if_neg hblock, if_neg hblock]

end OrionO6.Acpi
