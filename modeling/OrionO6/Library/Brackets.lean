import Mathlib.Data.List.Basic

/-!
# Brackets

Words in which some symbols open a bracket and others close one. Which words are balanced is defined
by their structure; what a scan that only counts the open brackets sees of a word is defined symbol
by symbol. The two are tied together at the end.
-/

namespace Brackets

inductive Side where
  | opening
  | closing
  | plain
  deriving DecidableEq

variable {α : Type} {side : α → Side}

/-- The brackets of a word match, nested at most `depth` deep. -/
inductive Balanced (side : α → Side) : Nat → List α → Prop where
  | nil (depth : Nat) : Balanced side depth []
  | plain {depth : Nat} {symbol : α} {word : List α} (hside : side symbol = .plain)
      (hword : Balanced side depth word) : Balanced side depth (symbol :: word)
  | nest {depth : Nat} {opener closer : α} {inner word : List α}
      (hopener : side opener = .opening) (hcloser : side closer = .closing)
      (hinner : Balanced side depth inner) (hword : Balanced side (depth + 1) word) :
      Balanced side (depth + 1) (opener :: (inner ++ closer :: word))

/-- A word closes `depth` open brackets, the last of them with its last symbol, and at no point are
more than `limit` open. -/
inductive Closes (side : α → Side) (limit : Nat) : Nat → List α → Prop where
  | last {closer : α} (hcloser : side closer = .closing) : Closes side limit 1 [closer]
  | plain {depth : Nat} {symbol : α} {word : List α} (hside : side symbol = .plain)
      (hword : Closes side limit depth word) : Closes side limit depth (symbol :: word)
  | opening {depth : Nat} {opener : α} {word : List α} (hopener : side opener = .opening)
      (hdepth : depth < limit) (hword : Closes side limit (depth + 1) word) :
      Closes side limit depth (opener :: word)
  | closing {depth : Nat} {closer : α} {word : List α} (hcloser : side closer = .closing)
      (hdepth : 0 < depth) (hword : Closes side limit depth word) :
      Closes side limit (depth + 1) (closer :: word)

theorem Balanced.mono {depth deeper : Nat} {word : List α} (hword : Balanced side depth word)
    (hle : depth ≤ deeper) : Balanced side deeper word := by
  induction hword generalizing deeper with
  | nil depth => exact .nil deeper
  | plain hside _ ih => exact .plain hside (ih hle)
  | nest hopener hcloser _ _ ihInner ihWord =>
      obtain ⟨deeper, rfl⟩ : ∃ n, deeper = n + 1 := ⟨deeper - 1, by omega⟩
      exact .nest hopener hcloser (ihInner (Nat.le_of_succ_le_succ hle)) (ihWord hle)

/-- A word is too short to nest its brackets deeper than it is long. -/
theorem Balanced.at_length {depth : Nat} {word : List α} (hword : Balanced side depth word) :
    Balanced side word.length word := by
  induction hword with
  | nil depth => exact .nil 0
  | plain hside _ ih => exact .plain hside (ih.mono (Nat.le_succ _))
  | @nest _ opener closer inner word hopener hcloser _ _ ihInner ihWord =>
      rw [List.length_cons]
      apply Balanced.nest hopener hcloser (ihInner.mono _) (ihWord.mono _)
      · rw [List.length_append]
        exact Nat.le_add_right _ _
      · rw [List.length_append, List.length_cons]
        omega

/-! ### Scanning symbol by symbol

What a front of a word that closes `depth` brackets begins with decides what the rest of the front
has to do. -/

section

variable {limit depth : Nat} {symbol : α} {word : List α} {holds : List α → Prop}

theorem not_exists_closes_nil :
    ¬ ∃ front, front <+: [] ∧ Closes side limit depth front ∧ holds front := by
  rintro ⟨front, hfront, hcloses, -⟩
  rw [List.prefix_nil.mp hfront] at hcloses
  cases hcloses

theorem exists_closes_plain_iff (hside : side symbol = .plain) :
    (∃ front, front <+: symbol :: word ∧ Closes side limit depth front ∧ holds front) ↔
      ∃ front, front <+: word ∧ Closes side limit depth front ∧ holds (symbol :: front) := by
  constructor
  · rintro ⟨front, hfront, hcloses, hholds⟩
    cases hcloses with
    | plain _ hcloses =>
        obtain ⟨rfl, hword⟩ := List.cons_prefix_cons.mp hfront
        exact ⟨_, hword, hcloses, hholds⟩
    | last hcloser | opening hcloser | closing hcloser =>
        rw [(List.cons_prefix_cons.mp hfront).1, hside] at hcloser
        cases hcloser
  · rintro ⟨front, hfront, hcloses, hholds⟩
    exact ⟨_, List.cons_prefix_cons.mpr ⟨rfl, hfront⟩, .plain hside hcloses, hholds⟩

theorem exists_closes_opening_iff (hside : side symbol = .opening) :
    (∃ front, front <+: symbol :: word ∧ Closes side limit depth front ∧ holds front) ↔
      depth < limit ∧
        ∃ front, front <+: word ∧ Closes side limit (depth + 1) front ∧
          holds (symbol :: front) := by
  constructor
  · rintro ⟨front, hfront, hcloses, hholds⟩
    cases hcloses with
    | opening _ hdepth hcloses =>
        obtain ⟨rfl, hword⟩ := List.cons_prefix_cons.mp hfront
        exact ⟨hdepth, _, hword, hcloses, hholds⟩
    | last hcloser | plain hcloser | closing hcloser =>
        rw [(List.cons_prefix_cons.mp hfront).1, hside] at hcloser
        cases hcloser
  · rintro ⟨hdepth, front, hfront, hcloses, hholds⟩
    exact ⟨_, List.cons_prefix_cons.mpr ⟨rfl, hfront⟩, .opening hside hdepth hcloses, hholds⟩

theorem exists_closes_closing_iff (hside : side symbol = .closing) :
    (∃ front, front <+: symbol :: word ∧ Closes side limit (depth + 1) front ∧ holds front) ↔
      depth = 0 ∧ holds [symbol] ∨
        0 < depth ∧ ∃ front, front <+: word ∧ Closes side limit depth front ∧
          holds (symbol :: front) := by
  constructor
  · rintro ⟨front, hfront, hcloses, hholds⟩
    cases hcloses with
    | last _ =>
        obtain ⟨rfl, -⟩ := List.cons_prefix_cons.mp hfront
        exact .inl ⟨rfl, hholds⟩
    | closing _ hdepth hcloses =>
        obtain ⟨rfl, hword⟩ := List.cons_prefix_cons.mp hfront
        exact .inr ⟨hdepth, _, hword, hcloses, hholds⟩
    | plain hopener | opening hopener =>
        rw [(List.cons_prefix_cons.mp hfront).1, hside] at hopener
        cases hopener
  · rintro (⟨rfl, hholds⟩ | ⟨hdepth, front, hfront, hcloses, hholds⟩)
    · exact ⟨_, List.cons_prefix_cons.mpr ⟨rfl, List.nil_prefix⟩, .last hside, hholds⟩
    · exact ⟨_, List.cons_prefix_cons.mpr ⟨rfl, hfront⟩, .closing hside hdepth hcloses, hholds⟩

/-- Nothing is open that could be closed. -/
theorem not_exists_closes_closing (hside : side symbol = .closing) :
    ¬ ∃ front, front <+: symbol :: word ∧ Closes side limit 0 front ∧ holds front := by
  rintro ⟨front, hfront, hcloses, -⟩
  cases hcloses with
  | plain hopener | opening hopener =>
      rw [(List.cons_prefix_cons.mp hfront).1, hside] at hopener
      cases hopener

end

/-! ### Balanced words -/

/-- A balanced word leaves what is open as it is. -/
theorem Balanced.closes_append {room limit depth : Nat} {inner word : List α}
    (hinner : Balanced side room inner) (hroom : depth + room ≤ limit) (hdepth : 0 < depth)
    (hword : Closes side limit depth word) : Closes side limit depth (inner ++ word) := by
  induction hinner generalizing depth word with
  | nil room => exact hword
  | plain hside _ ih => exact .plain hside (ih hroom hdepth hword)
  | nest hopener hcloser _ _ ihInner ihWord =>
      rw [List.cons_append, List.append_assoc, List.cons_append]
      apply Closes.opening hopener (by omega)
      apply ihInner (by omega) (Nat.succ_pos depth)
      exact .closing hcloser hdepth (ihWord hroom hdepth hword)

/-- The part of a word up to the bracket that closes the innermost open one. -/
theorem Closes.exists_balanced {limit room depth : Nat} {word : List α}
    (hword : Closes side limit (depth + 1) word) (hroom : depth + 1 + room = limit) :
    ∃ inner closer rest, word = inner ++ closer :: rest ∧ Balanced side room inner ∧
      side closer = .closing ∧
      (rest = [] ∧ depth = 0 ∨ 0 < depth ∧ Closes side limit depth rest) := by
  induction hlength : word.length using Nat.strongRecOn generalizing word depth room with
  | ind length ih =>
      cases hword with
      | last hcloser => exact ⟨[], _, [], rfl, .nil room, hcloser, .inl ⟨rfl, rfl⟩⟩
      | closing hcloser hdepth hword =>
          exact ⟨[], _, _, rfl, .nil room, hcloser, .inr ⟨hdepth, hword⟩⟩
      | @plain _ symbol word hside hword =>
          have hshorter : word.length < length := by
            rw [← hlength, List.length_cons]
            exact Nat.lt_succ_self _
          obtain ⟨inner, closer, rest, rfl, hinner, hcloser, hrest⟩ :=
            ih _ hshorter hword hroom rfl
          exact ⟨symbol :: inner, closer, rest, rfl, .plain hside hinner, hcloser, hrest⟩
      | @opening _ opener word hopener hdepth hword =>
          rw [List.length_cons] at hlength
          obtain ⟨room, rfl⟩ : ∃ n, room = n + 1 := ⟨room - 1, by omega⟩
          have hdeeper : depth + 1 + 1 + room = limit := by omega
          -- the bracket opened here closes first, and the rest of the word goes on at this depth
          obtain ⟨inner, closer, later, rfl, hinner, hcloser, hlater⟩ :=
            ih word.length (by omega) hword hdeeper rfl
          rcases hlater with ⟨-, hzero⟩ | ⟨-, hlater⟩
          · exact absurd hzero (Nat.succ_ne_zero depth)
          · rw [List.length_append, List.length_cons] at hlength
            obtain ⟨inner', closer', rest, rfl, hinner', hcloser', hrest⟩ :=
              ih later.length (by omega) hlater hroom rfl
            refine ⟨opener :: (inner ++ closer :: inner'), closer', rest, ?_,
              .nest hopener hcloser hinner hinner', hcloser', hrest⟩
            simp

/-- **A count of open brackets finds the end of a balanced pair.** -/
theorem closes_zero_iff {limit : Nat} {opener : α} {word : List α}
    (hopener : side opener = .opening) :
    Closes side (limit + 1) 0 (opener :: word) ↔
      ∃ inner closer, word = inner ++ [closer] ∧ Balanced side limit inner ∧
        side closer = .closing := by
  constructor
  · intro hcloses
    cases hcloses with
    | plain hside _ =>
        rw [hopener] at hside
        cases hside
    | opening _ _ hword =>
        obtain ⟨inner, closer, rest, rfl, hinner, hcloser, hrest⟩ :=
          hword.exists_balanced (Nat.add_comm _ _)
        rcases hrest with ⟨rfl, -⟩ | ⟨hzero, -⟩
        · exact ⟨inner, closer, rfl, hinner, hcloser⟩
        · exact absurd hzero (Nat.lt_irrefl 0)
  · rintro ⟨inner, closer, rfl, hinner, hcloser⟩
    apply Closes.opening hopener (Nat.succ_pos limit)
    exact hinner.closes_append (Nat.le_of_eq (Nat.add_comm _ _)) Nat.one_pos (.last hcloser)

end Brackets
