import Mathlib.Algebra.Ring.Parity
import Mathlib.Data.List.DropRight
import OrionO6.Acpi.AslToken

/-!
# Block comments

What the regular expression for block comments matches. Inside a comment it takes each star together
with the character behind it, so a terminator is passed over where its star is the partner of the
star before. The comment ends at the first terminator whose run of stars is odd.
-/

namespace OrionO6.Acpi

open Regex

/-- The length of a comment's body when each star inside it takes a partner along. -/
def findPaired : Text → Option Nat
  | [] => none
  | [_] => none
  | symbol :: next :: text =>
      if symbol ≠ '*' then (findPaired (next :: text)).map (· + 1)
      else if next = '/' then some 0
      else (findPaired text).map (· + 2)

section

variable {symbol : Char}

theorem findPaired_cons (hsymbol : symbol ≠ '*') (text : Text) :
    findPaired (symbol :: text) = (findPaired text).map (· + 1) := by
  cases text with
  | nil => rfl
  | cons next text => rw [findPaired, if_pos hsymbol]

theorem findPaired_close (text : Text) : findPaired ('*' :: '/' :: text) = some 0 := by
  simp [findPaired]

/-- A star takes the character behind it along, unless that is a slash. -/
theorem findPaired_pair (hsymbol : symbol ≠ '/') (text : Text) :
    findPaired ('*' :: symbol :: text) = (findPaired text).map (· + 2) := by
  simp [findPaired, hsymbol]

end

theorem terminator_of_findPaired {text : Text} {length : Nat}
    (hfind : findPaired text = some length) : ['*', '/'] <+: text.drop length := by
  fun_induction findPaired text generalizing length with
  | case1 => cases hfind
  | case2 => cases hfind
  | case3 symbol next text hsymbol ih =>
      obtain ⟨shorter, hshorter, rfl⟩ := Option.map_eq_some_iff.mp hfind
      exact ih hshorter
  | case4 symbol text hsymbol =>
      obtain rfl := Option.some.inj hfind
      rw [Decidable.not_not.mp hsymbol]
      exact ⟨text, rfl⟩
  | case5 symbol next text hsymbol hnext ih =>
      obtain ⟨shorter, hshorter, rfl⟩ := Option.map_eq_some_iff.mp hfind
      exact ih hshorter

/-- A block comment ends where the regular expression ends it. -/
def pairedEnd : CommentEnd where
  find := findPaired
  terminator_of_find := terminator_of_findPaired

namespace AslToken

/-! ### The regular expression -/

/-- The regular expression behind the opener. -/
def inBody : Regex Char :=
  seq (star (one (notChar '*')))
    (seq (star (seq (one (isChar '*')) (seq (one (notChar '/')) (star (one (notChar '*'))))))
      (seq (one (isChar '*')) (one (isChar '/'))))

/-- The same state, reached through a pair of a star and another character. -/
def inGroup : Regex Char :=
  seq (seq (star (one (notChar '*')))
      (star (seq (one (isChar '*')) (seq (one (notChar '/')) (star (one (notChar '*')))))))
    (seq (one (isChar '*')) (one (isChar '/')))

def afterStar : Regex Char :=
  alt (seq (seq (seq (one (notChar '/')) (star (one (notChar '*'))))
        (star (seq (one (isChar '*')) (seq (one (notChar '/')) (star (one (notChar '*')))))))
      (seq (one (isChar '*')) (one (isChar '/'))))
    (one (isChar '/'))

section

variable {symbol : Char} {text : Text}

attribute [local simp] Regex.deriv nullable mkSeq mkAlt isChar notChar

theorem deriv_inBody (hsymbol : symbol ≠ '*') : inBody.deriv symbol = inBody := by
  simp [inBody, hsymbol]

theorem deriv_inBody_star : inBody.deriv '*' = afterStar := by
  simp [inBody, afterStar]

theorem deriv_inGroup (hsymbol : symbol ≠ '*') : inGroup.deriv symbol = inGroup := by
  simp [inGroup, hsymbol]

theorem deriv_inGroup_star : inGroup.deriv '*' = afterStar := by
  simp [inGroup, afterStar]

theorem deriv_afterStar (hsymbol : symbol ≠ '/') : afterStar.deriv symbol = inGroup := by
  simp [inGroup, afterStar, hsymbol]

theorem deriv_afterStar_slash : afterStar.deriv '/' = epsilon := by
  simp [afterStar]

end

/-- How a body is reached makes no difference to what follows. -/
theorem longest_inGroup (text : Text) : inGroup.longest text = inBody.longest text := by
  induction text with
  | nil => rfl
  | cons symbol text ih =>
      rw [longest_cons_of_not_nullable rfl, longest_cons_of_not_nullable rfl]
      by_cases hsymbol : symbol = '*'
      · rw [hsymbol, deriv_inGroup_star, deriv_inBody_star]
      · rw [deriv_inGroup hsymbol, deriv_inBody hsymbol, ih]

theorem longest_inBody (text : Text) :
    inBody.longest text = (findPaired text).map (· + 2) := by
  fun_induction findPaired text with
  | case1 => rfl
  | case2 symbol =>
      rw [longest_cons_of_not_nullable rfl]
      by_cases hsymbol : symbol = '*'
      · rw [hsymbol, deriv_inBody_star]
        rfl
      · rw [deriv_inBody hsymbol]
        rfl
  | case3 symbol next text hsymbol ih =>
      rw [longest_cons_of_not_nullable rfl, deriv_inBody hsymbol, ih, Option.map_map,
        Option.map_map]
      rfl
  | case4 symbol text hsymbol =>
      rw [Decidable.not_not.mp hsymbol, longest_cons_of_not_nullable rfl, deriv_inBody_star,
        longest_cons_of_not_nullable rfl, deriv_afterStar_slash, longest_epsilon]
      rfl
  | case5 symbol next text hsymbol hnext ih =>
      rw [Decidable.not_not.mp hsymbol, longest_cons_of_not_nullable rfl, deriv_inBody_star,
        longest_cons_of_not_nullable rfl, deriv_afterStar hnext, longest_inGroup, ih]
      simp only [Option.map_map]
      rfl

/-- **The regular expression takes stars in pairs.** -/
theorem longest_blockCommentRegex (text : Text) :
    blockCommentRegex.longest ('/' :: '*' :: text) = (findPaired text).map (· + 4) := by
  have hopener : blockCommentRegex =
      seq (one (isChar '/')) (seq (one (isChar '*')) inBody) := rfl
  have hslash : isChar '/' '/' = true := rfl
  have hstar : isChar '*' '*' = true := rfl
  rw [hopener, longest_seq_one_cons, longest_seq_one_cons, if_pos hslash, if_pos hstar,
    longest_inBody]
  simp only [Option.map_map]
  rfl

/-- So its longest match ends as `findPaired` says. -/
theorem isLongest_blockComment_iff (text : Text) (length : Nat) :
    IsLongest blockCommentRegex.lang ('/' :: '*' :: text) length ↔
      ∃ body, findPaired text = some body ∧ body + 4 = length := by
  rw [← longest_eq_some_iff, longest_blockCommentRegex, Option.map_eq_some_iff]

section

variable {rest : Text}

attribute [local simp] rules Lexer.best skip lineCommentRegex stringLiteralRegex isChar isSkipped
  isOther

theorem lex_blockComment {body : Text}
    (hbody : findPaired (body ++ ['*', '/'] ++ rest) = some body.length) :
    lex ((Item.blockComment body).text ++ rest) =
      (.token blockComment, (Item.blockComment body).text) :: lex rest := by
  rw [List.append_assoc] at hbody
  have hlongest : blockCommentRegex.longest ('/' :: '*' :: (body ++ '*' :: '/' :: rest)) =
      some (body.length + 4) := by
    rw [longest_blockCommentRegex]
    exact congrArg (Option.map (· + 4)) hbody
  have hbest : Lexer.best rules ((Item.blockComment body).text ++ rest) =
      some (.token blockComment, (Item.blockComment body).text.length) := by
    rw [Item.text, List.append_assoc, List.append_assoc]
    simp [hlongest]
  exact Lexer.lex_append (List.cons_ne_nil _ _) hbest

/-- The opener of a comment that does not end is a slash like any other. -/
theorem lex_unterminatedComment (hnone : findPaired rest = none) :
    lex ('/' :: '*' :: rest) = (.token slash, ['/']) :: lex ('*' :: rest) := by
  have hbest : Lexer.best rules (['/'] ++ '*' :: rest) = some (.token slash, 1) := by
    have hlongest := longest_blockCommentRegex rest
    rw [hnone] at hlongest
    rw [List.singleton_append]
    simp [hlongest]
  exact Lexer.lex_append (List.cons_ne_nil _ _) hbest

end

end AslToken

/-! ### The first terminator -/

/-- Text that contains no terminator and does not end in a star: it cannot close a comment, whatever
follows. -/
structure Passed (front : Text) : Prop where
  no_closer : ¬ ['*', '/'] <:+: front
  last_ne : front.getLast? ≠ some '*'

theorem Passed.tail {symbol : Char} {front : Text} (hpassed : Passed (symbol :: front)) :
    Passed front := by
  refine ⟨fun hoccurs => hpassed.no_closer (hoccurs.trans (List.suffix_cons _ _).isInfix), ?_⟩
  intro hlast
  apply hpassed.last_ne
  cases front with
  | nil => cases hlast
  | cons next front => exact hlast

theorem findPaired_append (front rest : Text) (hpassed : Passed front) :
    findPaired (front ++ rest) = (findPaired rest).map (· + front.length) := by
  induction hlength : front.length using Nat.strongRecOn generalizing front with
  | ind length ih =>
      subst hlength
      cases front with
      | nil => simp
      | cons symbol front =>
          by_cases hsymbol : symbol = '*'
          · subst hsymbol
            cases front with
            | nil => exact absurd rfl hpassed.last_ne
            | cons next front =>
                have hnext : next ≠ '/' := by
                  rintro rfl
                  exact hpassed.no_closer ⟨[], front, rfl⟩
                have hshorter : front.length < ('*' :: next :: front).length :=
                  Nat.lt_add_of_pos_right (Nat.succ_pos 1)
                rw [List.cons_append, List.cons_append, findPaired_pair hnext,
                  ih _ hshorter front hpassed.tail.tail rfl, Option.map_map]
                rfl
          · rw [List.cons_append, findPaired_cons hsymbol,
              ih _ (Nat.lt_succ_self _) front hpassed.tail rfl, Option.map_map]
            rfl

theorem findPaired_stars (pairs : Nat) (rest : Text) :
    findPaired (List.replicate (2 * pairs) '*' ++ rest) =
      (findPaired rest).map (· + 2 * pairs) := by
  induction pairs with
  | zero => simp
  | succ pairs ih =>
      have hstars : List.replicate (2 * (pairs + 1)) '*' =
          '*' :: '*' :: List.replicate (2 * pairs) '*' := rfl
      rw [hstars, List.cons_append, List.cons_append, findPaired_pair (by decide), ih,
        Option.map_map]
      rfl

/-- The stars at the end of a comment, the one of the terminator included, are odd in number. -/
def ClosedByOddRun (body : Text) : Prop :=
  (body.rtakeWhile (isChar '*') ++ ['*']).length % 2 = 1

section

variable {body rest : Text}

/-- A body up to the first terminator, without the stars at its end. -/
theorem passed_rdropWhile
    (hfirst : Lexer.find ['*', '/'] (body ++ ['*', '/'] ++ rest) = some body.length) :
    Passed (body.rdropWhile (isChar '*')) := by
  obtain ⟨-, hearlier⟩ := (Lexer.find_eq_some_iff (List.cons_ne_nil _ _) _ _).mp hfirst
  constructor
  · rintro ⟨before, after, hoccurs⟩
    obtain ⟨stars, hstars⟩ := List.rdropWhile_prefix (isChar '*') body
    have hbody : body = before ++ ['*', '/'] ++ after ++ stars := by rw [hoccurs, hstars]
    apply hearlier before.length
    · rw [hbody]
      simp only [List.length_append, List.length_cons]
      omega
    · rw [hbody]
      simp
  · intro hlast
    have hnonempty : body.rdropWhile (isChar '*') ≠ [] := by
      intro hempty
      rw [hempty] at hlast
      cases hlast
    rw [List.getLast?_eq_some_getLast hnonempty] at hlast
    apply List.rdropWhile_last_not (isChar '*') body hnonempty
    exact decide_eq_true (Option.some.inj hlast)

/-- The stars at the end of a body. -/
theorem rtakeWhile_eq_replicate (body : Text) :
    body.rtakeWhile (isChar '*') =
      List.replicate (body.rtakeWhile (isChar '*')).length '*' := by
  rw [List.eq_replicate_iff]
  refine ⟨rfl, fun symbol hsymbol => ?_⟩
  have hstar : isChar '*' symbol = true := List.mem_rtakeWhile_imp hsymbol
  exact of_decide_eq_true hstar

/-- **When the regular expression ends a comment at its first terminator.** -/
theorem findPaired_iff
    (hfirst : Lexer.find ['*', '/'] (body ++ ['*', '/'] ++ rest) = some body.length) :
    findPaired (body ++ ['*', '/'] ++ rest) = some body.length ↔ ClosedByOddRun body := by
  have hbody : body.rdropWhile (isChar '*') ++ body.rtakeWhile (isChar '*') = body :=
    List.rdropWhile_append_rtakeWhile
  have hlength : (body.rdropWhile (isChar '*')).length + (body.rtakeWhile (isChar '*')).length =
      body.length := by
    rw [← List.length_append, hbody]
  have htext : body ++ ['*', '/'] ++ rest = body.rdropWhile (isChar '*') ++
      (List.replicate (body.rtakeWhile (isChar '*')).length '*' ++ '*' :: '/' :: rest) := by
    rw [← rtakeWhile_eq_replicate, ← List.append_assoc (body.rdropWhile _), hbody,
      List.append_assoc]
    rfl
  rw [htext, findPaired_append _ _ (passed_rdropWhile hfirst), ClosedByOddRun,
    List.length_append, List.length_singleton]
  obtain ⟨pairs, heven | hodd⟩ := Nat.even_or_odd' (body.rtakeWhile (isChar '*')).length
  · rw [heven, findPaired_stars, findPaired_close]
    simp only [Option.map_some, Option.some.injEq]
    omega
  · -- the star of the terminator is the partner of the one before
    have hstars : List.replicate (2 * pairs + 1) '*' ++ '*' :: '/' :: rest =
        List.replicate (2 * (pairs + 1)) '*' ++ '/' :: rest := by
      rw [← List.singleton_append, ← List.append_assoc, ← List.replicate_succ']
      rfl
    rw [hodd, hstars, findPaired_stars, findPaired_cons (by decide)]
    refine iff_of_false ?_ (by omega)
    intro hfound
    obtain ⟨beyond, hbeyond, hsum⟩ := Option.map_eq_some_iff.mp hfound
    obtain ⟨later, -, rfl⟩ := Option.map_eq_some_iff.mp hbeyond
    omega

end

/-- **Both readings agree on an item** unless it is a block comment that ends in an even run of
stars. -/
theorem itemAt_pairedEnd {text : Text} (hterminated : (itemAt firstEnd text).Terminated)
    (hodd : ∀ body, itemAt firstEnd text = .blockComment body → ClosedByOddRun body) :
    itemAt pairedEnd text = itemAt firstEnd text := by
  apply itemAt_congr
  intro hopener
  obtain ⟨body, hitem⟩ := exists_blockComment_of_prefix hopener hterminated
  obtain ⟨rest, hrest⟩ := itemAt_prefix firstEnd text
  rw [hitem] at hrest
  subst hrest
  have hfirst := blockComment_of_itemAt hitem
  have htext : ((Item.blockComment body).text ++ rest).drop 2 = body ++ ['*', '/'] ++ rest := rfl
  rw [htext, hfirst]
  exact (findPaired_iff hfirst).mpr (hodd body hitem)

theorem read_pairedEnd {text : Text} {items later : List Item}
    (hread : read firstEnd text = items ++ later) (hterminated : ∀ item ∈ items, item.Terminated)
    (hodd : ∀ body, .blockComment body ∈ items → ClosedByOddRun body) :
    items <+: read pairedEnd text := by
  induction items generalizing text with
  | nil => exact List.nil_prefix
  | cons item items ih =>
      obtain ⟨rest, rfl, hitem, hrest⟩ := exists_of_read_cons hread
      have hagree : itemAt pairedEnd (item.text ++ rest) = item := by
        rw [itemAt_pairedEnd, hitem]
        · rw [hitem]
          exact hterminated item List.mem_cons_self
        · intro body hbody
          rw [hitem] at hbody
          exact hodd body (hbody ▸ List.mem_cons_self)
      have hnonempty : item.text ++ rest ≠ [] := by
        intro hempty
        rw [hempty] at hread
        cases hread
      rw [read_of_itemAt hnonempty hagree]
      apply List.cons_prefix_cons.mpr
      refine ⟨rfl, ih hrest (fun later hlater => ?_) fun body hbody => ?_⟩
      · exact hterminated later (List.mem_cons_of_mem _ hlater)
      · exact hodd body (List.mem_cons_of_mem _ hbody)

end OrionO6.Acpi
