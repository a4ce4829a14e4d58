import Mathlib.Data.List.Basic

/-!
# Self-delimiting codes

A code whose words can be read off the front of a stream: what comes after one of them does not
matter. A stream of such words stands for one sequence of symbols only.
-/

section

variable {σ α : Type}

/-- What stands before the first mark of a text. -/
theorem eq_of_append_mark_eq {mark : α} {first second rest rest' : List α} (hfirst : mark ∉ first)
    (hsecond : mark ∉ second) (happend : first ++ mark :: rest = second ++ mark :: rest') :
    first = second := by
  induction first generalizing second with
  | nil =>
      cases second with
      | nil => rfl
      | cons letter second =>
          obtain ⟨rfl, -⟩ := List.cons.inj happend
          exact absurd List.mem_cons_self hsecond
  | cons letter first ih =>
      cases second with
      | nil =>
          obtain ⟨rfl, -⟩ := List.cons.inj happend
          exact absurd List.mem_cons_self hfirst
      | cons other second =>
          obtain ⟨rfl, hlater⟩ := List.cons.inj happend
          rw [ih (fun hmem => hfirst (List.mem_cons_of_mem _ hmem))
            (fun hmem => hsecond (List.mem_cons_of_mem _ hmem)) hlater]

/-- The symbols that are valid can be told from any stream that begins with their word. -/
structure SelfDelimiting (encode : σ → List α) (valid : σ → Prop) : Prop where
  ne_nil : ∀ {symbol}, valid symbol → encode symbol ≠ []
  eq_of_append_eq : ∀ {symbol other rest rest'}, valid symbol → valid other →
    encode symbol ++ rest = encode other ++ rest' → symbol = other

theorem SelfDelimiting.eq_of_flatMap_eq {encode : σ → List α} {valid : σ → Prop}
    (hcode : SelfDelimiting encode valid) {first second : List σ}
    (hfirst : ∀ symbol ∈ first, valid symbol) (hsecond : ∀ symbol ∈ second, valid symbol)
    (hstream : first.flatMap encode = second.flatMap encode) : first = second := by
  induction first generalizing second with
  | nil =>
      cases second with
      | nil => rfl
      | cons symbol second =>
          have hnil := (List.append_eq_nil_iff.mp hstream.symm).1
          exact absurd hnil (hcode.ne_nil (hsecond symbol List.mem_cons_self))
  | cons symbol first ih =>
      obtain ⟨hsymbol, hlater⟩ := List.forall_mem_cons.mp hfirst
      cases second with
      | nil => exact absurd (List.append_eq_nil_iff.mp hstream).1 (hcode.ne_nil hsymbol)
      | cons other second =>
          obtain ⟨hother, hlater'⟩ := List.forall_mem_cons.mp hsecond
          rw [List.flatMap_cons, List.flatMap_cons] at hstream
          obtain rfl := hcode.eq_of_append_eq hsymbol hother hstream
          rw [ih hlater hlater' (List.append_cancel_left hstream)]

end
