import Mathlib.Data.List.Basic
import OrionO6.Library.Traced

/-!
# Machines

A machine says what each request is answered and what becomes of the state, without a service to
call. A handler that agrees with a machine on every step of a run agrees with it on the run; and of a
run that several parties share, each party sees what it would see alone, as long as the requests of
the others keep the states it can tell apart together.
-/

structure Machine (ρ τ α : Type) where
  answer : ρ → τ → α
  next : ρ → τ → τ

namespace Machine

variable {ρ τ α : Type} (machine : Machine ρ τ α)

def answers : List ρ → τ → List (ρ × α)
  | [], _ => []
  | request :: requests, state =>
      (request, machine.answer request state) :: answers requests (machine.next request state)

def after (requests : List ρ) (state : τ) : τ :=
  requests.foldl (fun state request => machine.next request state) state

@[simp]
theorem after_nil (state : τ) : machine.after [] state = state := rfl

@[simp]
theorem after_cons (request : ρ) (requests : List ρ) (state : τ) :
    machine.after (request :: requests) state =
      machine.after requests (machine.next request state) := rfl

variable {machine} {mine : ρ → Prop} [DecidablePred mine] {agree : τ → τ → Prop}

/-- **Parties that share a machine.** If states that agree for a party are answered alike and still
agree after its own requests, and the requests of the others keep the agreement, the party is
answered in a shared run as in the run of its own requests. -/
theorem answers_filter {requests : List ρ}
    (hmine : ∀ request ∈ requests, mine request → ∀ state alone, agree state alone →
      machine.answer request state = machine.answer request alone ∧
        agree (machine.next request state) (machine.next request alone))
    (hothers : ∀ request ∈ requests, ¬ mine request → ∀ state alone, agree state alone →
      agree (machine.next request state) alone)
    {state alone : τ} (hagree : agree state alone) :
    (machine.answers requests state).filter (fun entry => mine entry.1) =
        machine.answers (requests.filter mine) alone ∧
      agree (machine.after requests state) (machine.after (requests.filter mine) alone) := by
  induction requests generalizing state alone with
  | nil => exact ⟨rfl, hagree⟩
  | cons request requests ih =>
      obtain ⟨hhead, hmineTail⟩ := List.forall_mem_cons.mp hmine
      obtain ⟨hother, hothersTail⟩ := List.forall_mem_cons.mp hothers
      rw [answers, after_cons]
      by_cases hown : mine request
      · obtain ⟨hanswer, hnext⟩ := hhead hown state alone hagree
        obtain ⟨hrest, hafter⟩ := ih hmineTail hothersTail hnext
        rw [List.filter_cons_of_pos (by simpa using hown),
          List.filter_cons_of_pos (by simpa using hown), answers, after_cons, hanswer, hrest]
        exact ⟨rfl, hafter⟩
      · have hnext := hother hown state alone hagree
        rw [List.filter_cons_of_neg (by simpa using hown),
          List.filter_cons_of_neg (by simpa using hown)]
        exact ih hmineTail hothersTail hnext

end Machine

namespace Traced

variable {ρ σ τ ε α : Type} (handle : ρ → Traced σ ε α)

def after (requests : List ρ) (state : σ) : σ :=
  requests.foldl (fun state request => ((handle request).run state).state) state

@[simp]
theorem after_cons (request : ρ) (requests : List ρ) (state : σ) :
    after handle (request :: requests) state =
      after handle requests ((handle request).run state).state := rfl

theorem steps_append (first second : List ρ) (state : σ) :
    steps handle (first ++ second) state =
      steps handle first state ++ steps handle second (after handle first state) := by
  induction first generalizing state with
  | nil => rfl
  | cons request first ih => rw [List.cons_append, steps, ih, steps, after_cons, List.cons_append]

variable {handle} {machine : Machine ρ τ α} {view : σ → τ} {good : ε → Prop}

/-- **Refinement of runs.** A handler that does a step of the machine whenever its calls go well
does the machine's run whenever all the calls of the run go well. -/
theorem run_refines
    (hstep : ∀ request state, (∀ event ∈ ((handle request).run state).calls, good event) →
      ((handle request).run state).value = machine.answer request (view state) ∧
        view ((handle request).run state).state = machine.next request (view state))
    {requests : List ρ} {state : σ}
    (hgood : ∀ step ∈ steps handle requests state, ∀ event ∈ step.calls, good event) :
    (steps handle requests state).map (fun step => (step.request, step.value)) =
        machine.answers requests (view state) ∧
      view (after handle requests state) = machine.after requests (view state) := by
  induction requests generalizing state with
  | nil => exact ⟨rfl, rfl⟩
  | cons request requests ih =>
      rw [steps, List.forall_mem_cons] at hgood
      obtain ⟨hvalue, hview⟩ := hstep request state hgood.1
      obtain ⟨hanswers, hafter⟩ := ih hgood.2
      constructor
      · rw [steps, List.map_cons, hanswers, hview, Machine.answers, ← hvalue]
        rfl
      · rw [after_cons, hafter, hview, Machine.after_cons]

end Traced
