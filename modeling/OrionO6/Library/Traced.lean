import Mathlib.Tactic.Common

/-!
# Computations that call a service

A computation threads the state of an external service and keeps the list of the calls it makes.
What holds of every call, in every state, is derived from the parts of the computation; what holds of
every step of a run of requests is derived from what holds of one.
-/

structure Ran (σ ε α : Type) where
  value : α
  state : σ
  calls : List ε

structure Traced (σ ε α : Type) where
  run : σ → Ran σ ε α

namespace Traced

variable {σ ε α γ ρ : Type}

instance : Monad (Traced σ ε) where
  pure value := ⟨fun state => ⟨value, state, []⟩⟩
  bind comp next := ⟨fun state =>
    let first := comp.run state
    let second := (next first.value).run first.state
    ⟨second.value, second.state, first.calls ++ second.calls⟩⟩

def call (service : σ → α × σ) (event : α → ε) : Traced σ ε α where
  run state := {
    value := (service state).1
    state := (service state).2
    calls := [event (service state).1] }

def observe : Traced σ ε σ := ⟨fun state => ⟨state, state, []⟩⟩

@[simp]
theorem run_observe (state : σ) : (observe : Traced σ ε σ).run state = ⟨state, state, []⟩ := rfl

@[simp]
theorem run_pure (value : α) (state : σ) :
    (pure value : Traced σ ε α).run state = ⟨value, state, []⟩ := rfl

@[simp]
theorem run_bind (comp : Traced σ ε α) (next : α → Traced σ ε γ) (state : σ) :
    (comp >>= next).run state =
      ⟨((next (comp.run state).value).run (comp.run state).state).value,
        ((next (comp.run state).value).run (comp.run state).state).state,
        (comp.run state).calls ++
          ((next (comp.run state).value).run (comp.run state).state).calls⟩ := rfl

@[simp]
theorem run_call (service : σ → α × σ) (event : α → ε) (state : σ) :
    (call service event).run state =
      ⟨(service state).1, (service state).2, [event (service state).1]⟩ := rfl

theorem pure_bind (value : α) (next : α → Traced σ ε γ) :
    (pure value >>= next : Traced σ ε γ) = next value := rfl

theorem bind_pure_bind (comp : Traced σ ε α) (result : α → γ) (next : γ → Traced σ ε ρ) :
    (comp >>= fun value => pure (result value)) >>= next =
      comp >>= fun value => next (result value) := by
  apply congrArg Traced.mk
  funext state
  simp only [run_bind, run_pure, List.append_nil]

/-! ### What holds of every call -/

def Calls (allowed : ε → Prop) (comp : Traced σ ε α) : Prop :=
  ∀ state, ∀ event ∈ (comp.run state).calls, allowed event

variable {allowed : ε → Prop}

theorem Calls.pure (value : α) : Calls allowed (pure value : Traced σ ε α) := by
  intro state event hevent
  cases hevent

theorem Calls.bind {comp : Traced σ ε α} {next : α → Traced σ ε γ} (hcomp : Calls allowed comp)
    (hnext : ∀ value, Calls allowed (next value)) : Calls allowed (comp >>= next) := by
  intro state event hevent
  rw [run_bind] at hevent
  rcases List.mem_append.mp hevent with hfirst | hsecond
  · exact hcomp state event hfirst
  · exact hnext _ _ event hsecond

theorem Calls.call {service : σ → α × σ} {event : α → ε} (hevent : ∀ answer, allowed (event answer)) :
    Calls allowed (call service event) := by
  intro state called hcalled
  rw [run_call] at hcalled
  rw [List.mem_singleton.mp hcalled]
  exact hevent _

/-- What a computation makes of the answer to its only call, given what holds of that call. -/
theorem value_of_call {service : σ → γ × σ} {event : γ → ε} {result : γ → α} {state : σ}
    (good : α → Prop)
    (hcalls : ∀ called ∈
      ((call service event >>= fun answer => pure (result answer)).run state).calls,
      allowed called)
    (hgood : ∀ answer, allowed (event answer) → good (result answer)) :
    good ((call service event >>= fun answer => pure (result answer)).run state).value := by
  apply hgood
  apply hcalls
  rw [run_bind, run_call, run_pure, List.append_nil]
  exact List.mem_singleton_self _

/-! ### Runs -/

structure Step (ρ ε α : Type) where
  request : ρ
  value : α
  calls : List ε

variable (handle : ρ → Traced σ ε α)

def step (request : ρ) (state : σ) : Step ρ ε α where
  request := request
  value := ((handle request).run state).value
  calls := ((handle request).run state).calls

theorem step_of_pure (request : ρ) {value : α} (hhandle : handle request = pure value)
    (state : σ) : step handle request state = { request, value, calls := [] } := by
  rw [step, hhandle, run_pure]

theorem step_of_call (request : ρ) {service : σ → γ × σ} {event : γ → ε} {result : γ → α}
    (hhandle : handle request = call service event >>= fun answer => pure (result answer))
    (state : σ) :
    step handle request state = {
      request
      value := result (service state).1
      calls := [event (service state).1] } := by
  rw [step, hhandle, run_bind, run_call, run_pure, List.append_nil]

def steps : List ρ → σ → List (Step ρ ε α)
  | [], _ => []
  | request :: requests, state =>
      step handle request state :: steps requests ((handle request).run state).state

/-- **The run rule.** If in every state what is asked of a step amounts to a condition on its
request, what is asked of a whole run amounts to the condition on all of its requests. -/
theorem forall_steps_iff {good : Step ρ ε α → Prop} {condition : ρ → Prop}
    (hstep : ∀ request state, good (step handle request state) ↔ condition request) :
    ∀ (requests : List ρ) (state : σ),
      (∀ taken ∈ steps handle requests state, good taken) ↔
        ∀ request ∈ requests, condition request := by
  intro requests
  induction requests with
  | nil =>
      intro state
      simp [steps]
  | cons request requests ih =>
      intro state
      rw [steps, List.forall_mem_cons, List.forall_mem_cons, hstep, ih]

/-! ### Visiting locations

A computation that visits locations of the state one after the other, each visit changing what is
stored at its own location and nothing else.
-/

section

variable {κ β : Type} (visit : κ → σ → σ)

def visitAll : List κ → Traced σ κ Unit
  | [] => pure ()
  | location :: locations => do
      call (fun state => ((), visit location state)) fun _ => location
      visitAll locations

theorem run_visitAll (locations : List κ) (state : σ) :
    (visitAll visit locations).run state =
      ⟨(), locations.foldl (fun state location => visit location state) state, locations⟩ := by
  induction locations generalizing state with
  | nil => rfl
  | cons location locations ih => rw [visitAll, run_bind, run_call, ih]; rfl

variable {visit} {read : κ → σ → β} {change : β → β}

theorem read_foldl_visit_of_notMem (hother : ∀ location other state, other ≠ location →
      read other (visit location state) = read other state)
    {locations : List κ} {target : κ} (htarget : target ∉ locations) (state : σ) :
    read target (locations.foldl (fun state location => visit location state) state) =
      read target state := by
  induction locations generalizing state with
  | nil => rfl
  | cons location locations ih =>
      rw [List.mem_cons, not_or] at htarget
      obtain ⟨hne, hrest⟩ := htarget
      rw [List.foldl_cons, ih hrest, hother _ _ _ hne]

/-- Without repetitions, a location that is visited is changed once. -/
theorem read_foldl_visit_of_mem (hself : ∀ location state,
      read location (visit location state) = change (read location state))
    (hother : ∀ location other state, other ≠ location →
      read other (visit location state) = read other state)
    {locations : List κ} (hnodup : locations.Nodup) {target : κ} (htarget : target ∈ locations)
    (state : σ) :
    read target (locations.foldl (fun state location => visit location state) state) =
      change (read target state) := by
  induction locations generalizing state with
  | nil => cases htarget
  | cons location locations ih =>
      obtain ⟨hfresh, hrest⟩ := List.nodup_cons.mp hnodup
      rw [List.foldl_cons]
      rcases List.mem_cons.mp htarget with rfl | hlater
      · rw [read_foldl_visit_of_notMem hother hfresh, hself]
      · have hne : target ≠ location := fun heq => hfresh (heq ▸ hlater)
        rw [ih hrest hlater, hother _ _ _ hne]

end

end Traced
