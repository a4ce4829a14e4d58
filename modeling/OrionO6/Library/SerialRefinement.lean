import OrionO6.Library.Serial

/-!
# Refinement between two serial lines

A lower computation, whose frames are small steps, does the work of an upper one. Read through a
view, what the lower one sends is what the upper one sends, frame after frame; and the upper one
ends as the lower one did on any line that begins with the symbols the lower one has gathered.
-/

namespace Serial

variable {ε β γ α δ : Type}

/-- The upper computation ends as the lower one did. A lower one that still waits promises nothing
about it. -/
def Mirrors (upper : Comp ε γ α) (taken : List γ) (frames : List (List γ)) : Outcome ε β α → Prop
  | .done value _ =>
      ∀ sent rest, upper.run ⟨sent, taken ++ rest⟩ = .done value ⟨sent ++ frames, rest⟩
  | .blocked _ => True
  | .panicked reason _ =>
      ∀ sent rest, upper.run ⟨sent, taken ++ rest⟩ = .panicked reason ⟨sent ++ frames, rest⟩

def Refines (view : List β → List γ) (lower : Comp ε β α) (upper : Comp ε γ α) : Prop :=
  ∀ line, ∃ steps taken frames, (lower.run line).line.sent = line.sent ++ steps ∧
    steps.flatMap view = frames.flatten ∧ Mirrors upper taken frames (lower.run line)

/-- An upper computation that first takes and sends something, then goes on as another one. -/
theorem Mirrors.prepend {upper upper' : Comp ε γ α} {taken taken' : List γ}
    {frames frames' : List (List γ)} {outcome : Outcome ε β α}
    (hupper : ∀ sent rest, upper.run ⟨sent, taken ++ rest⟩ = upper'.run ⟨sent ++ frames, rest⟩)
    (hmirrors : Mirrors upper' taken' frames' outcome) :
    Mirrors upper (taken ++ taken') (frames ++ frames') outcome := by
  cases outcome with
  | done value line =>
      intro sent rest
      rw [List.append_assoc, hupper, hmirrors, List.append_assoc]
  | blocked line => trivial
  | panicked reason line =>
      intro sent rest
      rw [List.append_assoc, hupper, hmirrors, List.append_assoc]

namespace Refines

variable {view : List β → List γ}

theorem pure (value : α) :
    Refines view (pure value : Comp ε β α) (pure value : Comp ε γ α) := by
  intro line
  refine ⟨[], [], [], (List.append_nil _).symm, rfl, fun sent rest => ?_⟩
  rw [List.append_nil]
  rfl

theorem panic (reason : ε) :
    Refines view (Comp.panic reason : Comp ε β α) (Comp.panic reason : Comp ε γ α) := by
  intro line
  refine ⟨[], [], [], (List.append_nil _).symm, rfl, fun sent rest => ?_⟩
  rw [List.append_nil]
  rfl

theorem orPanic (reason : ε) (value : Option α) :
    Refines view (Comp.orPanic reason value : Comp ε β α) (Comp.orPanic reason value) := by
  cases value with
  | none => exact panic reason
  | some value => exact pure value

/-- A lower computation that waits refines anything, whatever it has sent. -/
theorem exists_of_blocked {upper : Comp ε γ α} {line line' : Line β} {steps : List (List β)}
    {outcome : Outcome ε β α} (houtcome : outcome = .blocked line')
    (hsteps : line'.sent = line.sent ++ steps) :
    ∃ steps taken frames, outcome.line.sent = line.sent ++ steps ∧
      steps.flatMap view = frames.flatten ∧ Mirrors upper taken frames outcome := by
  subst houtcome
  refine ⟨steps, [], [steps.flatMap view], hsteps, ?_, trivial⟩
  rw [List.flatten_singleton]

/-- A lower computation that has ended the same way as the upper one so far, and then goes on as
one that refines the rest of the upper one. -/
theorem exists_of_prepend {upper upper' : Comp ε γ α} {line middle : Line β} {steps : List (List β)}
    {taken : List γ} {frames : List (List γ)} {outcome : Outcome ε β α}
    (hsteps : middle.sent = line.sent ++ steps) (hframes : steps.flatMap view = frames.flatten)
    (hupper : ∀ sent rest, upper.run ⟨sent, taken ++ rest⟩ = upper'.run ⟨sent ++ frames, rest⟩)
    (hlater : ∃ steps taken frames, outcome.line.sent = middle.sent ++ steps ∧
      steps.flatMap view = frames.flatten ∧ Mirrors upper' taken frames outcome) :
    ∃ steps taken frames, outcome.line.sent = line.sent ++ steps ∧
      steps.flatMap view = frames.flatten ∧ Mirrors upper taken frames outcome := by
  obtain ⟨later, taken', frames', hlater, hframes', hmirrors'⟩ := hlater
  refine ⟨steps ++ later, taken ++ taken', frames ++ frames', ?_, ?_, hmirrors'.prepend hupper⟩
  · rw [hlater, hsteps, List.append_assoc]
  · rw [List.flatMap_append, hframes, hframes', List.flatten_append]

theorem bind {lower : Comp ε β α} {upper : Comp ε γ α} {next : α → Comp ε β δ}
    {next' : α → Comp ε γ δ} (hfirst : Refines view lower upper)
    (hnext : ∀ value, Refines view (next value) (next' value)) :
    Refines view (lower >>= next) (upper >>= next') := by
  intro line
  obtain ⟨steps, taken, frames, hsteps, hframes, hmirrors⟩ := hfirst line
  cases hrun : lower.run line with
  | done value middle =>
      rw [hrun] at hsteps hmirrors
      rw [Comp.run_bind_of_done hrun]
      have hupper (sent : List (List γ)) (rest : List γ) :
          (upper >>= next').run ⟨sent, taken ++ rest⟩ = (next' value).run ⟨sent ++ frames, rest⟩ :=
        Comp.run_bind_of_done (hmirrors sent rest)
      exact exists_of_prepend hsteps hframes hupper (hnext value middle)
  | blocked middle =>
      rw [hrun] at hsteps
      exact exists_of_blocked (Comp.run_bind_of_blocked hrun) hsteps
  | panicked reason middle =>
      rw [hrun] at hsteps hmirrors
      rw [Comp.run_bind_of_panicked hrun]
      exact ⟨steps, taken, frames, hsteps, hframes,
        fun sent rest => Comp.run_bind_of_panicked (hmirrors sent rest)⟩

/-- A loop refines a loop when every round refines the round in the same state. -/
theorem loop {σ : Type} {lower : Body ε β σ} {upper : Body ε γ σ}
    (hround : ∀ state, Refines view (lower.round state) (upper.round state)) (state : σ) :
    Refines view (lower.loop state) (upper.loop state) := by
  intro line
  induction state, line using Body.loopFrom.induct lower with
  | case1 state line state' line' hrun =>
      obtain ⟨steps, taken, frames, hsteps, hframes, hmirrors⟩ := hround state line
      rw [hrun] at hsteps hmirrors
      rw [lower.loop_of_stop hrun]
      exact ⟨steps, taken, frames, hsteps, hframes,
        fun sent rest => upper.loop_of_stop (hmirrors sent rest)⟩
  | case2 state line state' line' hrun ih =>
      obtain ⟨steps, taken, frames, hsteps, hframes, hmirrors⟩ := hround state line
      rw [hrun] at hsteps hmirrors
      rw [lower.loop_of_continue hrun]
      have hupper (sent : List (List γ)) (rest : List γ) :
          (upper.loop state).run ⟨sent, taken ++ rest⟩ =
            (upper.loop state').run ⟨sent ++ frames, rest⟩ :=
        upper.loop_of_continue (hmirrors sent rest)
      exact exists_of_prepend hsteps hframes hupper ih
  | case3 state line line' hrun =>
      obtain ⟨steps, _, _, hsteps, _, _⟩ := hround state line
      rw [hrun] at hsteps
      exact exists_of_blocked (lower.loop_of_blocked hrun) hsteps
  | case4 state line reason line' hrun =>
      obtain ⟨steps, taken, frames, hsteps, hframes, hmirrors⟩ := hround state line
      rw [hrun] at hsteps hmirrors
      rw [lower.loop_of_panicked hrun]
      exact ⟨steps, taken, frames, hsteps, hframes,
        fun sent rest => upper.loop_of_panicked (hmirrors sent rest)⟩

end Refines

end Serial
