import Mathlib.Tactic.Common

/-!
# Blocking computations on a serial line

A computation sends whole frames to a peer and receives symbols one at a time from a queue the peer
fills. Receiving from an empty queue waits for good, since nothing else will make the peer speak; a
computation may also abort. A loop whose body takes at least one symbol in every completed round is
total on every line: the queue is its measure.
-/

namespace Serial

variable {ε β α γ : Type}

/-- The two directions of a line: the frames sent, oldest first, and the symbols the peer has put
on the line that have not been received. -/
structure Line (β : Type) where
  sent : List (List β)
  pending : List β

/-- The symbols the peer puts on the line once it has been sent a history of frames. -/
abbrev Peer (β : Type) := List (List β) → List β

/-- A peer that never speaks up: what is pending was there from the start. -/
def silent : Peer β := fun _ => []

/-- How a computation ends: with a value, waiting on an empty queue, or aborted. -/
inductive Outcome (ε β α : Type) where
  | done (value : α) (line : Line β)
  | blocked (line : Line β)
  | panicked (reason : ε) (line : Line β)

def Outcome.line : Outcome ε β α → Line β
  | .done _ line => line
  | .blocked line => line
  | .panicked _ line => line

def Outcome.andThen (outcome : Outcome ε β α) (next : α → Line β → Outcome ε β γ) :
    Outcome ε β γ :=
  match outcome with
  | .done value line => next value line
  | .blocked line => .blocked line
  | .panicked reason line => .panicked reason line

structure Comp (ε β α : Type) where
  run : Line β → Outcome ε β α

namespace Comp

instance : Monad (Comp ε β) where
  pure value := ⟨fun line => .done value line⟩
  bind comp next := ⟨fun line => (comp.run line).andThen fun value => (next value).run⟩

def panic (reason : ε) : Comp ε β α := ⟨fun line => .panicked reason line⟩

def orPanic (reason : ε) : Option α → Comp ε β α
  | some value => pure value
  | none => panic reason

def send (peer : Peer β) (frame : List β) : Comp ε β Unit where
  run line := .done () {
    sent := line.sent ++ [frame]
    pending := line.pending ++ peer (line.sent ++ [frame]) }

def receiveOne : Comp ε β β where
  run line :=
    match line.pending with
    | [] => .blocked line
    | symbol :: rest => .done symbol { line with pending := rest }

def receive : Nat → Comp ε β (List β)
  | 0 => pure []
  | count + 1 => do
      let symbol ← receiveOne
      let rest ← receive count
      pure (symbol :: rest)

@[simp]
theorem run_pure (value : α) (line : Line β) :
    (pure value : Comp ε β α).run line = .done value line := rfl

theorem run_bind (comp : Comp ε β α) (next : α → Comp ε β γ) (line : Line β) :
    (comp >>= next).run line = (comp.run line).andThen fun value => (next value).run := rfl

@[simp]
theorem run_panic (reason : ε) (line : Line β) :
    (panic reason : Comp ε β α).run line = .panicked reason line := rfl

@[simp]
theorem panic_bind (reason : ε) (next : α → Comp ε β γ) :
    (panic reason : Comp ε β α) >>= next = panic reason := rfl

@[simp]
theorem orPanic_none (reason : ε) : (orPanic reason none : Comp ε β α) = panic reason := rfl

@[simp]
theorem orPanic_some (reason : ε) (value : α) :
    (orPanic reason (some value) : Comp ε β α) = pure value := rfl

theorem run_bind_of_done {comp : Comp ε β α} {next : α → Comp ε β γ} {line line' : Line β}
    {value : α} (hcomp : comp.run line = .done value line') :
    (comp >>= next).run line = (next value).run line' := by
  rw [run_bind, hcomp]
  rfl

theorem run_bind_of_blocked {comp : Comp ε β α} {next : α → Comp ε β γ} {line line' : Line β}
    (hcomp : comp.run line = .blocked line') : (comp >>= next).run line = .blocked line' := by
  rw [run_bind, hcomp]
  rfl

theorem run_bind_of_panicked {comp : Comp ε β α} {next : α → Comp ε β γ} {line line' : Line β}
    {reason : ε} (hcomp : comp.run line = .panicked reason line') :
    (comp >>= next).run line = .panicked reason line' := by
  rw [run_bind, hcomp]
  rfl

@[simp]
theorem pure_bind (value : α) (next : α → Comp ε β γ) :
    (pure value : Comp ε β α) >>= next = next value := rfl

theorem run_bind_eq_done_iff {comp : Comp ε β α} {next : α → Comp ε β γ} {line line' : Line β}
    {result : γ} :
    (comp >>= next).run line = .done result line' ↔
      ∃ value middle, comp.run line = .done value middle ∧
        (next value).run middle = .done result line' := by
  rw [run_bind]
  cases hcomp : comp.run line <;> simp [Outcome.andThen]

theorem run_send_silent (sent : List (List β)) (pending frame : List β) :
    (send silent frame : Comp ε β Unit).run ⟨sent, pending⟩ =
      .done () ⟨sent ++ [frame], pending⟩ := by
  change Outcome.done () ⟨sent ++ [frame], pending ++ []⟩ = _
  rw [List.append_nil]

theorem receive_of_pending {sent : List (List β)} {symbols rest : List β} {count : Nat}
    (hcount : symbols.length = count) :
    (receive count : Comp ε β (List β)).run ⟨sent, symbols ++ rest⟩ = .done symbols ⟨sent, rest⟩ := by
  subst hcount
  induction symbols with
  | nil => rfl
  | cons symbol symbols ih =>
      have hone : (receiveOne : Comp ε β β).run ⟨sent, symbol :: symbols ++ rest⟩ =
          .done symbol ⟨sent, symbols ++ rest⟩ := rfl
      rw [List.length_cons, receive, run_bind_of_done hone, run_bind_of_done ih]
      rfl

/-- Receiving more than the queue holds drains it and waits. -/
theorem receive_of_short {sent : List (List β)} {pending : List β} {count : Nat}
    (hshort : pending.length < count) :
    (receive count : Comp ε β (List β)).run ⟨sent, pending⟩ = .blocked ⟨sent, []⟩ := by
  induction pending generalizing count with
  | nil =>
      obtain ⟨count, rfl⟩ : ∃ n, count = n + 1 := ⟨count - 1, by simp at hshort; omega⟩
      rfl
  | cons symbol pending ih =>
      obtain ⟨count, rfl⟩ : ∃ n, count = n + 1 := ⟨count - 1, by simp at hshort; omega⟩
      have hone : (receiveOne : Comp ε β β).run ⟨sent, symbol :: pending⟩ =
          .done symbol ⟨sent, pending⟩ := rfl
      have hrest : pending.length < count := by
        simp only [List.length_cons] at hshort
        omega
      rw [receive, run_bind_of_done hone, run_bind_of_blocked (ih hrest)]

/-! ### Counting what a computation takes

`Takes n comp` says that whenever `comp` ends with a value it has received at least `n` symbols.
-/

def Takes (count : Nat) (comp : Comp ε β α) : Prop :=
  ∀ (line line' : Line β) (value : α), comp.run line = .done value line' →
    line'.pending.length + count ≤ line.pending.length

theorem Takes.pure (value : α) : Takes 0 (pure value : Comp ε β α) := by
  intro line line' result hdone
  cases hdone
  exact Nat.le_refl _

theorem Takes.panic (count : Nat) (reason : ε) : Takes count (panic reason : Comp ε β α) := by
  intro line line' result hdone
  cases hdone

theorem Takes.orPanic (reason : ε) (value : Option α) :
    Takes 0 (orPanic reason value : Comp ε β α) := by
  cases value with
  | none => exact Takes.panic 0 reason
  | some value => exact Takes.pure value

theorem Takes.bind (first second : Nat) {comp : Comp ε β α} {next : α → Comp ε β γ}
    (hcomp : Takes first comp) (hnext : ∀ value, Takes second (next value)) :
    Takes (first + second) (comp >>= next) := by
  intro line line' result hdone
  obtain ⟨value, middle, hfirst, hsecond⟩ := run_bind_eq_done_iff.mp hdone
  have htakesFirst := hcomp _ _ _ hfirst
  have htakesSecond := hnext value _ _ _ hsecond
  omega

theorem Takes.mono {count fewer : Nat} {comp : Comp ε β α} (hcomp : Takes count comp)
    (hle : fewer ≤ count) : Takes fewer comp := by
  intro line line' result hdone
  have htakes := hcomp _ _ _ hdone
  omega

theorem Takes.receive (count : Nat) : Takes count (receive count : Comp ε β (List β)) := by
  intro line line' symbols hdone
  rcases Nat.lt_or_ge line.pending.length count with hshort | henough
  · rw [show line = ⟨line.sent, line.pending⟩ from rfl, receive_of_short hshort] at hdone
    cases hdone
  · have hline : line = ⟨line.sent, line.pending.take count ++ line.pending.drop count⟩ := by
      rw [List.take_append_drop]
    rw [hline, receive_of_pending (List.length_take_of_le henough)] at hdone
    cases hdone
    simp only [List.length_drop]
    omega

/-! ### What a computation sends

`Sends frames comp` says that `comp` sends exactly `frames`, whichever way it ends.
-/

def Sends (frames : List (List β)) (comp : Comp ε β α) : Prop :=
  ∀ line, (comp.run line).line.sent = line.sent ++ frames

theorem Sends.pure (value : α) : Sends [] (pure value : Comp ε β α) :=
  fun line => (List.append_nil line.sent).symm

theorem Sends.panic (reason : ε) : Sends [] (panic reason : Comp ε β α) :=
  fun line => (List.append_nil line.sent).symm

theorem Sends.orPanic (reason : ε) (value : Option α) :
    Sends [] (orPanic reason value : Comp ε β α) := by
  cases value with
  | none => exact Sends.panic reason
  | some value => exact Sends.pure value

theorem Sends.send (peer : Peer β) (frame : List β) :
    Sends [frame] (send peer frame : Comp ε β Unit) :=
  fun _ => rfl

/-- What follows may never run, so it must send nothing. -/
theorem Sends.bind {frames : List (List β)} {comp : Comp ε β α} {next : α → Comp ε β γ}
    (hcomp : Sends frames comp) (hnext : ∀ value, Sends [] (next value)) :
    Sends frames (comp >>= next) := by
  intro line
  have hsent := hcomp line
  rw [run_bind]
  cases hrun : comp.run line with
  | done value line' =>
      rw [hrun] at hsent
      have hrest := hnext value line'
      rw [List.append_nil] at hrest
      exact hrest.trans hsent
  | blocked line' =>
      rw [hrun] at hsent
      exact hsent
  | panicked reason line' =>
      rw [hrun] at hsent
      exact hsent

theorem Sends.receiveOne : Sends [] (receiveOne : Comp ε β β) := by
  rintro ⟨sent, pending⟩
  rw [List.append_nil]
  cases pending with
  | nil => rfl
  | cons symbol rest => rfl

theorem Sends.receive (count : Nat) : Sends [] (receive count : Comp ε β (List β)) := by
  induction count with
  | zero => exact Sends.pure []
  | succ count ih => exact Sends.receiveOne.bind fun symbol => ih.bind fun rest => Sends.pure _

/-! ### Invariants of the history

`Preserves invariant comp` says that what holds of the frames sent before `comp` still holds of
those sent after it, whichever way it ends; `Ensures` that it holds after `comp` in any case.
-/

def Preserves (invariant : List (List β) → Prop) (comp : Comp ε β α) : Prop :=
  ∀ line, invariant line.sent → invariant (comp.run line).line.sent

def Ensures (invariant : List (List β) → Prop) (comp : Comp ε β α) : Prop :=
  ∀ line, invariant (comp.run line).line.sent

variable {invariant : List (List β) → Prop}

theorem Sends.preserves {comp : Comp ε β α} (hcomp : Sends [] comp) :
    Preserves invariant comp := by
  intro line hline
  rwa [hcomp line, List.append_nil]

theorem Preserves.pure (value : α) : Preserves invariant (pure value : Comp ε β α) :=
  (Sends.pure value).preserves

theorem Preserves.panic (reason : ε) : Preserves invariant (panic reason : Comp ε β α) :=
  (Sends.panic reason).preserves

theorem Preserves.orPanic (reason : ε) (value : Option α) :
    Preserves invariant (orPanic reason value : Comp ε β α) :=
  (Sends.orPanic reason value).preserves

theorem Preserves.receiveOne : Preserves invariant (receiveOne : Comp ε β β) :=
  Sends.receiveOne.preserves

theorem Preserves.send (peer : Peer β) {frame : List β}
    (hframe : ∀ sent, invariant sent → invariant (sent ++ [frame])) :
    Preserves invariant (send peer frame : Comp ε β Unit) :=
  fun line hline => hframe line.sent hline

theorem Preserves.bind {comp : Comp ε β α} {next : α → Comp ε β γ}
    (hcomp : Preserves invariant comp) (hnext : ∀ value, Preserves invariant (next value)) :
    Preserves invariant (comp >>= next) := by
  intro line hline
  have hfirst := hcomp line hline
  rw [run_bind]
  cases hrun : comp.run line with
  | done value line' =>
      rw [hrun] at hfirst
      exact hnext value line' hfirst
  | blocked line' =>
      rw [hrun] at hfirst
      exact hfirst
  | panicked reason line' =>
      rw [hrun] at hfirst
      exact hfirst

theorem Ensures.bind {comp : Comp ε β α} {next : α → Comp ε β γ} (hcomp : Ensures invariant comp)
    (hnext : ∀ value, Preserves invariant (next value)) : Ensures invariant (comp >>= next) := by
  intro line
  have hfirst := hcomp line
  rw [run_bind]
  cases hrun : comp.run line with
  | done value line' =>
      rw [hrun] at hfirst
      exact hnext value line' hfirst
  | blocked line' =>
      rw [hrun] at hfirst
      exact hfirst
  | panicked reason line' =>
      rw [hrun] at hfirst
      exact hfirst

/-! ### What a result depends on

`Settled comp` says that when `comp` ends with a value, the symbols it has taken settle that value:
whatever was sent before them and whatever is on the line after them, they give it again.
-/

def Settled (comp : Comp ε β α) : Prop :=
  ∀ (line line' : Line β) (value : α), comp.run line = .done value line' →
    ∃ taken, line.pending = taken ++ line'.pending ∧
      ∀ sent rest, comp.run ⟨sent, taken ++ rest⟩ = .done value ⟨sent, rest⟩

theorem Settled.pure (value : α) : Settled (pure value : Comp ε β α) := by
  intro line line' result hdone
  cases hdone
  exact ⟨[], rfl, fun _ _ => rfl⟩

theorem Settled.panic (reason : ε) : Settled (panic reason : Comp ε β α) := by
  intro line line' result hdone
  cases hdone

theorem Settled.orPanic (reason : ε) (value : Option α) :
    Settled (orPanic reason value : Comp ε β α) := by
  cases value with
  | none => exact Settled.panic reason
  | some value => exact Settled.pure value

theorem Settled.bind {comp : Comp ε β α} {next : α → Comp ε β γ} (hcomp : Settled comp)
    (hnext : ∀ value, Settled (next value)) : Settled (comp >>= next) := by
  intro line line' result hdone
  obtain ⟨value, middle, hfirst, hsecond⟩ := run_bind_eq_done_iff.mp hdone
  obtain ⟨first, hpending, hagain⟩ := hcomp _ _ _ hfirst
  obtain ⟨second, hmiddle, hagain'⟩ := hnext value _ _ _ hsecond
  refine ⟨first ++ second, ?_, ?_⟩
  · rw [hpending, hmiddle, List.append_assoc]
  · intro sent rest
    rw [List.append_assoc, run_bind_of_done (hagain sent (second ++ rest))]
    exact hagain' sent rest

theorem Settled.receiveOne : Settled (receiveOne : Comp ε β β) := by
  rintro ⟨sent, pending⟩ line' symbol hdone
  cases pending with
  | nil => cases hdone
  | cons head rest =>
      cases hdone
      exact ⟨[symbol], rfl, fun _ _ => rfl⟩

theorem Settled.receive (count : Nat) : Settled (receive count : Comp ε β (List β)) := by
  induction count with
  | zero => exact Settled.pure []
  | succ count ih =>
      exact Settled.receiveOne.bind fun symbol => ih.bind fun rest => Settled.pure _

end Comp

/-! ### Loops

A body maps the loop's state to the next one and says whether the loop ends there.
-/

/-- A loop body together with the proof that every completed round receives something. -/
structure Body (ε β σ : Type) where
  round : σ → Comp ε β (σ × Bool)
  takes : ∀ state, Comp.Takes 1 (round state)

namespace Body

variable {σ τ χ : Type} (body : Body ε β σ)

def loopFrom (state : σ) (line : Line β) : Outcome ε β σ :=
  match _hround : (body.round state).run line with
  | .done (state', true) line' => .done state' line'
  | .done (state', false) line' => loopFrom state' line'
  | .blocked line' => .blocked line'
  | .panicked reason line' => .panicked reason line'
termination_by line.pending.length
decreasing_by
  have htakes := body.takes state _ _ _ _hround
  omega

def loop (state : σ) : Comp ε β σ := ⟨body.loopFrom state⟩

theorem loop_of_stop {state state' : σ} {line line' : Line β}
    (hround : (body.round state).run line = .done (state', true) line') :
    (body.loop state).run line = .done state' line' := by
  change body.loopFrom state line = _
  rw [loopFrom]
  split <;> simp_all

theorem loop_of_continue {state state' : σ} {line line' : Line β}
    (hround : (body.round state).run line = .done (state', false) line') :
    (body.loop state).run line = (body.loop state').run line' := by
  change body.loopFrom state line = _
  rw [loopFrom]
  split <;> simp_all [loop]

theorem loop_of_blocked {state : σ} {line line' : Line β}
    (hround : (body.round state).run line = .blocked line') :
    (body.loop state).run line = .blocked line' := by
  change body.loopFrom state line = _
  rw [loopFrom]
  split <;> simp_all

theorem loop_of_panicked {state : σ} {line line' : Line β} {reason : ε}
    (hround : (body.round state).run line = .panicked reason line') :
    (body.loop state).run line = .panicked reason line' := by
  change body.loopFrom state line = _
  rw [loopFrom]
  split <;> simp_all

theorem round_done_of_loop_done {state result : σ} {line line' : Line β}
    (hloop : (body.loop state).run line = .done result line') :
    ∃ value middle, (body.round state).run line = .done value middle := by
  cases hround : (body.round state).run line with
  | done value middle => exact ⟨value, middle, rfl⟩
  | blocked middle =>
      rw [body.loop_of_blocked hround] at hloop
      cases hloop
  | panicked reason middle =>
      rw [body.loop_of_panicked hround] at hloop
      cases hloop

theorem sends_loop (hround : ∀ state, Comp.Sends [] (body.round state)) (state : σ) :
    Comp.Sends [] (body.loop state) := by
  intro line
  induction state, line using loopFrom.induct body with
  | case1 state line state' line' hrun =>
      have hsent := hround state line
      rw [hrun] at hsent
      rw [body.loop_of_stop hrun]
      exact hsent
  | case2 state line state' line' hrun ih =>
      have hsent := hround state line
      rw [hrun] at hsent
      rw [body.loop_of_continue hrun, ih, List.append_nil]
      exact hsent
  | case3 state line line' hrun =>
      have hsent := hround state line
      rw [hrun] at hsent
      rw [body.loop_of_blocked hrun]
      exact hsent
  | case4 state line reason line' hrun =>
      have hsent := hround state line
      rw [hrun] at hsent
      rw [body.loop_of_panicked hrun]
      exact hsent

theorem preserves_loop {invariant : List (List β) → Prop}
    (hround : ∀ state, Comp.Preserves invariant (body.round state)) (state : σ) :
    Comp.Preserves invariant (body.loop state) := by
  intro line hline
  induction state, line using loopFrom.induct body with
  | case1 state line state' line' hrun =>
      have hsent := hround state line hline
      rw [hrun] at hsent
      rw [body.loop_of_stop hrun]
      exact hsent
  | case2 state line state' line' hrun ih =>
      have hsent := hround state line hline
      rw [hrun] at hsent
      rw [body.loop_of_continue hrun]
      exact ih hsent
  | case3 state line line' hrun =>
      have hsent := hround state line hline
      rw [hrun] at hsent
      rw [body.loop_of_blocked hrun]
      exact hsent
  | case4 state line reason line' hrun =>
      have hsent := hround state line hline
      rw [hrun] at hsent
      rw [body.loop_of_panicked hrun]
      exact hsent

theorem settled_loop (hround : ∀ state, Comp.Settled (body.round state)) (state : σ) :
    Comp.Settled (body.loop state) := by
  intro line final result hdone
  induction state, line using loopFrom.induct body with
  | case1 state line state' line' hrun =>
      rw [body.loop_of_stop hrun] at hdone
      cases hdone
      obtain ⟨taken, hpending, hagain⟩ := hround state _ _ _ hrun
      exact ⟨taken, hpending, fun sent rest => body.loop_of_stop (hagain sent rest)⟩
  | case2 state line state' line' hrun ih =>
      rw [body.loop_of_continue hrun] at hdone
      obtain ⟨first, hpending, hagain⟩ := hround state _ _ _ hrun
      obtain ⟨later, hpending', hagain'⟩ := ih hdone
      refine ⟨first ++ later, ?_, ?_⟩
      · rw [hpending, hpending', List.append_assoc]
      · intro sent rest
        rw [List.append_assoc, body.loop_of_continue (hagain sent (later ++ rest))]
        exact hagain' sent rest
  | case3 state line line' hrun =>
      rw [body.loop_of_blocked hrun] at hdone
      cases hdone
  | case4 state line reason line' hrun =>
      rw [body.loop_of_panicked hrun] at hdone
      cases hdone

/-- The rounds a loop completes before it ends, whichever way it ends. -/
def rounds (state : σ) (line : Line β) : Nat :=
  match _hround : (body.round state).run line with
  | .done (_, true) _ => 1
  | .done (state', false) line' => rounds state' line' + 1
  | .blocked _ => 0
  | .panicked _ _ => 0
termination_by line.pending.length
decreasing_by
  have htakes := body.takes state _ _ _ _hround
  omega

theorem rounds_of_stop {state state' : σ} {line line' : Line β}
    (hround : (body.round state).run line = .done (state', true) line') :
    body.rounds state line = 1 := by
  rw [rounds]
  split <;> simp_all

theorem rounds_of_continue {state state' : σ} {line line' : Line β}
    (hround : (body.round state).run line = .done (state', false) line') :
    body.rounds state line = body.rounds state' line' + 1 := by
  rw [rounds]
  split <;> simp_all

theorem rounds_of_not_done {state : σ} {line : Line β}
    (hround : ∀ value line', (body.round state).run line ≠ .done value line') :
    body.rounds state line = 0 := by
  rw [rounds]
  split <;> simp_all

/-- **Progress.** What every completed round takes bounds the number of rounds. -/
theorem mul_rounds_le {count : Nat} (htakes : ∀ state, Comp.Takes count (body.round state))
    (state : σ) (line : Line β) : count * body.rounds state line ≤ line.pending.length := by
  induction state, line using loopFrom.induct body with
  | case1 state line state' line' hrun =>
      have htaken := htakes state _ _ _ hrun
      rw [body.rounds_of_stop hrun]
      omega
  | case2 state line state' line' hrun ih =>
      have htaken := htakes state _ _ _ hrun
      rw [body.rounds_of_continue hrun, Nat.mul_succ]
      omega
  | case3 state line line' hrun =>
      rw [body.rounds_of_not_done (by simp [hrun])]
      exact Nat.zero_le _
  | case4 state line reason line' hrun =>
      rw [body.rounds_of_not_done (by simp [hrun])]
      exact Nat.zero_le _

/-- The states in which a loop begins a round, with the line as that round finds it. -/
inductive Reached (start : σ) (line₀ : Line β) : σ → Line β → Prop where
  | start : Reached start line₀ start line₀
  | next {state state' : σ} {line line' : Line β} : Reached start line₀ state line →
      (body.round state).run line = .done (state', false) line' →
      Reached start line₀ state' line'

theorem loop_eq_of_reached {start state : σ} {line₀ line : Line β}
    (hreached : body.Reached start line₀ state line) :
    (body.loop start).run line₀ = (body.loop state).run line := by
  induction hreached with
  | start => rfl
  | next _ hround ih => rw [ih, body.loop_of_continue hround]

/-- What every round that goes on preserves holds wherever a round begins. -/
theorem invariant_of_reached (invariant : σ → Prop) {start state : σ} {line₀ line : Line β}
    (hstart : invariant start)
    (hstep : ∀ state line state' line', invariant state →
      (body.round state).run line = .done (state', false) line' → invariant state')
    (hreached : body.Reached start line₀ state line) : invariant state := by
  induction hreached with
  | start => exact hstart
  | next _ hround ih => exact hstep _ _ _ _ ih hround

/-- Every chunk of a list may be processed in the state the chunks before it lead to. -/
def Accepts (accept : τ → χ → Prop) (next : τ → χ → τ) : τ → List χ → Prop
  | _, [] => True
  | state, chunk :: chunks => accept state chunk ∧ Accepts accept next (next state chunk) chunks

/-- **The chunk rule.** A line that begins with encoded chunks, of which only the last one stops the
loop, is taken up to the end of that chunk and not further; the result is the fold of the chunks.
The loop's states represent abstract ones through `repr`. -/
theorem loop_of_chunks {repr : τ → σ} {encode : χ → List β} {accept : τ → χ → Prop}
    {next : τ → χ → τ} {last : χ → Bool}
    (hround : ∀ state chunk sent rest, accept state chunk →
      (body.round (repr state)).run ⟨sent, encode chunk ++ rest⟩ =
        .done (repr (next state chunk), last chunk) ⟨sent, rest⟩)
    (sent : List (List β)) (rest : List β) {final : χ} (hfinal : last final = true) :
    ∀ (chunks : List χ) (state : τ), (∀ chunk ∈ chunks, last chunk = false) →
      Accepts accept next state (chunks ++ [final]) →
      (body.loop (repr state)).run ⟨sent, (chunks ++ [final]).flatMap encode ++ rest⟩ =
        .done (repr ((chunks ++ [final]).foldl next state)) ⟨sent, rest⟩ := by
  intro chunks
  induction chunks with
  | nil =>
      intro state _ haccepts
      have hstop := hround state final sent rest haccepts.1
      rw [hfinal] at hstop
      simpa using body.loop_of_stop hstop
  | cons chunk chunks ih =>
      intro state hcontinue haccepts
      obtain ⟨haccept, haccepts⟩ := haccepts
      have hhead := hround state chunk sent ((chunks ++ [final]).flatMap encode ++ rest) haccept
      rw [hcontinue chunk (by simp)] at hhead
      have htail := ih (next state chunk)
        (fun later hlater => hcontinue later (List.mem_cons_of_mem _ hlater)) haccepts
      rw [List.cons_append, List.flatMap_cons, List.append_assoc, body.loop_of_continue hhead,
        htail, List.foldl_cons]

end Body

/-! ### Sessions

A session handles requests one after the other on one line and logs every exchange.
-/

structure Exchange (ρ β γ : Type) where
  request : ρ
  response : γ
  before : Line β
  after : Line β

section

variable {ρ : Type} (handle : ρ → Comp ε β γ)

def session : List ρ → Line β → Outcome ε β (List (Exchange ρ β γ))
  | [], line => .done [] line
  | request :: requests, line =>
      ((handle request).run line).andThen fun response line' =>
        (session requests line').andThen fun log final =>
          .done ({ request, response, before := line, after := line' } :: log) final

theorem session_cons_of_done {request : ρ} {requests : List ρ} {line line' final : Line β}
    {response : γ} {log : List (Exchange ρ β γ)}
    (hhandle : (handle request).run line = .done response line')
    (hsession : session handle requests line' = .done log final) :
    session handle (request :: requests) line =
      .done ({ request, response, before := line, after := line' } :: log) final := by
  rw [session, hhandle, Outcome.andThen, hsession, Outcome.andThen]

theorem line_session_cons_of_done {request : ρ} {requests : List ρ} {line line' : Line β}
    {response : γ} (hhandle : (handle request).run line = .done response line') :
    (session handle (request :: requests) line).line = (session handle requests line').line := by
  rw [session, hhandle, Outcome.andThen]
  cases session handle requests line' <;> rfl

theorem session_cons_done {request : ρ} {requests : List ρ} {line final : Line β}
    {log : List (Exchange ρ β γ)}
    (hsession : session handle (request :: requests) line = .done log final) :
    ∃ response line' rest, (handle request).run line = .done response line' ∧
      session handle requests line' = .done rest final ∧
      log = { request, response, before := line, after := line' } :: rest := by
  rw [session] at hsession
  cases hhandle : (handle request).run line with
  | done response line' =>
      rw [hhandle, Outcome.andThen] at hsession
      cases hrest : session handle requests line' with
      | done rest final' =>
          rw [hrest, Outcome.andThen] at hsession
          cases hsession
          exact ⟨response, line', rest, rfl, hrest, rfl⟩
      | blocked line'' =>
          rw [hrest] at hsession
          cases hsession
      | panicked reason line'' =>
          rw [hrest] at hsession
          cases hsession
  | blocked line' =>
      rw [hhandle] at hsession
      cases hsession
  | panicked reason line' =>
      rw [hhandle] at hsession
      cases hsession

/-- **The session rule.** Where every request is handled from every line the invariant allows, a
session of any length ends, and every exchange of it meets what holds of each. -/
theorem session_of_invariant {invariant : Line β → Prop} {spec : Exchange ρ β γ → Prop}
    (hstep : ∀ request line, invariant line → ∃ response line',
      (handle request).run line = .done response line' ∧ invariant line' ∧
        spec { request, response, before := line, after := line' }) :
    ∀ (requests : List ρ) (line : Line β), invariant line → ∃ log final,
      session handle requests line = .done log final ∧ invariant final ∧
        log.map Exchange.request = requests ∧ ∀ exchange ∈ log, spec exchange := by
  intro requests
  induction requests with
  | nil =>
      intro line hinvariant
      refine ⟨[], line, rfl, hinvariant, rfl, ?_⟩
      intro exchange hexchange
      cases hexchange
  | cons request requests ih =>
      intro line hinvariant
      obtain ⟨response, line', hhandle, hinvariant', hspec⟩ := hstep request line hinvariant
      obtain ⟨log, final, hsession, hfinal, hrequests, hlog⟩ := ih line' hinvariant'
      refine ⟨_, final, session_cons_of_done handle hhandle hsession, hfinal, ?_, ?_⟩
      · rw [List.map_cons, hrequests]
      · intro exchange hexchange
        rcases List.mem_cons.mp hexchange with hhead | htail
        · exact hhead ▸ hspec
        · exact hlog exchange htail

/-- What holds after the first request and is preserved by the rest holds after a session. -/
theorem sent_session_cons {invariant : List (List β) → Prop} {request : ρ} {requests : List ρ}
    {line : Line β} (hfirst : invariant ((handle request).run line).line.sent)
    (hrest : ∀ line', invariant line'.sent →
      invariant (session handle requests line').line.sent) :
    invariant (session handle (request :: requests) line).line.sent := by
  cases hrun : (handle request).run line with
  | done response line' =>
      rw [hrun] at hfirst
      rw [line_session_cons_of_done handle hrun]
      exact hrest line' hfirst
  | blocked line' =>
      rw [hrun] at hfirst
      rw [session, hrun]
      exact hfirst
  | panicked reason line' =>
      rw [hrun] at hfirst
      rw [session, hrun]
      exact hfirst

/-- What every request's handling preserves, a session preserves, whichever way it ends. -/
theorem preserves_session {invariant : List (List β) → Prop}
    (hhandle : ∀ request, Comp.Preserves invariant (handle request)) :
    ∀ (requests : List ρ) (line : Line β), invariant line.sent →
      invariant (session handle requests line).line.sent := by
  intro requests
  induction requests with
  | nil =>
      intro line hline
      exact hline
  | cons request requests ih =>
      intro line hline
      exact sent_session_cons handle (hhandle request line hline) ih

end

end Serial
