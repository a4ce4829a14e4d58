import OrionO6.Library.SerialRefinement

/-!
# Transcripts of a serial line

A computation on a lower line is a sequence of events: each sends one frame and takes the symbols
that answer it. A computation is transcribed when its run can be read as such a sequence, all of it,
and the upper computation ends as it did on a line that begins with what the events gathered. What
is asked of every transcript is closed under concatenation, so it carries over from the parts to the
whole, and from the requests to a session.
-/

namespace Serial

variable {ε β γ η α δ : Type}

/-! ### Building computations side by side -/

/-- A relation between the computations on two lines that every way of building them keeps. -/
structure Congruence (rel : (α : Type) → Comp ε β α → Comp ε γ α → Prop) : Prop where
  pure : ∀ {α : Type} (value : α), rel α (pure value) (pure value)
  panic : ∀ {α : Type} (reason : ε), rel α (Comp.panic reason) (Comp.panic reason)
  bind : ∀ {α δ : Type} {lower : Comp ε β α} {upper : Comp ε γ α} {next : α → Comp ε β δ}
    {next' : α → Comp ε γ δ}, rel α lower upper → (∀ value, rel δ (next value) (next' value)) →
      rel δ (lower >>= next) (upper >>= next')
  loop : ∀ {σ : Type} {lower : Body ε β σ} {upper : Body ε γ σ},
    (∀ state, rel (σ × Bool) (lower.round state) (upper.round state)) →
      ∀ state, rel σ (lower.loop state) (upper.loop state)

theorem Congruence.orPanic {rel : (α : Type) → Comp ε β α → Comp ε γ α → Prop}
    (hrel : Congruence rel) (reason : ε) (value : Option α) :
    rel α (Comp.orPanic reason value) (Comp.orPanic reason value) := by
  cases value with
  | none => exact hrel.panic reason
  | some value => exact hrel.pure value

/-! ### Events -/

/-- What an event sends and takes on the lower line, whether it still waits for what it takes, and
what it amounts to on the upper line. -/
structure Reading (η β γ : Type) where
  frame : η → List β
  answer : η → List β
  waits : η → Prop
  received : η → List γ
  transmitted : η → List γ

/-- The events are all that happened between two states of a line, in this order. An event waits
only where the line has nothing left. -/
inductive Reading.Accounts (reading : Reading η β γ) : List η → Line β → Line β → Prop where
  | nil (line : Line β) : reading.Accounts [] line line
  | cons {event : η} {events : List η} {sent : List (List β)} {rest : List β} {line' : Line β}
      (hwaits : reading.waits event → rest = [])
      (hrest : reading.Accounts events ⟨sent ++ [reading.frame event], rest⟩ line') :
      reading.Accounts (event :: events) ⟨sent, reading.answer event ++ rest⟩ line'

namespace Reading.Accounts

variable {reading : Reading η β γ}

theorem append {first second : List η} {line middle line' : Line β}
    (hfirst : reading.Accounts first line middle) (hsecond : reading.Accounts second middle line') :
    reading.Accounts (first ++ second) line line' := by
  induction hfirst with
  | nil line => exact hsecond
  | cons hwaits _ ih => exact .cons hwaits (ih hsecond)

theorem sent_eq {events : List η} {line line' : Line β}
    (haccounts : reading.Accounts events line line') :
    line'.sent = line.sent ++ events.map reading.frame := by
  induction haccounts with
  | nil line => exact (List.append_nil _).symm
  | cons _ _ ih => rw [ih, List.map_cons, List.append_assoc, List.singleton_append]

/-- Where what an event sends and takes tells which one it is, the two states of a line determine the
events between them. -/
theorem unique (hlegible : ∀ {event event' rest rest'}, reading.frame event = reading.frame event' →
      reading.answer event ++ rest = reading.answer event' ++ rest' →
      (reading.waits event → rest = []) → (reading.waits event' → rest' = []) → event = event')
    {events events' : List η} {line line' : Line β} (hevents : reading.Accounts events line line')
    (hevents' : reading.Accounts events' line line') : events = events' := by
  have hframes : events.map reading.frame = events'.map reading.frame :=
    List.append_cancel_left (hevents.sent_eq.symm.trans hevents'.sent_eq)
  generalize hstart : line = start at hevents'
  induction hevents generalizing events' start with
  | nil line => exact (List.map_eq_nil_iff.mp hframes.symm).symm
  | @cons event events sent rest line' hwaits hrest ih =>
      cases hevents' with
      | nil => cases hframes
      | @cons event' events' sent' rest' _ hwaits' hrest' =>
          obtain ⟨hframe, hlater⟩ := List.cons.inj hframes
          obtain ⟨rfl, hpending⟩ := Line.mk.inj hstart
          obtain rfl := hlegible hframe hpending hwaits hwaits'
          obtain rfl := List.append_cancel_left hpending
          rw [ih hlater _ rfl hrest']

end Reading.Accounts

/-- A condition on transcripts that holds of a concatenation if it holds of the parts. -/
structure Concatenable (good : List η → Prop) : Prop where
  nil : good []
  append : ∀ {first second}, good first → good second → good (first ++ second)

/-- The events are a transcript of a run that has ended in an outcome. -/
structure Reading.Transcript (reading : Reading η β γ) (good : List η → Prop) (upper : Comp ε γ α)
    (events : List η) (line : Line β) (outcome : Outcome ε β α) : Prop where
  accounts : reading.Accounts events line outcome.line
  good : good events
  mirrors : ∃ frames, frames.flatten = events.flatMap reading.transmitted ∧
    Mirrors upper (events.flatMap reading.received) frames outcome

def Reading.Transcribes (reading : Reading η β γ) (good : List η → Prop) (lower : Comp ε β α)
    (upper : Comp ε γ α) : Prop :=
  ∀ line, ∃ events, reading.Transcript good upper events line (lower.run line)

namespace Reading

variable {reading : Reading η β γ} {good : List η → Prop}

/-- A run that has come to wait is transcribed by its events, whatever the upper one does. -/
theorem transcript_of_blocked {upper : Comp ε γ α} {events : List η} {line line' : Line β}
    {outcome : Outcome ε β α} (houtcome : outcome = .blocked line')
    (haccounts : reading.Accounts events line line') (hgood : good events) :
    reading.Transcript good upper events line outcome := by
  subst houtcome
  refine ⟨haccounts, hgood, [events.flatMap reading.transmitted], ?_, trivial⟩
  rw [List.flatten_singleton]

/-- A transcript goes on as that of the computation with which the run goes on. -/
theorem Transcript.prepend (hgood : Concatenable good) {upper upper' : Comp ε γ α}
    {first second : List η} {line middle : Line β} {outcome : Outcome ε β α}
    {frames : List (List γ)} (haccounts : reading.Accounts first line middle)
    (hfirst : good first) (hframes : frames.flatten = first.flatMap reading.transmitted)
    (hupper : ∀ sent rest, upper.run ⟨sent, first.flatMap reading.received ++ rest⟩ =
      upper'.run ⟨sent ++ frames, rest⟩)
    (hsecond : reading.Transcript good upper' second middle outcome) :
    reading.Transcript good upper (first ++ second) line outcome := by
  obtain ⟨haccounts', hgood', frames', hframes', hmirrors⟩ := hsecond
  refine ⟨haccounts.append haccounts', hgood.append hfirst hgood', frames ++ frames', ?_, ?_⟩
  · rw [List.flatten_append, hframes, hframes', List.flatMap_append]
  · rw [List.flatMap_append]
    exact hmirrors.prepend hupper

namespace Transcribes

variable (hgood : Concatenable good)

include hgood

theorem pure (value : α) :
    reading.Transcribes good (pure value : Comp ε β α) (pure value : Comp ε γ α) := by
  intro line
  refine ⟨[], Accounts.nil line, hgood.nil, [], rfl, fun sent rest => ?_⟩
  rw [List.append_nil]
  rfl

theorem panic (reason : ε) :
    reading.Transcribes good (Comp.panic reason : Comp ε β α) (Comp.panic reason : Comp ε γ α) := by
  intro line
  refine ⟨[], Accounts.nil line, hgood.nil, [], rfl, fun sent rest => ?_⟩
  rw [List.append_nil]
  rfl

theorem bind {lower : Comp ε β α} {upper : Comp ε γ α} {next : α → Comp ε β δ}
    {next' : α → Comp ε γ δ} (hfirst : reading.Transcribes good lower upper)
    (hnext : ∀ value, reading.Transcribes good (next value) (next' value)) :
    reading.Transcribes good (lower >>= next) (upper >>= next') := by
  intro line
  obtain ⟨first, haccounts, hgoodFirst, frames, hframes, hmirrors⟩ := hfirst line
  cases hrun : lower.run line with
  | done value middle =>
      rw [hrun] at haccounts hmirrors
      obtain ⟨second, hsecond⟩ := hnext value middle
      rw [Comp.run_bind_of_done hrun]
      exact ⟨_, hsecond.prepend hgood haccounts hgoodFirst hframes
        fun sent rest => Comp.run_bind_of_done (hmirrors sent rest)⟩
  | blocked middle =>
      rw [hrun] at haccounts
      exact ⟨first, transcript_of_blocked (Comp.run_bind_of_blocked hrun) haccounts hgoodFirst⟩
  | panicked reason middle =>
      rw [hrun] at haccounts hmirrors
      rw [Comp.run_bind_of_panicked hrun]
      exact ⟨first, haccounts, hgoodFirst, frames, hframes,
        fun sent rest => Comp.run_bind_of_panicked (hmirrors sent rest)⟩

/-- A loop is transcribed when every round is. -/
theorem loop {σ : Type} {lower : Body ε β σ} {upper : Body ε γ σ}
    (hround : ∀ state, reading.Transcribes good (lower.round state) (upper.round state))
    (state : σ) : reading.Transcribes good (lower.loop state) (upper.loop state) := by
  intro line
  induction state, line using Body.loopFrom.induct lower with
  | case1 state line state' line' hrun =>
      obtain ⟨events, haccounts, hgoodEvents, frames, hframes, hmirrors⟩ := hround state line
      rw [hrun] at haccounts hmirrors
      rw [lower.loop_of_stop hrun]
      exact ⟨events, haccounts, hgoodEvents, frames, hframes,
        fun sent rest => upper.loop_of_stop (hmirrors sent rest)⟩
  | case2 state line state' line' hrun ih =>
      obtain ⟨first, haccounts, hgoodFirst, frames, hframes, hmirrors⟩ := hround state line
      rw [hrun] at haccounts hmirrors
      obtain ⟨second, hsecond⟩ := ih
      rw [lower.loop_of_continue hrun]
      exact ⟨_, hsecond.prepend hgood haccounts hgoodFirst hframes
        fun sent rest => upper.loop_of_continue (hmirrors sent rest)⟩
  | case3 state line line' hrun =>
      obtain ⟨events, haccounts, hgoodEvents, -⟩ := hround state line
      rw [hrun] at haccounts
      exact ⟨events, transcript_of_blocked (lower.loop_of_blocked hrun) haccounts hgoodEvents⟩
  | case4 state line reason line' hrun =>
      obtain ⟨events, haccounts, hgoodEvents, frames, hframes, hmirrors⟩ := hround state line
      rw [hrun] at haccounts hmirrors
      rw [lower.loop_of_panicked hrun]
      exact ⟨events, haccounts, hgoodEvents, frames, hframes,
        fun sent rest => upper.loop_of_panicked (hmirrors sent rest)⟩

theorem congruence :
    Congruence fun α => (reading.Transcribes good : Comp ε β α → Comp ε γ α → Prop) where
  pure := pure hgood
  panic := panic hgood
  bind := bind hgood
  loop := loop hgood

end Transcribes

end Reading

/-! ### Sessions -/

section

variable {ρ : Type}

/-- A session as one computation, which returns the requests with their responses. -/
def serveAll (handle : ρ → Comp ε β α) : List ρ → Comp ε β (List (ρ × α))
  | [] => pure []
  | request :: requests => do
      let response ← handle request
      let rest ← serveAll handle requests
      pure ((request, response) :: rest)

def Exchange.served (exchange : Exchange ρ β α) : ρ × α := (exchange.request, exchange.response)

def Outcome.map (result : α → δ) : Outcome ε β α → Outcome ε β δ
  | .done value line => .done (result value) line
  | .blocked line => .blocked line
  | .panicked reason line => .panicked reason line

theorem Outcome.line_map (result : α → δ) (outcome : Outcome ε β α) :
    (outcome.map result).line = outcome.line := by
  cases outcome <;> rfl

theorem run_serveAll (handle : ρ → Comp ε β α) (requests : List ρ) (line : Line β) :
    (serveAll handle requests).run line =
      (session handle requests line).map (List.map Exchange.served) := by
  induction requests generalizing line with
  | nil => rfl
  | cons request requests ih =>
      rw [serveAll, session]
      cases hrun : (handle request).run line with
      | done response middle =>
          rw [Comp.run_bind_of_done hrun, Comp.run_bind, ih, Outcome.andThen]
          cases session handle requests middle <;> rfl
      | blocked middle => exact Comp.run_bind_of_blocked hrun
      | panicked reason middle => exact Comp.run_bind_of_panicked hrun

theorem exists_session_of_serveAll_done {handle : ρ → Comp ε β α} {requests : List ρ}
    {line final : Line β} {served : List (ρ × α)}
    (hdone : (serveAll handle requests).run line = .done served final) :
    ∃ log, session handle requests line = .done log final ∧ log.map Exchange.served = served := by
  rw [run_serveAll] at hdone
  cases hsession : session handle requests line with
  | done log middle =>
      rw [hsession] at hdone
      obtain ⟨hserved, rfl⟩ := Outcome.done.inj hdone
      exact ⟨log, rfl, hserved⟩
  | blocked middle =>
      rw [hsession] at hdone
      cases hdone
  | panicked reason middle =>
      rw [hsession] at hdone
      cases hdone

theorem Congruence.serveAll {rel : (α : Type) → Comp ε β α → Comp ε γ α → Prop}
    (hrel : Congruence rel) {lower : ρ → Comp ε β α} {upper : ρ → Comp ε γ α}
    (hhandle : ∀ request, rel α (lower request) (upper request)) (requests : List ρ) :
    rel (List (ρ × α)) (serveAll lower requests) (serveAll upper requests) := by
  induction requests with
  | nil => exact hrel.pure []
  | cons request requests ih =>
      exact hrel.bind (hhandle request) fun response => hrel.bind ih fun rest => hrel.pure _

end

end Serial
