import OrionO6.Library.Transcript

/-!
# Going on after a wait

A run that waits is not over: with more symbols on its line it goes on where it has stopped. They
come from a device with states of its own, which takes part in the events and holds symbols for the
upper line. Whatever has happened so far, if the upper computation would end on the symbols gathered
and held, then the device can go on so that the lower one ends.
-/

namespace Serial

variable {ε β γ η ω α δ σ : Type}

/-- What the device holds for the upper line in a state, and which events lead to which state. -/
structure Device (ω η γ : Type) where
  holds : ω → List γ
  goes : ω → List η → ω → Prop
  goes_nil : ∀ world, goes world [] world
  goes_append : ∀ {world middle final : ω} {first second : List η}, goes world first middle →
    goes middle second final → goes world (first ++ second) final

/-- Without events that wait, what is on the line behind the answers does not matter. -/
theorem Reading.Accounts.extend {reading : Reading η β γ} {events : List η} {line line' : Line β}
    (haccounts : reading.Accounts events line line')
    (hanswered : ∀ event ∈ events, ¬ reading.waits event) (more : List β) :
    reading.Accounts events ⟨line.sent, line.pending ++ more⟩
      ⟨line'.sent, line'.pending ++ more⟩ := by
  induction haccounts with
  | nil line => exact .nil _
  | cons hwaits _ ih =>
      obtain ⟨hfirst, hlater⟩ := List.forall_mem_cons.mp hanswered
      rw [List.append_assoc]
      exact .cons (fun hwait => absurd hwait hfirst) (ih hlater)

/-- A loop as a round and what comes after it. -/
theorem Body.loop_eq (body : Body ε β σ) (state : σ) :
    body.loop state = body.round state >>= fun
      | (state', true) => pure state'
      | (state', false) => body.loop state' := by
  have hrun : (body.loop state).run = (body.round state >>= fun
      | (state', true) => pure state'
      | (state', false) => body.loop state').run := by
    funext line
    rw [Comp.run_bind]
    cases hround : (body.round state).run line with
    | done result line' =>
        obtain ⟨state', _ | _⟩ := result
        · exact body.loop_of_continue hround
        · exact body.loop_of_stop hround
    | blocked line' => exact body.loop_of_blocked hround
    | panicked reason line' => exact body.loop_of_panicked hround
  exact congrArg Comp.mk hrun

namespace Reading

variable (reading : Reading η β γ) (device : Device ω η γ)

/-- A run that has ended, with its events: the upper computation ends on what these have gathered,
and neither sees what comes behind. -/
structure Ends (lower : Comp ε β α) (upper : Comp ε γ α) (events : List η) (line : Line β)
    (value : α) (line' : Line β) : Prop where
  answered : ∀ event ∈ events, ¬ reading.waits event
  accounts : reading.Accounts events line line'
  upper_run : ∀ sent rest, ∃ sent',
    upper.run ⟨sent, events.flatMap reading.received ++ rest⟩ = .done value ⟨sent', rest⟩
  run : ∀ more, lower.run ⟨line.sent, line.pending ++ more⟩ =
    .done value ⟨line'.sent, line'.pending ++ more⟩

/-- With more on the line, a run that begins with the events `before` ends after some others, to
which the device goes along. -/
structure Completes (lower : Comp ε β α) (before : List η) (line : Line β) (world : ω) (value : α)
    (more : List β) (events : List η) (sent : List (List β)) (world' : ω) : Prop where
  goes : device.goes world events world'
  run : lower.run ⟨line.sent, line.pending ++ more⟩ = .done value ⟨sent, []⟩
  answered : ∀ event ∈ before ++ events, ¬ reading.waits event
  accounts : reading.Accounts (before ++ events) ⟨line.sent, line.pending ++ more⟩ ⟨sent, []⟩

/-- A run can be completed from every state of the device on which the upper one ends. -/
def Finishes (lower : Comp ε β α) (upper : Comp ε γ α) (before : List η) (line : Line β) : Prop :=
  ∀ world sent sent' value rest,
    upper.run ⟨sent, before.flatMap reading.received ++ device.holds world⟩ =
      .done value ⟨sent', rest⟩ →
    ∃ more events final world', device.holds world' = rest ∧
      reading.Completes device lower before line world value more events final world'

/-- Every run can be completed: one that has not begun, and one that waits. -/
structure Resumes (lower : Comp ε β α) (upper : Comp ε γ α) : Prop where
  start : ∀ sent, reading.Finishes device lower upper [] ⟨sent, []⟩
  waiting : ∀ line line', lower.run line = .blocked line' → ∃ before waiting,
    reading.Accounts (before ++ waiting) line line' ∧ (∀ event ∈ waiting, reading.waits event) ∧
      reading.Finishes device lower upper before line
  ended : ∀ line value line', lower.run line = .done value line' → ∃ events,
    reading.Ends lower upper events line value line'

variable {reading device} {lower : Comp ε β α} {upper : Comp ε γ α} {next : α → Comp ε β δ}
  {next' : α → Comp ε γ δ} {line line' middle : Line β} {before events events' : List η}
  {world world' world'' : ω} {value : α} {result : δ}

theorem Ends.pure (value : α) (line : Line β) :
    reading.Ends (pure value : Comp ε β α) (pure value : Comp ε γ α) [] line value line where
  answered := List.forall_mem_nil _
  accounts := .nil line
  upper_run sent _ := ⟨sent, rfl⟩
  run _ := rfl

theorem Ends.bind (hfirst : reading.Ends lower upper events line value middle)
    (hsecond : reading.Ends (next value) (next' value) events' middle result line') :
    reading.Ends (lower >>= next) (upper >>= next') (events ++ events') line result line' where
  answered := List.forall_mem_append.mpr ⟨hfirst.answered, hsecond.answered⟩
  accounts := hfirst.accounts.append hsecond.accounts
  upper_run sent rest := by
    rw [List.flatMap_append, List.append_assoc]
    obtain ⟨sent', hupper⟩ := hfirst.upper_run sent (events'.flatMap reading.received ++ rest)
    rw [Comp.run_bind_of_done hupper]
    exact hsecond.upper_run sent' rest
  run more := by
    rw [Comp.run_bind_of_done (hfirst.run more)]
    exact hsecond.run more

theorem Completes.pure (value : α) (sent : List (List β)) (world : ω) :
    reading.Completes device (pure value : Comp ε β α) [] ⟨sent, []⟩ world value [] [] sent
      world where
  goes := device.goes_nil world
  run := rfl
  answered := List.forall_mem_nil _
  accounts := .nil _

/-- Once a run has been completed, what comes after it can be begun and completed. -/
theorem Completes.bind {more more' : List β} {sent sent' : List (List β)}
    (hfirst : reading.Completes device lower before line world value more events sent world')
    (hlower : ∀ rest, lower.run ⟨line.sent, line.pending ++ more ++ rest⟩ = .done value ⟨sent, rest⟩)
    (hsecond : reading.Completes device (next value) [] ⟨sent, []⟩ world' result more' events' sent'
      world'') :
    reading.Completes device (lower >>= next) before line world result (more ++ more')
      (events ++ events') sent' world'' where
  goes := device.goes_append hfirst.goes hsecond.goes
  run := by
    rw [← List.append_assoc, Comp.run_bind_of_done (hlower more')]
    exact hsecond.run
  answered := by
    rw [← List.append_assoc, List.forall_mem_append]
    exact ⟨hfirst.answered, hsecond.answered⟩
  accounts := by
    rw [← List.append_assoc, ← List.append_assoc]
    exact (hfirst.accounts.extend hfirst.answered more').append hsecond.accounts

/-- What has ended can go before what is still to be completed. -/
theorem Completes.after {more : List β} {sent : List (List β)}
    (hfirst : reading.Ends lower upper events line value middle)
    (hsecond : reading.Completes device (next value) before middle world result more events' sent
      world') :
    reading.Completes device (lower >>= next) (events ++ before) line world result more events' sent
      world' where
  goes := hsecond.goes
  run := by
    rw [Comp.run_bind_of_done (hfirst.run more)]
    exact hsecond.run
  answered := by
    rw [List.append_assoc, List.forall_mem_append]
    exact ⟨hfirst.answered, hsecond.answered⟩
  accounts := by
    rw [List.append_assoc]
    exact (hfirst.accounts.extend hfirst.answered more).append hsecond.accounts

theorem Finishes.after (hfirst : reading.Ends lower upper events line value middle)
    (hsecond : reading.Finishes device (next value) (next' value) before middle) :
    reading.Finishes device (lower >>= next) (upper >>= next') (events ++ before) line := by
  intro world sent sent' result rest hupper
  rw [List.flatMap_append, List.append_assoc] at hupper
  obtain ⟨sent₁, hupper₁⟩ :=
    hfirst.upper_run sent (before.flatMap reading.received ++ device.holds world)
  rw [Comp.run_bind_of_done hupper₁] at hupper
  obtain ⟨more, later, final, world', hholds, hcompletes⟩ := hsecond _ _ _ _ _ hupper
  exact ⟨more, later, final, world', hholds, hcompletes.after hfirst⟩

namespace Resumes

/-- A completed run goes on with whatever else is on the line. -/
theorem run_of_completes (hresumes : reading.Resumes device lower upper) {more : List β}
    {sent : List (List β)}
    (hcompletes : reading.Completes device lower before line world value more events sent world')
    (rest : List β) :
    lower.run ⟨line.sent, line.pending ++ more ++ rest⟩ = .done value ⟨sent, rest⟩ := by
  obtain ⟨_, hends⟩ := hresumes.ended _ _ _ hcompletes.run
  exact hends.run rest

/-- What the upper computation sends plays no part. -/
theorem of_upper {upper' : Comp ε γ α} (hresumes : reading.Resumes device lower upper)
    (hupper : ∀ sent pending value rest,
      (∃ sent', upper.run ⟨sent, pending⟩ = .done value ⟨sent', rest⟩) ↔
        ∃ sent', upper'.run ⟨sent, pending⟩ = .done value ⟨sent', rest⟩) :
    reading.Resumes device lower upper' := by
  have hfinishes {before : List η} {line : Line β}
      (hfinishes : reading.Finishes device lower upper before line) :
      reading.Finishes device lower upper' before line := by
    intro world sent sent' value rest hdone
    obtain ⟨_, hdone'⟩ := (hupper _ _ _ _).mpr ⟨sent', hdone⟩
    exact hfinishes _ _ _ _ _ hdone'
  constructor
  · intro sent
    exact hfinishes (hresumes.start sent)
  · intro line line' hblocked
    obtain ⟨before, waiting, haccounts, hwaiting, hlater⟩ := hresumes.waiting _ _ hblocked
    exact ⟨before, waiting, haccounts, hwaiting, hfinishes hlater⟩
  · intro line value line' hdone
    obtain ⟨events, hends⟩ := hresumes.ended _ _ _ hdone
    exact ⟨events, hends.answered, hends.accounts,
      fun sent rest => (hupper _ _ _ _).mp (hends.upper_run sent rest), hends.run⟩

theorem finishes_bind (hfirst : reading.Resumes device lower upper)
    (hbefore : reading.Finishes device lower upper before line)
    (hnext : ∀ value sent, reading.Finishes device (next value) (next' value) [] ⟨sent, []⟩) :
    reading.Finishes device (lower >>= next) (upper >>= next') before line := by
  intro world sent sent' result rest hupper
  obtain ⟨value, ⟨sent₁, rest₁⟩, hupper₁, hupper₂⟩ := Comp.run_bind_eq_done_iff.mp hupper
  obtain ⟨more, events, final, world₁, rfl, hcompletes⟩ := hbefore _ _ _ _ _ hupper₁
  obtain ⟨more', events', final', world₂, hholds, hcompletes'⟩ :=
    hnext value final world₁ _ _ _ _ hupper₂
  exact ⟨_, _, final', world₂, hholds,
    hcompletes.bind (hfirst.run_of_completes hcompletes) hcompletes'⟩

theorem pure (value : α) :
    reading.Resumes device (pure value : Comp ε β α) (pure value : Comp ε γ α) where
  start := by
    intro sent world upperSent upperSent' result rest hupper
    cases hupper
    exact ⟨[], [], sent, world, rfl, .pure value sent world⟩
  waiting := by
    intro line line' hblocked
    cases hblocked
  ended := by
    intro line result line' hdone
    cases hdone
    exact ⟨[], .pure value line⟩

theorem panic (reason : ε) :
    reading.Resumes device (Comp.panic reason : Comp ε β α) (Comp.panic reason) where
  start := by
    intro sent world upperSent upperSent' result rest hupper
    cases hupper
  waiting := by
    intro line line' hblocked
    cases hblocked
  ended := by
    intro line result line' hdone
    cases hdone

theorem bind (hfirst : reading.Resumes device lower upper)
    (hnext : ∀ value, reading.Resumes device (next value) (next' value)) :
    reading.Resumes device (lower >>= next) (upper >>= next') where
  start sent := hfirst.finishes_bind (hfirst.start sent) fun value => (hnext value).start
  waiting := by
    intro line line' hblocked
    cases hrun : lower.run line with
    | done value middle =>
        rw [Comp.run_bind_of_done hrun] at hblocked
        obtain ⟨events, hends⟩ := hfirst.ended _ _ _ hrun
        obtain ⟨before, waiting, haccounts, hwaiting, hfinishes⟩ :=
          (hnext value).waiting _ _ hblocked
        refine ⟨events ++ before, waiting, ?_, hwaiting, hfinishes.after hends⟩
        rw [List.append_assoc]
        exact hends.accounts.append haccounts
    | blocked middle =>
        rw [Comp.run_bind_of_blocked hrun] at hblocked
        obtain rfl := Outcome.blocked.inj hblocked
        obtain ⟨before, waiting, haccounts, hwaiting, hfinishes⟩ := hfirst.waiting _ _ hrun
        exact ⟨before, waiting, haccounts, hwaiting,
          hfirst.finishes_bind hfinishes fun value => (hnext value).start⟩
    | panicked reason middle =>
        rw [Comp.run_bind_of_panicked hrun] at hblocked
        cases hblocked
  ended := by
    intro line result line' hdone
    obtain ⟨value, middle, hrun, hrest⟩ := Comp.run_bind_eq_done_iff.mp hdone
    obtain ⟨events, hends⟩ := hfirst.ended _ _ _ hrun
    obtain ⟨events', hends'⟩ := (hnext value).ended _ _ _ hrest
    exact ⟨events ++ events', hends.bind hends'⟩

section

variable {lower : Body ε β σ} {upper : Body ε γ σ}
  (hround : ∀ state, reading.Resumes device (lower.round state) (upper.round state))

include hround

/-- A loop that has not begun is completed round by round, as many as the upper one makes. -/
theorem start_loop (state : σ) (sent : List (List β)) :
    reading.Finishes device (lower.loop state) (upper.loop state) [] ⟨sent, []⟩ := by
  intro world upperSent upperSent' value rest hupper
  generalize hline : (⟨upperSent, [].flatMap reading.received ++ device.holds world⟩ : Line γ) =
    line at hupper
  induction state, line using Body.loopFrom.induct upper generalizing world upperSent sent with
  | case1 state line state' line' hrun =>
      rw [upper.loop_of_stop hrun] at hupper
      cases hupper
      rw [← hline] at hrun
      obtain ⟨more, events, final, world', hholds, hcompletes⟩ :=
        (hround state).start sent _ _ _ _ _ hrun
      rw [lower.loop_eq]
      exact ⟨_, _, final, world', hholds, hcompletes.bind
        ((hround state).run_of_completes hcompletes) (.pure value final world')⟩
  | case2 state line state' line' hrun ih =>
      rw [upper.loop_of_continue hrun] at hupper
      rw [← hline] at hrun
      obtain ⟨more, events, final, world', hholds, hcompletes⟩ :=
        (hround state).start sent _ _ _ _ _ hrun
      obtain ⟨more', events', final', world'', hholds', hcompletes'⟩ :=
        ih final world' line'.sent (congrArg (Line.mk line'.sent) hholds) hupper
      rw [lower.loop_eq]
      exact ⟨_, _, final', world'', hholds', hcompletes.bind
        ((hround state).run_of_completes hcompletes) hcompletes'⟩
  | case3 state line line' hrun =>
      rw [upper.loop_of_blocked hrun] at hupper
      cases hupper
  | case4 state line reason line' hrun =>
      rw [upper.loop_of_panicked hrun] at hupper
      cases hupper

theorem start_after (result : σ × Bool) (sent : List (List β)) :
    reading.Finishes device
      (match result with
        | (state', true) => Pure.pure state'
        | (state', false) => lower.loop state')
      (match result with
        | (state', true) => Pure.pure state'
        | (state', false) => upper.loop state') [] ⟨sent, []⟩ := by
  obtain ⟨state', _ | _⟩ := result
  · exact start_loop hround state' sent
  · exact (Resumes.pure state').start sent

theorem waiting_loop (state : σ) (line line' : Line β)
    (hblocked : (lower.loop state).run line = .blocked line') : ∃ before waiting,
      reading.Accounts (before ++ waiting) line line' ∧ (∀ event ∈ waiting, reading.waits event) ∧
        reading.Finishes device (lower.loop state) (upper.loop state) before line := by
  induction state, line using Body.loopFrom.induct lower with
  | case1 state line state' line' hrun =>
      rw [lower.loop_of_stop hrun] at hblocked
      cases hblocked
  | case2 state line state' middle hrun ih =>
      rw [lower.loop_of_continue hrun] at hblocked
      obtain ⟨events, hends⟩ := (hround state).ended _ _ _ hrun
      obtain ⟨before, waiting, haccounts, hwaiting, hfinishes⟩ := ih hblocked
      refine ⟨events ++ before, waiting, ?_, hwaiting, ?_⟩
      · rw [List.append_assoc]
        exact hends.accounts.append haccounts
      · rw [lower.loop_eq, upper.loop_eq]
        exact Finishes.after hends hfinishes
  | case3 state line middle hrun =>
      rw [lower.loop_of_blocked hrun] at hblocked
      obtain rfl := Outcome.blocked.inj hblocked
      obtain ⟨before, waiting, haccounts, hwaiting, hfinishes⟩ := (hround state).waiting _ _ hrun
      refine ⟨before, waiting, haccounts, hwaiting, ?_⟩
      rw [lower.loop_eq, upper.loop_eq]
      exact (hround state).finishes_bind hfinishes (start_after hround)
  | case4 state line reason middle hrun =>
      rw [lower.loop_of_panicked hrun] at hblocked
      cases hblocked

theorem ended_loop (state : σ) (line : Line β) (value : σ) (line' : Line β)
    (hdone : (lower.loop state).run line = .done value line') : ∃ events,
      reading.Ends (lower.loop state) (upper.loop state) events line value line' := by
  induction state, line using Body.loopFrom.induct lower with
  | case1 state line state' middle hrun =>
      rw [lower.loop_of_stop hrun] at hdone
      cases hdone
      obtain ⟨events, hends⟩ := (hround state).ended _ _ _ hrun
      refine ⟨events ++ [], ?_⟩
      rw [lower.loop_eq, upper.loop_eq]
      exact hends.bind (.pure value line')
  | case2 state line state' middle hrun ih =>
      rw [lower.loop_of_continue hrun] at hdone
      obtain ⟨events, hends⟩ := (hround state).ended _ _ _ hrun
      obtain ⟨events', hends'⟩ := ih hdone
      refine ⟨events ++ events', ?_⟩
      rw [lower.loop_eq, upper.loop_eq]
      exact hends.bind hends'
  | case3 state line middle hrun =>
      rw [lower.loop_of_blocked hrun] at hdone
      cases hdone
  | case4 state line reason middle hrun =>
      rw [lower.loop_of_panicked hrun] at hdone
      cases hdone

theorem loop (state : σ) : reading.Resumes device (lower.loop state) (upper.loop state) where
  start := start_loop hround state
  waiting := waiting_loop hround state
  ended := ended_loop hround state

end

/-- **Every way of building computations can be resumed.** -/
theorem congruence : Congruence fun α =>
    (reading.Resumes device : Comp ε β α → Comp ε γ α → Prop) where
  pure := pure
  panic := panic
  bind := bind
  loop := loop

end Resumes

end Reading

end Serial
