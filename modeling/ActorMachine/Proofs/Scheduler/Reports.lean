import ActorMachine.Proofs.Scheduler.Cleared

/-!
# Reports of breakpoints

Which instructions are executed in a step or in a run is read off the actor that has the turn, so it
is known which breakpoints are among them. The observers are told of these, once of each, and of no
other ones.

* `turns`, `stepTurns`, `runTurns`: the actors that execute an instruction, each of them as it is
  before that.
* `report?`: what is to be reported when the instruction is a breakpoint.
* `Reports`: of breakpoints, the observers were told these and no other ones.
* `reports_turn`, `reports_attend`, `reports_step`, `reports_run`: what is told is what is to be
  reported.
* `Cleared.forall₂_turns` and so on: where breakpoints are cleared, the same actors execute the same
  instructions.
-/

namespace ActorMachine

/-- A breakpoint is a breakpoint to everybody who writes it down. -/
theorem Observer.filter_entries (event : Event) (observers : List Observer) :
    (observers.flatMap (·.entries event)).filter (·.2.isBreakpoint) =
      if event.isBreakpoint then observers.flatMap (·.entries event) else [] := by
  have hevent : ∀ entry ∈ observers.flatMap (·.entries event), entry.2 = event := by
    intro entry hentry
    obtain ⟨o, -, ho⟩ := List.mem_flatMap.1 hentry
    rw [Observer.entries] at ho
    split at ho
    next => rw [List.mem_singleton.1 ho]
    next => cases ho
  split
  next hbreak =>
    refine List.filter_eq_self.2 fun entry hentry => ?_
    rw [hevent entry hentry, hbreak]
  next hother =>
    refine List.filter_eq_nil_iff.2 fun entry hentry => ?_
    rwa [hevent entry hentry]

/-- So it is to everybody who makes the monitor count it. -/
theorem Observer.count_occurrences (event : Event) (observers : List Observer) :
    (observers.flatMap (·.occurrences event)).count .breakpoint =
      if event.isBreakpoint then (observers.flatMap (·.occurrences event)).length else 0 := by
  have hkind : ∀ k ∈ observers.flatMap (·.occurrences event),
      k = .breakpoint ↔ event.isBreakpoint := by
    intro k hk
    obtain ⟨o, -, ho⟩ := List.mem_flatMap.1 hk
    rw [Observer.occurrences] at ho
    split at ho
    next => cases event <;> simp_all [Event.occurrence?, Event.isBreakpoint]
    next => cases ho
  split
  next hbreak => exact List.count_eq_length.2 fun k hk => ((hkind k hk).2 hbreak).symm
  next hother => exact List.count_eq_zero.2 fun hmem => hother ((hkind _ hmem).1 rfl)

namespace Scheduler

open Machine

variable {s s' t u : Scheduler} {p q : Actor} {budget : Nat} {events events' : List Event}

/-! ### Instructions that are executed -/

/-- The actors that execute an instruction while one is attended to: it is always the same one, as
it is before each instruction. -/
def turns : Nat → Scheduler → Actor → List Actor
  | 0, _, _ => []
  | budget + 1, s, p =>
    p :: match s.turn p with
      | (s, p, .resume) => turns budget s p
      | _ => []

/-- The actor that a step dispatches, and the scheduler that does so. -/
def dispatched? (s : Scheduler) : Option (Scheduler × Actor) :=
  match s.awake.ready with
  | [] => none
  | pid :: ready =>
    if s.awake.consult.1 then
      (s.awake.consult.2.actor? pid).map fun p =>
        ({ s.awake.consult.2 with
          ready, registry := s.awake.consult.2.registry.lend pid }, prepared p)
    else
      none

/-- The actors that execute an instruction in a step. -/
def stepTurns (budget : Nat) (s : Scheduler) : List Actor :=
  s.dispatched?.elim [] fun (t, p) => turns budget t p

/-- The actors that execute an instruction in a run. -/
def runTurns : Nat → Scheduler → List Actor
  | 0, _ => []
  | budget + 1, s =>
    stepTurns budget s ++
      match s.step budget with
      | some (.ran _, s) => runTurns budget s
      | some (.nothingReady, s) =>
        if s.live = 0 then
          []
        else
          s.nextDeadline?.elim [] fun deadline =>
            runTurns budget { s with clock := s.clock.sleepUntil deadline }
      | _ => []

/-- What is to be reported of an actor that executes an instruction, for that may be a
breakpoint. -/
def report? (p : Actor) : Option Event :=
  (breaksAt? p).map (.breakpoint p.pid)

theorem turns_succ (budget : Nat) (s : Scheduler) (p : Actor) :
    turns (budget + 1) s p = p ::
      match s.turn p with
      | (s, p, .resume) => turns budget s p
      | _ => [] := rfl

/-! ### Reports -/

/-- What logging observers write down of events. -/
def noted (s : Scheduler) (events : List Event) : List (ObserverId × Event) :=
  events.flatMap fun e => s.observers.flatMap (·.entries e)

/-- What the monitor is told of events. -/
def forwarded (s : Scheduler) (events : List Event) : List Occurrence :=
  events.flatMap fun e => s.observers.flatMap (·.occurrences e)

/-- Of breakpoints, the observers were told these and no other ones. -/
structure Reports (s : Scheduler) (events : List Event) (s' : Scheduler) : Prop where
  /-- The observers write down what they have written down before, -/
  noted : s'.noted = s.noted
  /-- and tell the monitor what they have told it before. -/
  forwarded : s'.forwarded = s.forwarded
  /-- The breakpoints were written down, one after the other, -/
  journal : s'.journal.toList.filter (·.2.isBreakpoint) =
    s.journal.toList.filter (·.2.isBreakpoint) ++ s.noted events
  /-- and counted. -/
  breaks : s'.monitor.read.1.breaks = s.monitor.read.1.breaks + (s.forwarded events).length

theorem Reports.trans (h : Reports s events t) (h' : Reports t events' u) :
    Reports s (events ++ events') u := by
  refine ⟨h'.noted.trans h.noted, h'.forwarded.trans h.forwarded, ?_, ?_⟩
  · rw [h'.journal, h.journal, h.noted, List.append_assoc]
    simp [Scheduler.noted]
  · rw [h'.breaks, h.breaks, h.forwarded, Nat.add_assoc]
    simp [Scheduler.forwarded]

/-- Nothing is reported when the observers are not concerned. -/
theorem SameWatch.reports (h : SameWatch s s') : Reports s [] s' := by
  refine ⟨?_, ?_, ?_, ?_⟩
  · funext events
    rw [noted, noted, h.observers]
  · funext events
    rw [forwarded, forwarded, h.observers]
  · rw [h.journal]
    exact (List.append_nil _).symm
  · rw [h.monitor]
    rfl

/-- Of all that is told, breakpoints are reported. -/
theorem reports_told (events : List Event) (s : Scheduler) :
    Reports s (events.filter Event.isBreakpoint) (s.told events) := by
  refine ⟨rfl, rfl, ?_, ?_⟩
  · have hnoted : (s.noted events).filter (·.2.isBreakpoint) =
        s.noted (events.filter Event.isBreakpoint) := by
      -- Event by event, what is noted of it is kept if it is a breakpoint and dropped otherwise.
      induction events with
      | nil => rfl
      | cons event events ih =>
        have hcons (events : List Event) : s.noted (event :: events) =
            s.observers.flatMap (·.entries event) ++ s.noted events := List.flatMap_cons
        rw [hcons, List.filter_append, ih, Observer.filter_entries, List.filter_cons]
        split
        next => exact (hcons _).symm
        next => rfl
    rw [told, Array.toList_append, List.filter_append, ← hnoted]
    rfl
  · have hforwarded : (s.forwarded events).count .breakpoint =
        (s.forwarded (events.filter Event.isBreakpoint)).length := by
      induction events with
      | nil => rfl
      | cons event events ih =>
        have hcons (events : List Event) : s.forwarded (event :: events) =
            s.observers.flatMap (·.occurrences event) ++ s.forwarded events := List.flatMap_cons
        rw [hcons, List.count_append, ih, Observer.count_occurrences, List.filter_cons]
        split
        next => rw [hcons, List.length_append]
        next => exact Nat.zero_add _
    rw [← hforwarded]
    exact of_read_told events s .breakpoint

theorem entries_asked (o : Observer) (event : Event) :
    (Observer.asked o).entries event = o.entries event := by
  obtain ⟨id, role⟩ := o
  cases role <;> rfl

theorem occurrences_asked (o : Observer) (event : Event) :
    (Observer.asked o).occurrences event = o.occurrences event := by
  obtain ⟨id, role⟩ := o
  cases role <;> rfl

/-- When the observers are asked for a dispatch, nothing is reported. -/
theorem reports_consult (s : Scheduler) : Reports s [] s.consult.2 := by
  have htold := reports_told [.consulted] s
  rw [consult_eq]
  refine ⟨?_, ?_, htold.journal, htold.breaks⟩
  · funext events
    simp only [noted, List.flatMap_map, entries_asked]
  · funext events
    simp only [forwarded, List.flatMap_map, occurrences_asked]

/-- Nor is anything when an actor is started. -/
theorem reports_after (callee : Payload) (args : List Payload) (s : Scheduler) :
    Reports s [] (after (spawnCallable callee args) s) := by
  obtain ⟨-, hsame⟩ := (deals_after callee args s).told
  have htold := reports_told ((starts callee args s).flatMap Happening.events) s
  have hnone :
      ((starts callee args s).flatMap Happening.events).filter Event.isBreakpoint = [] := by
    rw [starts]
    split
    next => rfl
    next => rfl
  rw [hnone] at htold
  exact htold.trans hsame.reports

theorem sameWatch_deliver (receiver : Pid) (payload : Payload) (s : Scheduler) :
    SameWatch s (s.deliver receiver payload) := by
  rw [Scheduler.deliver]
  split
  next => exact .refl s
  next p _ =>
    dsimp only
    cases Actor.deliver payload p with
    | error => exact ⟨rfl, rfl, rfl, rfl⟩
    | ok _ q =>
      dsimp only
      split
      next => exact (sameWatch_makeReady _ receiver).1.trans ⟨rfl, rfl, rfl, rfl⟩
      next => exact ⟨rfl, rfl, rfl, rfl⟩

/-- Nor when an actor has ended. -/
theorem reports_finish (pid : Pid) (reason : ExitReason) (s : Scheduler) :
    Reports s [] (s.finish pid reason) := by
  have htold := reports_told (closing pid reason) s
  have hnone : (closing pid reason).filter Event.isBreakpoint = [] := by
    cases reason <;> rfl
  rw [hnone] at htold
  exact htold.trans (sameWatch_finish pid reason s).reports

theorem sameWatch_collectModules (s : Scheduler) : SameWatch s s.collectModules.2 := by
  obtain ⟨loader, hcollect⟩ := collectModules_spec s
  rw [hcollect]
  exact ⟨rfl, rfl, rfl, rfl⟩

/-! ### Turns, steps and runs -/

/-- In a turn, a breakpoint is reported if the actor executes one. -/
theorem reports_turn (s : Scheduler) (p : Actor) : Reports s (report? p).toList (s.turn p).1 := by
  have htick : SameWatch s { s with clock := s.clock.tick } := ⟨rfl, rfl, rfl, rfl⟩
  have hquiet : ∀ {t : Scheduler}, SameWatch { s with clock := s.clock.tick } t → Reports s [] t :=
    fun h => (h.trans htick).reports
  -- Only a breakpoint at the next instruction can be the outcome that is reported.
  have hbreak : ∀ ip, (advance s.loader s.clock.now p).1 = some (.breakpoint ip) ↔
      breaksAt? p = some ip := fun _ => advance_breakpoint_iff
  cases hat : breaksAt? p with
  | some ip =>
    have hstep := @step_of_breaksAt? p s.loader s.clock.now ip hat
    have hpid : (p.atIp (ip + 1)).pid = p.pid := by
      rw [Actor.atIp]
      split <;> rfl
    rw [report?, hat, Scheduler.turn, advance, hstep]
    dsimp only
    rw [settle, notify_eq, hpid]
    exact htick.reports.trans (reports_told [.breakpoint p.pid ip] _)
  | none =>
    rw [report?, hat, Scheduler.turn]
    generalize advance s.loader s.clock.now p = a at hbreak
    obtain ⟨o, r⟩ := a
    cases o with
    | none => exact hquiet (.refl _)
    | some o =>
      cases o with
      | send receiver payload =>
        dsimp only
        rw [settle]
        split
        next =>
          cases Actor.deliver payload r with
          | ok => exact hquiet (.refl _)
          | error => exact hquiet (.refl _)
        next => exact hquiet (sameWatch_deliver receiver payload _)
      | newActor callee args guarded =>
        dsimp only
        rw [settle, startRequested_fst]
        exact htick.reports.trans (reports_after callee args _)
      | breakpoint ip => cases hat.symm.trans ((hbreak ip).1 rfl)
      | giveWay | block | sleep | trap => exact hquiet (.refl _)
      | exit result =>
        dsimp only
        rw [settle]
        cases Payload.capture r.heap result with
        | ok => exact hquiet (.refl _)
        | error => exact hquiet (.refl _)

/-- While an actor is attended to, the breakpoints that it executes are reported. -/
theorem reports_attend {reason : Option ExitReason}
    (h : attend budget s p = some (s', q, reason)) :
    Reports s ((turns budget s p).filterMap report?) s' := by
  induction budget generalizing s p with
  | zero => cases h
  | succ budget ih =>
    have hturn := reports_turn s p
    have hcons (rest : List Actor) :
        (p :: rest).filterMap report? = (report? p).toList ++ rest.filterMap report? := by
      rw [List.filterMap_eq_flatMap_toList, List.filterMap_eq_flatMap_toList, List.flatMap_cons]
    rw [attend_succ] at h
    rw [turns_succ, hcons]
    generalize s.turn p = x at h hturn ⊢
    obtain ⟨t, r, v⟩ := x
    cases v with
    | resume => exact hturn.trans (ih h)
    | suspend =>
      obtain ⟨rfl, -⟩ := Prod.mk.inj (Option.some.inj h)
      exact hturn.trans (SameWatch.refl _).reports
    | stop =>
      obtain ⟨rfl, -⟩ := Prod.mk.inj (Option.some.inj h)
      exact hturn.trans (SameWatch.refl _).reports

/-- Nothing is added when the actor is taken back or has ended. -/
theorem reports_dispatch (h : dispatch budget p s = some s') :
    Reports s ((turns budget s (prepared p)).filterMap report?) s' := by
  obtain ⟨t, q, reason, hattend, hend⟩ := dispatch_eq_some h
  have hattended := reports_attend hattend
  rw [← List.append_nil (List.filterMap _ _)]
  rcases hend with ⟨-, rfl⟩ | ⟨reason, -, rfl⟩
  · exact hattended.trans (sameWatch_park q t).reports
  · exact hattended.trans ((reports_finish p.pid reason t).trans
      (sameWatch_collectModules _).reports)

theorem sameWatch_awake (s : Scheduler) : SameWatch s s.awake := by
  have hclock (t : Scheduler) : SameWatch t { t with clock := s.clock.tick } := ⟨rfl, rfl, rfl, rfl⟩
  exact (hclock _).trans (sameWatch_wakeExpired s s.clock.now).1

/-- In a step, the breakpoints that are executed are reported. -/
theorem reports_step {outcome : StepOutcome} (h : s.step budget = some (outcome, s')) :
    Reports s ((stepTurns budget s).filterMap report?) s' := by
  have hawake := (sameWatch_awake s).reports
  have hasked := hawake.trans (reports_consult s.awake)
  -- Asking the observers and taking the actor out of the queue are not reported.
  cases step_cases h with
  | nothing hready =>
    simpa [stepTurns, dispatched?, hready] using hawake
  | heldUp hready hno =>
    rw [hno] at hasked
    simpa [stepTurns, dispatched?, hready, hno] using hasked
  | @ran pid rest t _ _ hready hyes hlive hdispatched =>
    rw [hyes] at hasked
    have hlent : SameWatch t { t with ready := rest, registry := t.registry.lend pid } :=
      ⟨rfl, rfl, rfl, rfl⟩
    simpa [stepTurns, dispatched?, hready, hyes, hlive] using
      hasked.trans (hlent.reports.trans (reports_dispatch hdispatched))
  | @missing _ rest t hready hyes hgone =>
    rw [hyes] at hasked
    have hleft : SameWatch t { t with ready := rest } := ⟨rfl, rfl, rfl, rfl⟩
    simpa [stepTurns, dispatched?, hready, hyes, hgone] using hasked.trans hleft.reports

/-- So are they in a run. -/
theorem reports_run {outcome : RunOutcome} (h : run budget s = some (outcome, s')) :
    Reports s ((runTurns budget s).filterMap report?) s' := by
  induction budget generalizing s with
  | zero => cases h
  | succ budget ih =>
    -- No turns follow a step with which the run stops.
    cases run_cases h with
    | ran hstep hrest => simpa [runTurns, hstep] using (reports_step hstep).trans (ih hrest)
    | @slept deadline t _ _ hstep hlive hnext hrest =>
      have hslept : SameWatch t { t with clock := t.clock.sleepUntil deadline } :=
        ⟨rfl, rfl, rfl, rfl⟩
      simpa [runTurns, hstep, hlive, hnext] using
        (reports_step hstep).trans (hslept.reports.trans (ih hrest))
    | idle hstep hnobody => simpa [runTurns, hstep, hnobody] using reports_step hstep
    | stalled hstep hlive hnever => simpa [runTurns, hstep, hlive, hnever] using reports_step hstep
    | interrupted hstep => simpa [runTurns, hstep] using reports_step hstep

/-! ### Where breakpoints are cleared -/

theorem Cleared.forall₂_turns (h : s.Cleared t) (hpq : p.Cleared q) (budget : Nat) :
    List.Forall₂ Actor.Cleared (turns budget s p) (turns budget t q) := by
  induction budget generalizing s t p q with
  | zero => exact .nil
  | succ budget ih =>
    have hturn := h.turn hpq
    rw [turns_succ, turns_succ]
    refine .cons hpq ?_
    generalize s.turn p = x at hturn ⊢
    generalize t.turn q = y at hturn ⊢
    obtain ⟨s', p', v⟩ := x
    obtain ⟨t', q', v'⟩ := y
    obtain ⟨h', hpq', hv⟩ := hturn
    cases hv with
    | same =>
      cases v with
      | resume => exact ih h' hpq'
      | suspend | stop => exact .nil
    | stop => exact .nil

/-- The same actor is dispatched. -/
theorem Cleared.dispatched? (h : s.Cleared t) :
    Option.Rel (fun x y => x.1.Cleared y.1 ∧ x.2.Cleared y.2) s.dispatched? t.dispatched? := by
  obtain ⟨hagreed, hasked⟩ := h.awake.consult
  rw [Scheduler.dispatched?, Scheduler.dispatched?, h.awake.ready, hagreed]
  split
  next => exact .none
  next pid rest _ =>
    split
    next =>
      refine rel_map (hasked.actor? pid) fun p q hpq => ⟨?_, prepared_cleared hpq⟩
      exact { hasked.lend pid with ready := rfl }
    next => exact .none

theorem Cleared.forall₂_stepTurns (h : s.Cleared t) (budget : Nat) :
    List.Forall₂ Actor.Cleared (stepTurns budget s) (stepTurns budget t) := by
  rw [stepTurns, stepTurns]
  rcases eq_of_rel h.dispatched? with ⟨hnone, hnone'⟩ | ⟨x, y, hsome, hsome', hs, hp⟩
  · rw [hnone, hnone']
    exact .nil
  · rw [hsome, hsome']
    exact hs.forall₂_turns hp budget

theorem Cleared.forall₂_runTurns (h : s.Cleared t) (budget : Nat) :
    List.Forall₂ Actor.Cleared (runTurns budget s) (runTurns budget t) := by
  induction budget generalizing s t with
  | zero => exact .nil
  | succ budget ih =>
    rw [runTurns, runTurns]
    refine List.rel_append (h.forall₂_stepTurns budget) ?_
    rcases eq_of_rel (rel_step h budget) with
      ⟨hnone, hnone'⟩ | ⟨⟨outcome, s'⟩, ⟨outcome', t'⟩, hsome, hsome', heq, h'⟩
    · rw [hnone, hnone']
      exact .nil
    · rw [hsome, hsome']
      dsimp only at heq h'
      subst heq
      cases outcome' with
      | ran pid => exact ih h'
      | interrupted => exact .nil
      | nothingReady =>
        dsimp only
        rw [h'.live, h'.nextDeadline?]
        split
        next => exact .nil
        next =>
          cases s'.nextDeadline? with
          | none => exact .nil
          | some deadline => exact ih { h' with clock := by rw [h'.clock] }

end Scheduler

end ActorMachine
