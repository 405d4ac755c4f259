import ActorMachine.Proofs.Scheduler.Tables
import ActorMachine.Proofs.Scheduler.Turn

/-!
# A protected call always catches

* `Spares`: from one state of the scheduler to another no actor has ended.
* `dispatch_error`: an actor that a dispatch ends with an error has come to a fault that nothing
  catches.
* `catches_of_reached`: every other fault is caught. Then the calls go on that were in progress when
  the innermost protected call was executed, with false and the description of the fault on top of
  the stack.
-/

namespace ActorMachine

namespace Scheduler

open Machine

variable {s s' s'' : Scheduler} {p q : Actor} {pid : Pid} {fault : Fault} {budget : Nat}
  {config : ActorConfig}

/-! ### Who has ended -/

/-- No actor has ended. -/
def Spares (s s' : Scheduler) : Prop :=
  ∀ pid reason, s'.exitReason? pid = some reason → s.exitReason? pid = some reason

theorem Spares.trans (h : Spares s s') (h' : Spares s' s'') : Spares s s'' :=
  fun pid reason hexit => h pid reason (h' pid reason hexit)

/-- Where the table of exits stays the same, no actor ends. -/
theorem spares_of_exits (h : s'.registry.exits = s.registry.exits) : Spares s s' := by
  intro pid reason hexit
  rwa [exitReason?, Registry.exitReason?, h] at hexit

theorem spares_makeReady (s : Scheduler) (pid : Pid) : Spares s (s.makeReady pid) := by
  rw [makeReady]
  split
  next =>
    dsimp only
    split
    next => exact spares_of_exits rfl
    next => exact spares_of_exits rfl
  next => exact spares_of_exits rfl

theorem spares_deliver (s : Scheduler) (receiver : Pid) (payload : Payload) :
    Spares s (s.deliver receiver payload) := by
  rw [deliver]
  split
  next => exact spares_of_exits rfl
  next =>
    dsimp only
    split
    next => exact spares_of_exits rfl
    next =>
      split
      next => exact (spares_of_exits rfl).trans (spares_makeReady _ receiver)
      next => exact spares_of_exits rfl

/-- Whatever the scheduler does for an actor that goes on, no other one ends by it. -/
theorem Answers.spares (h : Answers pid s s') : Spares s s' := by
  cases h with
  | nothing => exact spares_of_exits rfl
  | delivery receiver payload => exact spares_deliver s receiver payload
  | newActor hspawn =>
    obtain ⟨-, p, -, rfl⟩ := spawnCallable_eq_ok hspawn
    obtain ⟨monitor, journal, hnotify⟩ := notify_spec (.started _)
      { s with registry := s.registry.enroll p, ready := s.ready ++ [_] }
    rw [hnotify]
    exact spares_of_exits rfl
  | notice event =>
    obtain ⟨monitor, journal, hnotify⟩ := notify_spec event s
    rw [hnotify]
    exact spares_of_exits rfl

theorem spares_turn (hp : Steady p) {v : Verdict} (h : s.turn p = (s', q, v)) : Spares s s' := by
  have htick : Spares s { s with clock := s.clock.tick } := spares_of_exits rfl
  cases turn_spec hp h with
  | resumes _ hanswers => exact htick.trans hanswers.spares
  | givesWay | waits | ends | fails => exact htick

/-! ### How a dispatch ends -/

/-- The end that is recorded for an actor is the one that shows. -/
theorem exitReason?_finish (pid : Pid) (reason : ExitReason) (s : Scheduler) :
    (s.finish pid reason).exitReason? pid = some reason := by
  obtain ⟨monitor, journal, hfinish⟩ := finish_spec pid reason s
  rw [exitReason?, hfinish]
  exact Registry.exitReason?_retire_self pid reason s.registry

/-- Taking back the actor that was run ends none. -/
theorem spares_park (s : Scheduler) (p : Actor) : Spares s (s.park p) := by
  rw [park]
  split
  next => exact spares_of_exits rfl
  next => exact spares_of_exits rfl

/-- An actor that a dispatch ends with an error has come to a fault that nothing catches. -/
theorem dispatch_error (h : Reached config p) (hlives : s.exitReason? p.pid = none)
    (hdispatch : dispatch budget p s = some s')
    (hexit : s'.exitReason? p.pid = some (.error fault)) :
    ∃ loader now q, Leads (prepared p) q ∧ Uncaught loader now q fault := by
  obtain ⟨s₁, q, reason, hattend, hend⟩ := dispatch_eq_some hdispatch
  have hprepared := steady_of_reached (reached_prepared h)
  -- In every turn the actor comes from the prepared one, and nobody has ended.
  have hturn : ∀ t r t' r', (Leads (prepared p) r ∧ Spares s t) → t.turn r = (t', r', .resume) →
      Leads (prepared p) r' ∧ Spares s t' := by
    rintro t r t' r' ⟨hleads, hspares⟩ hturn
    have hr := hleads.steady hprepared
    refine ⟨?_, hspares.trans (spares_turn hr hturn)⟩
    cases turn_spec hr hturn with
    | resumes hnext => exact hnext.trans hleads
  obtain ⟨t, r, ⟨hleads, hspares⟩, hlast⟩ :=
    of_attend hturn ⟨.refl, spares_of_exits rfl⟩ hattend
  have hr := hleads.steady hprepared
  rcases hend with ⟨rfl, rfl⟩ | ⟨reason', rfl, rfl⟩
  -- An actor that was taken back has not ended: nobody has.
  · rcases hlast with ⟨-, hlast⟩ | ⟨_, hreason, -⟩
    · have hspared := hspares.trans ((spares_turn hr hlast).trans (spares_park s₁ q))
      have hbefore := hspared _ _ hexit
      rw [hlives] at hbefore
      cases hbefore
    · cases hreason
  -- Otherwise the end that shows is the one of the last turn.
  · obtain ⟨loader, hcollect⟩ := collectModules_spec (s₁.finish p.pid reason')
    rw [hcollect] at hexit
    have hfinish : (s₁.finish p.pid reason').exitReason? p.pid = some (.error fault) := hexit
    rw [exitReason?_finish] at hfinish
    obtain rfl := Option.some.inj hfinish
    rcases hlast with ⟨hnone, -⟩ | ⟨_, hreason, hlast⟩
    · cases hnone
    · obtain rfl := Option.some.inj hreason
      cases turn_spec hr hlast with
      | fails _ huncaught => exact ⟨_, _, r, hleads, huncaught⟩

end Scheduler

namespace Machine

open Actor (Recovered)

variable {p q r : Actor} {fault : Fault} {config : ActorConfig}

/-- Running an actor ends in a trap only for a fault that nothing catches. -/
theorem run_trap (hp : Steady p) {loader : Loader} {budget : Nat} {clock clock' : Clock}
    (h : run loader budget clock p = some (.trap fault, clock', q)) :
    ∃ now r, Leads p r ∧ ¬ Protected loader r ∧ step loader now r = .error fault q := by
  -- As long as there is no outcome the run goes on from a state that the actor leads to.
  induction budget generalizing clock p with
  | zero => cases h
  | succ budget ih =>
    have hadvance := advance_spec hp loader clock.now
    rw [run] at h
    generalize advance loader clock.now p = a at hadvance h
    obtain ⟨o, r⟩ := a
    cases o with
    | none =>
      obtain ⟨now, r', hleads, hrest⟩ := ih (hadvance.leads.steady hp) h
      exact ⟨now, r', hleads.trans hadvance.leads, hrest⟩
    | some o =>
      obtain ⟨rfl, -, rfl⟩ : _ ∧ _ ∧ _ := by simpa using h
      cases hadvance with
      | executed _ htraps => exact absurd rfl (htraps fault)
      | trapped hfails hunprotected => exact ⟨clock.now, p, .refl, hunprotected, hfails⟩

/-! ### Every fault -/

/-- The calls go on that were in progress when the innermost protected call was executed, with the
report of the fault on top of the stack. No request is pending. -/
def Catches (config : ActorConfig) (loader : Loader) (p : Actor) (fault : Fault) (q : Actor) :
    Prop :=
  ∃ frames below, Innermost config loader p frames ∧ Recovered fault frames below q

/-- What becomes of the faults of an actor. -/
structure Safe (config : ActorConfig) (p : Actor) : Prop where
  /-- A fault of an instruction is caught if a protected call is in progress. -/
  instruction : ∀ loader now fault q, step loader now p = .error fault q →
    (∃ f ∈ p.frames, f.guarded = true) →
    ∃ r, advance loader now p = (none, r) ∧ Catches config loader p fault r
  /-- If the call that a protected call makes cannot be started, or calls a native that fails, the
  fault is caught. -/
  call : ∀ loader now n r fault, Invokes loader p n true r → Falters loader now n r fault →
    ∃ q, advance loader now p = (none, q) ∧ Catches config loader p fault q
  /-- If an actor that was asked for cannot be started, the fault is caught if a protected call has
  asked for it or is in progress. -/
  request : ∀ loader now callee args guarded q (s s' : Scheduler) fault,
    step loader now p = .ok (some (.newActor callee args guarded)) q →
    Scheduler.spawnCallable callee args s = .error fault s' →
    guarded = true ∨ (∃ f ∈ p.frames, f.guarded = true) →
    ∃ r, s.settle (.newActor callee args guarded) q = (s', r, .resume) ∧
      Catches config loader p fault r
  /-- A trap means that there was a fault in none of these situations. -/
  run : ∀ loader budget clock fault clock' q,
    Machine.run loader budget clock p = some (.trap fault, clock', q) →
    ∃ now r, Leads p r ∧ ¬ Protected loader r ∧ step loader now r = .error fault q
  /-- So does an error with which a dispatch ends. -/
  dispatch : ∀ budget (s s' : Scheduler) fault, s.exitReason? p.pid = none →
    Scheduler.dispatch budget p s = some s' → s'.exitReason? p.pid = some (.error fault) →
    ∃ loader now q, Leads (Scheduler.prepared p) q ∧ Uncaught loader now q fault

/-- A fault that an instruction raises with a protected call in progress is caught. -/
theorem instruction_catches (h : Reached config p) {loader : Loader} {now : Time}
    (hstep : step loader now p = .error fault q) (hguarded : ∃ f ∈ p.frames, f.guarded = true) :
    ∃ r, advance loader now p = (none, r) ∧ Catches config loader p fault r := by
  obtain ⟨hq, ⟨ip, hframes⟩, hnone⟩ := step_error_spec (steady_of_reached h) hstep
  obtain ⟨frames, below, r, hinnermost, hunwind, hrec⟩ :=
    unwind_innermost h hq hframes hnone (.inl hguarded) fault
  refine ⟨r, ?_, frames, below, hinnermost, hrec⟩
  rw [advance, hstep]
  simp only [hunwind]

/-- The failure of a protected call that has got no frame is caught. -/
theorem call_catches (hp : Steady p) {loader : Loader} {now : Time} {n : Nat}
    (hinv : Invokes loader p n true r) (hfails : Falters loader now n r fault) :
    ∃ q, advance loader now p = (none, q) ∧ Catches config loader p fault q := by
  obtain ⟨q, below, hstep, hrec⟩ := step_of_invokes hp hinv hfails
  refine ⟨q, ?_, r.frames, below, hinv.innermost hp, hrec⟩
  rw [advance, hstep]

/-- The failure to start an actor that was asked for is caught if a protected call has asked for it
or is in progress. -/
theorem request_catches (h : Reached config p) {loader : Loader} {now : Time} {callee : Payload}
    {args : List Payload} {guarded : Bool} {s s' : Scheduler}
    (hasks : step loader now p = .ok (some (.newActor callee args guarded)) q)
    (hfails : Scheduler.spawnCallable callee args s = .error fault s')
    (hguarded : guarded = true ∨ ∃ f ∈ p.frames, f.guarded = true) :
    ∃ r, s.settle (.newActor callee args guarded) q = (s', r, .resume) ∧
      Catches config loader p fault r := by
  have hprotected : Protected loader p := by
    rcases hguarded with rfl | hframe
    · obtain ⟨-, -, n, r, hinv, -⟩ := exists_invokes_of_newActor (steady_of_reached h) hasks
      exact .inr ⟨n, r, hinv⟩
    · exact .inl hframe
  obtain ⟨frames, below, r, hinnermost, hr, hrec⟩ :=
    Scheduler.startRequested_caught h hasks hfails hprotected
  obtain rfl := Scheduler.spawnCallable_eq_error hfails
  exact ⟨r, hr, frames, below, hinnermost, hrec⟩

/-- In every state that an actor reaches its protected calls catch all faults, and only a fault that
nothing protects from ends it. -/
theorem safe_of_reached {config : ActorConfig} {p : Actor} (h : Reached config p) :
    Safe config p where
  instruction _ _ _ _ := instruction_catches h
  call _ _ _ _ _ := call_catches (steady_of_reached h)
  request _ _ _ _ _ _ _ _ _ := request_catches h
  run _ _ _ _ _ _ := run_trap (steady_of_reached h)
  dispatch _ _ _ _ := Scheduler.dispatch_error h

/-- A function that makes a protected call, with its argument, of a function that fails. -/
def protector : Routine :=
  .loose
    { Prototype.blank with
      arguments := 1
      code := #[.loadLocal 0, .makeClosure 0, .call 1, .ret]
      nested := [{ Prototype.blank with code := #[.loadLocal 0] }] }

/-- The fault of the called function is caught, and there is one call less in progress. -/
theorem safe_protector :
    let p := stepped .standard 0 (started {} (.closure protector []) [.native ⟨12⟩]) 3
    p.frames.map Frame.guarded = [true, false] ∧
      (advance .standard 0 p).2.frames.map Frame.guarded = [false] ∧ Safe {} p := by
  intro p
  have hreached : Reached {} p :=
    reached_stepped (reached_started (by decide +kernel)) .standard 0 3
  exact ⟨by decide +kernel, by decide +kernel, safe_of_reached hreached⟩

end Machine

end ActorMachine
