import ActorMachine.Proofs.Machine.Timeless
import ActorMachine.Proofs.Scheduler.Observers
import ActorMachine.Proofs.Scheduler.Timers

/-!
# Pausing

An observer that objects to a dispatch holds it up, and that is all it does.

* `Unhindered`: two schedulers are in the same state but for the clock, and the observers of the
  second one agree to everything.
* `Untimed`: no actor waits until a point in time.
* `Unhindered.turn`, `Unhindered.attend`, `Unhindered.step`: where nobody waits until a point in
  time, both do the same.
* `transparent_of_course`: a course without the steps that were held up is one in which nobody
  objects.
-/

namespace ActorMachine

/-! ### Observers that agree to everything -/

/-- The role with which an observer is told the same but never objects by itself. -/
def ObserverRole.lenient : ObserverRole → ObserverRole
  | logging _ => logging none
  | role => role

namespace Observer

/-- The observer, if it never objected by itself. -/
def lenient (o : Observer) : Observer :=
  { o with role := o.role.lenient }

@[simp]
theorem lenient_id (o : Observer) : o.lenient.id = o.id := rfl

@[simp]
theorem entries_lenient (o : Observer) (event : Event) : o.lenient.entries event = o.entries event := by
  obtain ⟨id, role⟩ := o
  cases role <;> rfl

@[simp]
theorem occurrences_lenient (o : Observer) (event : Event) :
    o.lenient.occurrences event = o.occurrences event := by
  obtain ⟨id, role⟩ := o
  cases role <;> rfl

@[simp]
theorem lenient_asked (o : Observer) : (Scheduler.Observer.asked o).lenient = o.lenient := by
  obtain ⟨id, role⟩ := o
  cases role <;> rfl

@[simp]
theorem asked_lenient (o : Observer) : Scheduler.Observer.asked o.lenient = o.lenient := by
  obtain ⟨id, role⟩ := o
  cases role <;> rfl

end Observer

namespace Scheduler

open Machine

variable {s s' t t' : Scheduler} {pid : Pid} {p q : Actor} {budget : Nat} {act : Act}
  {entries : List Entry}

/-- The command, if nobody objects because of it. -/
def Command.lenient : Command → Command
  | attach role => attach role.lenient
  | elsewhere clock loader monitor journal =>
    elsewhere clock loader { monitor with paused := false } journal
  | command => command

/-- The act, if nobody objects because of it. -/
def Act.lenient : Act → Act
  | outside command => outside command.lenient
  | act => act

/-- The act is a step that was held up. -/
def Act.heldUp : Act → Bool
  | step _ .interrupted => true
  | _ => false

/-- What a journal says about actors; that observers were asked is left out. -/
def lifecycle (journal : Array (ObserverId × Event)) : List (ObserverId × Event) :=
  journal.toList.filter fun entry => !(entry.2 matches .consulted)

theorem lifecycle_append (journal : Array (ObserverId × Event)) (entries : List (ObserverId × Event)) :
    lifecycle (journal ++ entries.toArray) = lifecycle journal ++ lifecycle entries.toArray := by
  simp [lifecycle]

/-- Two schedulers are in the same state but for the clock. In the second one nobody objects to
anything, and how often the observers were asked makes no difference. -/
structure Unhindered (s t : Scheduler) : Prop where
  /-- The settings are the same, -/
  config : t.config = s.config
  /-- the modules, -/
  loader : t.loader = s.loader
  /-- the actors and the reasons of those that have ended, -/
  registry : t.registry = s.registry
  /-- the queue, -/
  ready : t.ready = s.ready
  /-- and those that wait. -/
  blocked : t.blocked = s.blocked
  /-- The same observers are attached, but they never object by themselves, -/
  observers : t.observers = s.observers.map Observer.lenient
  /-- as many as ever were, -/
  nextObserver : t.nextObserver = s.nextObserver
  /-- and the monitor has counted the same but is not paused. -/
  monitor : t.monitor = { s.monitor with paused := false }
  /-- The observers were told the same of the actors. -/
  journal : lifecycle t.journal = lifecycle s.journal

/-- The scheduler, if nobody objected to anything. -/
def unhindered (s : Scheduler) (clock : Clock) (journal : Array (ObserverId × Event)) : Scheduler :=
  { s with
    observers := s.observers.map Observer.lenient
    monitor := { s.monitor with paused := false }
    clock
    journal }

theorem unhindered_iff : Unhindered s t ↔
    ∃ clock journal, lifecycle journal = lifecycle s.journal ∧ t = s.unhindered clock journal := by
  constructor
  · obtain ⟨config, loader, registry, ready, blocked, observers, nextObserver, monitor, clock,
      journal⟩ := t
    rintro ⟨rfl, rfl, rfl, rfl, rfl, rfl, rfl, rfl, hjournal⟩
    exact ⟨clock, journal, hjournal, rfl⟩
  · rintro ⟨clock, journal, hjournal, rfl⟩
    exact ⟨rfl, rfl, rfl, rfl, rfl, rfl, rfl, rfl, hjournal⟩

/-! ### What is told -/

/-- Observers that never object are told the same. -/
theorem Unhindered.told (h : Unhindered s t) (events : List Event) :
    Unhindered (s.told events) (t.told events) := by
  obtain ⟨clock, journal, hjournal, rfl⟩ := unhindered_iff.1 h
  refine ⟨rfl, rfl, rfl, rfl, rfl, rfl, rfl, ?_, ?_⟩
  · simp [Scheduler.told, unhindered, List.flatMap_map]
  · simp [Scheduler.told, unhindered, List.flatMap_map, lifecycle_append, hjournal]

/-- That observers are asked leaves no trace but in the journal and in their allowances. -/
theorem lifecycle_consult (s : Scheduler) :
    lifecycle s.consult.2.journal = lifecycle s.journal ∧ s.consult.2.monitor = s.monitor := by
  -- All that is written down of a question is the question, which is no event of a life.
  have hentries : ∀ o : Observer, ∀ entry ∈ o.entries .consulted, entry.2 = .consulted := by
    intro o entry hentry
    rw [Observer.entries] at hentry
    split at hentry
    next => rw [List.mem_singleton.1 hentry]
    next => cases hentry
  have hoccurrences : ∀ o : Observer, o.occurrences .consulted = [] := by
    intro o
    rw [Observer.occurrences]
    split <;> rfl
  rw [consult_eq]
  refine ⟨?_, ?_⟩
  · simp only [Scheduler.told, lifecycle_append, List.flatMap_singleton]
    refine List.append_right_eq_self.2 (List.filter_eq_nil_iff.2 fun entry hentry => ?_)
    obtain ⟨o, -, ho⟩ := List.mem_flatMap.1 hentry
    simp [hentries o entry ho]
  · have hnothing : s.observers.flatMap (·.occurrences .consulted) = [] :=
      List.flatMap_eq_nil_iff.2 fun o _ => hoccurrences o
    simp [Scheduler.told, hnothing]

/-- To ask the observers makes no difference here, whether they object or not. -/
theorem Unhindered.consult_left (h : Unhindered s t) : Unhindered s.consult.2 t := by
  obtain ⟨hjournal, hmonitor⟩ := lifecycle_consult s
  rw [consult_eq] at hjournal hmonitor ⊢
  exact { h with
    observers := by simp [h.observers]
    monitor := h.monitor.trans (by rw [hmonitor])
    journal := h.journal.trans hjournal.symm }

theorem Unhindered.consult_right (h : Unhindered s t) : Unhindered s t.consult.2 := by
  obtain ⟨hjournal, hmonitor⟩ := lifecycle_consult t
  rw [consult_eq] at hjournal hmonitor ⊢
  exact { h with
    observers := by simp [h.observers]
    monitor := hmonitor.trans h.monitor
    journal := hjournal.trans h.journal }

/-- Nobody objects. -/
theorem Unhindered.agreed (h : Unhindered s t) : t.consult.1 = true := by
  cases hasked : t.consult.1 with
  | true => rfl
  | false =>
    obtain ⟨o, ho, hnot⟩ := exists_objection hasked
    rw [h.observers] at ho
    obtain ⟨⟨id, role⟩, -, rfl⟩ := List.mem_map.1 ho
    cases role <;> simp [agrees, Observer.lenient, ObserverRole.lenient, h.monitor] at hnot

/-! ### What is done for actors -/

theorem Unhindered.actor? (h : Unhindered s t) (pid : Pid) : t.actor? pid = s.actor? pid := by
  rw [Scheduler.actor?, Scheduler.actor?, h.registry]

theorem Unhindered.makeReady (h : Unhindered s t) (pid : Pid) :
    Unhindered (s.makeReady pid) (t.makeReady pid) := by
  rw [Scheduler.makeReady, Scheduler.makeReady, h.blocked]
  split
  next =>
    simp only [Scheduler.actor?, h.registry]
    split
    next => exact { h with registry := rfl, ready := by rw [h.ready], blocked := rfl }
    next => exact { h with registry := h.registry.symm ▸ rfl, blocked := rfl }
  next => exact h

theorem Unhindered.deliver (h : Unhindered s t) (receiver : Pid) (payload : Payload) :
    Unhindered (s.deliver receiver payload) (t.deliver receiver payload) := by
  rw [Scheduler.deliver, Scheduler.deliver, h.actor?]
  cases s.actor? receiver with
  | none => exact h
  | some p =>
    dsimp only
    -- What the receiver becomes does not depend on the scheduler.
    have hput : ∀ q : Actor, Unhindered
        { s with registry := (s.registry.lend receiver).put q }
        { t with registry := (t.registry.lend receiver).put q } := fun q => by
      rw [h.registry]
      exact ⟨h.config, h.loader, rfl, h.ready, h.blocked, h.observers, h.nextObserver, h.monitor,
        h.journal⟩
    cases Actor.deliver payload p with
    | error fault q => exact hput q
    | ok _ q =>
      dsimp only
      split
      next => exact (hput q).makeReady receiver
      next => exact hput q

/-- An actor can be started in both or in neither. -/
theorem Unhindered.spawnCallable (h : Unhindered s t) (callee : Payload) (args : List Payload) :
    (∃ child s' t', Scheduler.spawnCallable callee args s = .ok child s' ∧
      Scheduler.spawnCallable callee args t = .ok child t' ∧ Unhindered s' t') ∨
    ∃ fault, Scheduler.spawnCallable callee args s = .error fault s ∧
      Scheduler.spawnCallable callee args t = .error fault t := by
  simp only [Scheduler.spawnCallable, bind, EStateM.bind, get, getThe, MonadStateOf.get, estateM_get,
    h.registry, h.config]
  cases Actor.start callee args (.create s.registry.nextPid s.config.actor) with
  | error fault p => exact .inr ⟨fault, rfl, rfl⟩
  | ok _ p =>
    refine .inl ⟨_, _, _, rfl, rfl, ?_⟩
    dsimp only
    rw [notify_eq, notify_eq, h.registry, h.ready]
    refine Unhindered.told ?_ _
    exact { h with registry := rfl, ready := rfl }

theorem Unhindered.after_spawnCallable (h : Unhindered s t) (callee : Payload)
    (args : List Payload) :
    Unhindered (after (Scheduler.spawnCallable callee args) s)
      (after (Scheduler.spawnCallable callee args) t) := by
  rw [after, after]
  rcases h.spawnCallable callee args with ⟨child, s', t', hs, ht, h'⟩ | ⟨fault, hs, ht⟩
  · rw [hs, ht]
    exact h'
  · rw [hs, ht]
    exact h

theorem Unhindered.finish (h : Unhindered s t) (pid : Pid) (reason : ExitReason) :
    Unhindered (s.finish pid reason) (t.finish pid reason) := by
  have htold := h.told (closing pid reason)
  rw [finish_eq, finish_eq, h.registry]
  exact { htold with registry := rfl }

theorem Unhindered.collectModules (h : Unhindered s t) :
    Unhindered s.collectModules.2 t.collectModules.2 := by
  rw [Scheduler.collectModules, Scheduler.collectModules, h.loader]
  split
  next => exact h
  next =>
    dsimp only
    rw [h.registry]
    exact { h with loader := rfl, registry := h.registry.symm ▸ rfl }

theorem Unhindered.park (h : Unhindered s t) (p : Actor) : Unhindered (s.park p) (t.park p) := by
  simp only [Scheduler.park, h.registry]
  split
  next => exact { h with registry := rfl, ready := by rw [h.ready] }
  next => exact { h with registry := rfl, blocked := by rw [h.blocked] }

/-! ### Turns -/

theorem Unhindered.startRequested (h : Unhindered s t) (callee : Payload) (args : List Payload)
    (guarded : Bool) (p : Actor) :
    (t.startRequested callee args guarded p).2 = (s.startRequested callee args guarded p).2 ∧
      Unhindered (s.startRequested callee args guarded p).1
        (t.startRequested callee args guarded p).1 := by
  refine ⟨?_, by simpa only [startRequested_fst] using h.after_spawnCallable callee args⟩
  rcases h.spawnCallable callee args with ⟨child, s', t', hs, ht, -⟩ | ⟨fault, hs, ht⟩
  · simp only [Scheduler.startRequested, hs, ht]
    cases Actor.onStack (Stack.setAt (-1) (.pid child)) p with
    | ok => rfl
    | error fault q =>
      dsimp only
      split <;> rfl
  · simp only [Scheduler.startRequested, hs, ht]
    split <;> rfl

/-- What an actor asks for is done in both. -/
theorem Unhindered.settle (h : Unhindered s t) (outcome : Outcome) (p : Actor) :
    (t.settle outcome p).2 = (s.settle outcome p).2 ∧
      Unhindered (s.settle outcome p).1 (t.settle outcome p).1 := by
  cases outcome with
  | send receiver payload =>
    simp only [Scheduler.settle]
    split
    next => cases Actor.deliver payload p <;> exact ⟨rfl, h⟩
    next => exact ⟨rfl, h.deliver receiver payload⟩
  | newActor callee args guarded => exact h.startRequested callee args guarded p
  | breakpoint ip =>
    refine ⟨rfl, ?_⟩
    simp only [Scheduler.settle, notify_eq]
    exact h.told _
  | giveWay | block | sleep | trap => exact ⟨rfl, h⟩
  | exit result =>
    simp only [Scheduler.settle]
    cases Payload.capture p.heap result <;> exact ⟨rfl, h⟩

theorem undated_recover (guarded : Bool) (fault : Fault) :
    Upholds Actor.Undated (if guarded then Actor.failProtectedCall fault else Actor.unwind fault)
      fun _ => True := by
  split
  next => exact Actor.upkeep_failProtectedCall Actor.upkeep_undated fault
  next => exact Actor.undated_unwind fault

theorem undated_startRequested (hp : p.Undated) (callee : Payload) (args : List Payload)
    (guarded : Bool) (s : Scheduler) : (s.startRequested callee args guarded p).2.1.Undated := by
  -- A fault is dealt with in two places, and in both in the same way.
  have hrecover := undated_recover guarded
  rw [Scheduler.startRequested]
  cases Scheduler.spawnCallable callee args s with
  | error fault t =>
    dsimp only
    cases hrun : (if guarded then Actor.failProtectedCall fault else Actor.unwind fault) p with
    | ok _ r => exact ((hrecover fault).of_ok hp hrun).1
    | error fault' r => exact (hrecover fault).of_error hp hrun
  | ok child t =>
    have hanswer : Upholds Actor.Undated (Actor.onStack (Stack.setAt (-1) (.pid child)))
        fun _ => True :=
      Actor.upkeep_onStack Actor.upkeep_undated _
    dsimp only
    cases hset : Actor.onStack (Stack.setAt (-1) (.pid child)) p with
    | ok _ q => exact (hanswer.of_ok hp hset).1
    | error fault q =>
      have hq : q.Undated := hanswer.of_error hp hset
      dsimp only
      cases hrun : (if guarded then Actor.failProtectedCall fault else Actor.unwind fault) q with
      | ok _ r => exact ((hrecover fault).of_ok hq hrun).1
      | error fault' r => exact (hrecover fault).of_error hq hrun

/-- Whatever is done for an actor, it does not fix a deadline. -/
theorem undated_settle (hp : p.Undated) (outcome : Outcome) (s : Scheduler) :
    (s.settle outcome p).2.1.Undated := by
  cases outcome with
  | send receiver payload =>
    have hdeliver : Upholds Actor.Undated (Actor.deliver payload) fun _ => True :=
      Actor.upkeep_deliver Actor.upkeep_undated payload
    rw [Scheduler.settle]
    split
    next =>
      cases hrun : Actor.deliver payload p with
      | ok _ q => exact (hdeliver.of_ok hp hrun).1
      | error fault q => exact hdeliver.of_error hp hrun
    next => exact hp
  | newActor callee args guarded => exact undated_startRequested hp callee args guarded s
  | breakpoint | giveWay | block | sleep | trap => exact hp
  | exit result =>
    rw [Scheduler.settle]
    cases Payload.capture p.heap result <;> exact hp

/-- After a turn that makes an actor wait until a point in time, it does so. -/
theorem dueAt?_settle {outcome : Outcome} (h : Timed (some outcome)) (s : Scheduler) (p : Actor) :
    ∃ q deadline, s.settle outcome p = (s, q, .suspend) ∧ dueAt? q = some deadline := by
  cases outcome with
  | sleep deadline => exact ⟨_, deadline, rfl, rfl⟩
  | block deadline =>
    cases deadline with
    | some deadline => exact ⟨_, deadline, rfl, rfl⟩
    | none => exact h.elim
  | _ => exact h.elim

/-- An actor does the same in both, unless it waits until a point in time then. -/
theorem Unhindered.turn {v : Verdict} (h : Unhindered s t) (hp : p.Undated)
    (hturn : s.turn p = (s', q, v)) :
    (v = .suspend ∧ (dueAt? q).isSome) ∨
      (q.Undated ∧ ∃ t', t.turn p = (t', q, v) ∧ Unhindered s' t') := by
  have hticked : Unhindered { s with clock := s.clock.tick } { t with clock := t.clock.tick } :=
    { h with }
  -- The clocks differ, but an actor without a deadline does the same at any time, unless it starts
  -- to wait for one.
  have hsame := Machine.advance_anytime hp s.loader s.clock.now t.clock.now
  have hloader : Machine.advance t.loader t.clock.now p = Machine.advance s.loader t.clock.now p := by
    rw [h.loader]
  rw [Scheduler.turn] at hturn
  rw [Scheduler.turn, hloader]
  generalize Machine.advance s.loader s.clock.now p = a at hsame hturn
  obtain ⟨o, r⟩ := a
  rcases hsame with htimed | ⟨hother, hr⟩
  · cases o with
    | none => exact htimed.elim
    | some outcome =>
      obtain ⟨q', deadline, hsettle, hdue⟩ := dueAt?_settle htimed { s with clock := s.clock.tick } r
      obtain ⟨-, rfl, rfl⟩ : _ ∧ _ ∧ _ := by simpa using hsettle.symm.trans hturn
      exact .inl ⟨rfl, Option.isSome_iff_exists.2 ⟨deadline, hdue⟩⟩
  · rw [hother]
    refine .inr ?_
    cases o with
    | none =>
      obtain ⟨rfl, rfl, rfl⟩ : _ ∧ _ ∧ _ := by simpa using hturn
      exact ⟨hr, _, rfl, hticked⟩
    | some outcome =>
      obtain ⟨hactor, hscheduler⟩ := hticked.settle outcome r
      have hq := undated_settle hr outcome { s with clock := s.clock.tick }
      dsimp only at hturn
      rw [hturn] at hactor hscheduler hq
      exact ⟨hq, _, Prod.ext rfl hactor, hscheduler⟩

/-- So it does as long as it is attended to. -/
theorem Unhindered.attend {reason : Option ExitReason} (h : Unhindered s t) (hp : p.Undated)
    (hattend : Scheduler.attend budget s p = some (s', q, reason))
    (htimeless : reason = none → dueAt? q = none) :
    ∃ t', Scheduler.attend budget t p = some (t', q, reason) ∧ Unhindered s' t' := by
  induction budget generalizing s t p with
  | zero => cases hattend
  | succ budget ih =>
    rw [attend_succ] at hattend ⊢
    obtain ⟨s₁, q₁, v, hturn⟩ : ∃ s₁ q₁ v, s.turn p = (s₁, q₁, v) := ⟨_, _, _, rfl⟩
    rw [hturn] at hattend
    -- A turn that ends with a deadline would be the last one, which is excluded.
    rcases h.turn hp hturn with ⟨rfl, hdue⟩ | ⟨hq, t₁, hturn', h'⟩
    · obtain ⟨-, rfl, rfl⟩ : _ ∧ _ ∧ _ := by simpa using hattend
      rw [htimeless rfl] at hdue
      cases hdue
    · rw [hturn']
      cases v with
      | resume => exact ih h' hq hattend
      | suspend | stop =>
        obtain ⟨rfl, rfl, rfl⟩ : _ ∧ _ ∧ _ := by simpa using hattend
        exact ⟨t₁, rfl, h'⟩

/-! ### Steps -/

/-- No actor waits until a point in time, and none is in a receive that does. An actor gets there
only by the native that sleeps, or by a receive with a timeout that finds no message. -/
def Untimed (s : Scheduler) : Prop :=
  ∀ pid p, s.actor? pid = some p → dueAt? p = none ∧ p.Undated

theorem untimed_iff : Untimed s ↔
    ∀ p ∈ s.registry.living.values, dueAt? p = none ∧ p.receiveDeadline = none := by
  constructor
  · intro h p hp
    obtain ⟨pid, hfind⟩ := Table.mem_values_iff.1 hp
    exact h pid p hfind
  · exact fun h pid p hp => h p (Table.mem_values_iff.2 ⟨pid, hp⟩)

instance (s : Scheduler) : Decidable (Untimed s) :=
  decidable_of_iff _ untimed_iff.symm

/-- Then nobody is woken by the clock. -/
theorem Untimed.wakeExpired (h : Untimed s) (now : Time) : s.wakeExpired now = s := by
  have hnobody : (s.blocked.filter fun pid => (s.deadlineOf? pid).any (· ≤ now)) = [] := by
    refine List.filter_eq_nil_iff.2 fun pid _ => ?_
    cases hp : s.actor? pid with
    | none => simp [deadlineOf?, hp]
    | some p => simp [deadlineOf?_eq hp, (h pid p hp).1]
  rw [Scheduler.wakeExpired, hnobody]
  rfl

theorem Untimed.awake (h : Untimed s) : s.awake = { s with clock := s.clock.tick } := by
  rw [Scheduler.awake, h.wakeExpired]

theorem undated_prepared (hp : p.Undated) : (prepared p).Undated :=
  (prepared_same p).2.2.trans hp

/-- A dispatch that does not end with waiting until a point in time is the same in both. -/
theorem Unhindered.dispatch (h : Unhindered s t) (hp : p.Undated)
    (hdispatch : Scheduler.dispatch budget p s = some s') (hs' : Untimed s') :
    ∃ t', Scheduler.dispatch budget p t = some t' ∧ Unhindered s' t' := by
  obtain ⟨s₁, q, reason, hattend, hend⟩ := dispatch_eq_some hdispatch
  have htimeless : reason = none → dueAt? q = none := by
    rintro rfl
    obtain rfl : s' = s₁.park q := by simpa using hend
    refine (hs' q.pid q ?_).1
    rw [actor?_park, if_pos rfl]
  obtain ⟨t₁, hattend', h'⟩ := h.attend (undated_prepared hp) hattend htimeless
  simp only [Scheduler.dispatch, hattend']
  rcases hend with ⟨rfl, rfl⟩ | ⟨r, rfl, rfl⟩
  · exact ⟨_, rfl, h'.park q⟩
  · exact ⟨_, rfl, (h'.finish p.pid r).collectModules⟩

/-- A step that is not held up is the same in both. -/
theorem Unhindered.step {outcome : StepOutcome} (h : Unhindered s t) (hs : Untimed s)
    (hs' : Untimed s') (hstep : s.step budget = some (outcome, s')) (hrun : outcome ≠ .interrupted) :
    ∃ t', t.step budget = some (outcome, t') ∧ Unhindered s' t' := by
  have ht : Untimed t := fun pid p hp => hs pid p (h.actor? pid ▸ hp)
  have hawake : Unhindered s.awake t.awake := by
    rw [hs.awake, ht.awake]
    exact { h with }
  have hconsult : Unhindered s.awake.consult.2 t.awake.consult.2 :=
    hawake.consult_left.consult_right
  have hagreed : t.awake.consult = (true, t.awake.consult.2) := Prod.ext hawake.agreed rfl
  cases step_cases hstep with
  | nothing hready =>
    exact ⟨t.awake, (Steps.nothing (hawake.ready.trans hready)).step_eq, hawake⟩
  | heldUp => exact absurd rfl hrun
  | @ran pid rest u _ p hready hconsulted hlive hdispatch =>
    rw [hconsulted] at hconsult
    have hlive' := (hconsult.actor? pid).trans hlive
    have hlent : Unhindered { u with ready := rest, registry := u.registry.lend pid }
        { t.awake.consult.2 with
          ready := rest, registry := t.awake.consult.2.registry.lend pid } := by
      rw [hconsult.registry]
      exact { hconsult with registry := rfl, ready := rfl }
    -- The actor is dispatched as it was before the step, for nobody was woken.
    have hp : p.Undated := by
      refine (hs pid p ?_).2
      have hthere : s.awake.actor? pid = some p := by
        rw [Scheduler.actor?, ← (same_of_consult hconsulted).2.2.1]
        exact hlive
      rw [hs.awake] at hthere
      exact hthere
    obtain ⟨t', hdispatch', h'⟩ := hlent.dispatch hp hdispatch hs'
    exact ⟨t', (Steps.ran (hawake.ready.trans hready) hagreed hlive' hdispatch').step_eq, h'⟩
  | @missing pid rest u hready hconsulted hgone =>
    rw [hconsulted] at hconsult
    exact ⟨_, (Steps.missing (hawake.ready.trans hready) hagreed
      ((hconsult.actor? pid).trans hgone)).step_eq, { hconsult with ready := rfl }⟩

/-- A step that is held up makes no difference here. -/
theorem Unhindered.heldUp (h : Unhindered s t) (hs : Untimed s)
    (hstep : s.step budget = some (.interrupted, s')) : Unhindered s' t := by
  cases step_cases hstep with
  | heldUp hready hconsulted =>
    have hawake : Unhindered s.awake t := by
      rw [hs.awake]
      exact { h with }
    have hconsult := hawake.consult_left
    rw [hconsulted] at hconsult
    exact hconsult

/-! ### Courses -/

/-- A command from outside does the same to both, if nobody objects because of it. -/
theorem Unhindered.carryOut {command : Command} (h : Unhindered s t) (hfrom : command.FromOutside)
    (hdone : command.carryOut s = some s') :
    ∃ t', command.lenient.carryOut t = some t' ∧ Unhindered s' t' := by
  cases command with
  | step | run => exact hfrom.elim
  | spawn entry args =>
    obtain rfl := Option.some.inj hdone
    exact ⟨_, rfl, h.after_spawnCallable (.closure entry []) args⟩
  | spawnCallable callee args =>
    obtain rfl := Option.some.inj hdone
    exact ⟨_, rfl, h.after_spawnCallable callee args⟩
  | spawnExport module name args =>
    obtain rfl := Option.some.inj hdone
    refine ⟨_, rfl, ?_⟩
    rw [after_spawnExport_eq, after_spawnExport_eq, h.loader]
    split
    next routine _ => exact h.after_spawnCallable (.closure routine []) args
    next => exact h
  | send receiver payload =>
    obtain rfl := Option.some.inj hdone
    exact ⟨_, rfl, h.deliver receiver payload⟩
  | kill pid =>
    obtain rfl := Option.some.inj hdone
    refine ⟨_, rfl, ?_⟩
    simp only [Scheduler.kill, h.actor?]
    cases s.actor? pid with
    | none => exact h
    | some p =>
      refine Unhindered.finish ?_ pid .killed
      exact { h with
        registry := by rw [h.registry], ready := by rw [h.ready], blocked := by rw [h.blocked] }
  | attach role =>
    obtain rfl := Option.some.inj hdone
    refine ⟨_, rfl, ?_⟩
    exact { h with
      observers := by simp [Scheduler.attach, h.observers, h.nextObserver, Observer.lenient]
      nextObserver := congrArg (· + 1) h.nextObserver }
  | detach id =>
    obtain rfl := Option.some.inj hdone
    refine ⟨_, rfl, ?_⟩
    have hothers : (s.observers.map Observer.lenient).filter (fun o => o.id ≠ id) =
        (s.observers.filter fun o => o.id ≠ id).map Observer.lenient :=
      List.filter_map
    exact { h with
      observers := (congrArg (List.filter fun o : Observer => o.id ≠ id) h.observers).trans hothers }
  | elsewhere clock loader monitor journal =>
    obtain rfl := Option.some.inj hdone
    exact ⟨_, rfl, { h with loader := rfl, monitor := rfl, journal := rfl }⟩

/-- An act that is not held up is the same in both. -/
theorem Unhindered.performs (h : Unhindered s t) (hs : Untimed s) (hs' : Untimed s')
    (hperforms : Performs s act s') (hact : act.heldUp = false) :
    ∃ t', Performs t act.lenient t' ∧ Unhindered s' t' := by
  cases hperforms with
  | @outside command _ hfrom hdone =>
    obtain ⟨t', hdone', h'⟩ := h.carryOut hfrom hdone
    refine ⟨t', .outside ?_ hdone', h'⟩
    cases command <;> exact hfrom
  | @step budget outcome _ htaken =>
    have hrun : outcome ≠ .interrupted := by
      rintro rfl
      cases hact
    obtain ⟨t', htaken', h'⟩ := h.step hs hs' htaken hrun
    exact ⟨t', .step htaken', h'⟩

/-- The same was done in both, and it has led from the same to the same. -/
structure Mirrors (entry entry' : Entry) : Prop where
  /-- The act is the same; if it was a step, so is the answer. -/
  act : entry'.act = entry.act.lenient
  /-- The schedulers were in the same state before, -/
  before : Unhindered entry.before entry'.before
  /-- and they are afterwards. -/
  after : Unhindered entry.after entry'.after

/-- What a step is that was held up. -/
structure Vetoed (s s' : Scheduler) : Prop where
  /-- An observer objects. -/
  objects : ∃ o ∈ s.observers, s.agrees o = false
  /-- No instruction was executed: the step needs no budget for any. -/
  idle : s.step 0 = some (.interrupted, s')
  /-- Every observer was asked, and but for the clock nothing else has changed. -/
  asked : s' = { s with
    clock := s.clock.tick
    observers := s.observers.map Observer.asked
    journal := s.journal ++ (s.observers.flatMap (·.entries .consulted)).toArray }

theorem Untimed.vetoed (hs : Untimed s) (hstep : s.step budget = some (.interrupted, s')) :
    Vetoed s s' := by
  cases step_cases hstep with
  | heldUp hready hconsulted =>
    have hnot : s.awake.consult.1 = false := congrArg Prod.fst hconsulted
    refine ⟨?_, (Steps.heldUp hready hconsulted).step_eq, ?_⟩
    · rw [hs.awake] at hnot
      obtain ⟨o, ho, hobjects⟩ := exists_objection hnot
      exact ⟨o, ho, hobjects⟩
    · obtain rfl : s.awake.consult.2 = s' := congrArg Prod.snd hconsulted
      have hmonitor := (lifecycle_consult s.awake).2
      rw [consult_eq, hs.awake] at hmonitor ⊢
      dsimp only at hmonitor ⊢
      rw [hmonitor]
      simp [Scheduler.told]

/-- What a course comes to if the steps that were held up are left out. -/
structure Transparent (entries : List Entry) (s' t : Scheduler) (entries' : List Entry)
    (t' : Scheduler) : Prop where
  /-- It is a course, -/
  course : Course t entries' t'
  /-- in which the same is done, with the same answers and the same states in between. -/
  mirrors : List.Forall₂ Mirrors (entries.filter fun entry => !entry.act.heldUp) entries'
  /-- The same actors are dispatched, in the same order, -/
  dispatched : entries'.filterMap (·.act.dispatched) = entries.filterMap (·.act.dispatched)
  /-- no step is held up, -/
  unhindered : ∀ entry ∈ entries', entry.act.heldUp = false
  /-- and it ends in the same state. -/
  ends : Unhindered s' t'

theorem Unhindered.course (hst : Unhindered s t) (h : Course s entries s') (hs : Untimed s)
    (hentries : ∀ entry ∈ entries, Untimed entry.after) :
    ∃ entries' t', Transparent entries s' t entries' t' := by
  induction h generalizing t with
  | nil s => exact ⟨[], t, .nil t, .nil, rfl, fun _ => nofun, hst⟩
  | @cons s u v act entries hfirst _ ih =>
    obtain ⟨hu, hrest⟩ := List.forall_mem_cons.1 hentries
    cases hact : act.heldUp with
    | true =>
      -- A step that was held up has no counterpart.
      obtain ⟨budget, rfl⟩ : ∃ budget, act = .step budget .interrupted := by
        cases act with
        | outside => cases hact
        | step budget outcome =>
          cases outcome with
          | interrupted => exact ⟨budget, rfl⟩
          | _ => cases hact
      cases hfirst with
      | step htaken =>
        obtain ⟨entries', t', hrest⟩ := ih (hst.heldUp hs htaken) hu hrest
        refine ⟨entries', t', hrest.course, ?_, hrest.dispatched, hrest.unhindered, hrest.ends⟩
        rw [List.filter_cons_of_neg (by simp [hact])]
        exact hrest.mirrors
    | false =>
      obtain ⟨u', hfirst', hu'⟩ := hst.performs hs hu hfirst hact
      obtain ⟨entries', t', hrest⟩ := ih hu' hu hrest
      refine ⟨_, t', .cons hfirst' hrest.course, ?_, ?_, ?_, hrest.ends⟩
      · rw [List.filter_cons_of_pos (by simp [hact])]
        exact .cons ⟨rfl, hst, hu'⟩ hrest.mirrors
      · have hdispatched : act.lenient.dispatched = act.dispatched := by cases act <;> rfl
        rw [List.filterMap_cons, List.filterMap_cons, hdispatched, hrest.dispatched]
      · refine List.forall_mem_cons.2 ⟨?_, hrest.unhindered⟩
        rw [← hact]
        cases act <;> rfl

theorem Course.vetoed (h : Course s entries s') (hs : Untimed s)
    (hentries : ∀ entry ∈ entries, Untimed entry.after) :
    ∀ entry ∈ entries, entry.act.heldUp → Vetoed entry.before entry.after := by
  induction h with
  | nil => exact fun _ => nofun
  | @cons s u v act entries hfirst _ ih =>
    obtain ⟨hu, hrest⟩ := List.forall_mem_cons.1 hentries
    refine List.forall_mem_cons.2 ⟨fun hact => ?_, ih hu hrest⟩
    cases hfirst with
    | outside => cases hact
    | @step budget outcome _ htaken =>
      cases outcome with
      | interrupted => exact hs.vetoed htaken
      | ran | nothingReady => cases hact

/-- Where nobody waits until a point in time, a course without the steps that were held up is a
course in which nobody objects. A step that is held up does nothing but ask all observers. -/
theorem transparent_of_course (h : Course s entries s') (hst : Unhindered s t) (hs : Untimed s)
    (hentries : ∀ entry ∈ entries, Untimed entry.after) :
    (∃ entries' t', Transparent entries s' t entries' t') ∧
      ∀ entry ∈ entries, entry.act.heldUp → Vetoed entry.before entry.after := by
  exact ⟨hst.course h hs hentries, h.vetoed hs hentries⟩

/-- The monitor is paused when an actor is due, and resumed when a step was held up. Without that
step the actor runs at once. -/
theorem transparent_paused :
    ∃ (s t : Scheduler) (entries : List Entry) (s' : Scheduler),
      entries.map (·.act.heldUp) = [true, false, false] ∧
      entries.filterMap (·.act.dispatched) = [⟨1⟩] ∧ Course s entries s' ∧ Unhindered s t ∧
      Untimed s ∧ (∀ entry ∈ entries, Untimed entry.after) ∧
      (∃ entries' t', Transparent entries s' t entries' t') ∧
      ∀ entry ∈ entries, entry.act.heldUp → Vetoed entry.before entry.after := by
  have hfacts : ((Command.carryOutAll [.attach .monitoring, .spawn returner [],
        .elsewhere .standing .standard { paused := true } #[]]
        (create {} .standard .standing)).any fun s =>
      Untimed s && (s.step 9).any fun (held, u) =>
        held == .interrupted && Untimed u &&
          ((Command.elsewhere .standing .standard {} #[]).carryOut u).any fun v =>
            Untimed v && (v.step 9).any fun (ran, s') => ran == .ran ⟨1⟩ && Untimed s') = true := by
    decide +kernel
  simp only [Option.any_eq_true, Bool.and_eq_true, beq_iff_eq, Prod.exists, decide_eq_true_eq]
    at hfacts
  obtain ⟨s, -, hs, _, u, hheld, ⟨rfl, hu⟩, v, hresumed, hv, _, s', hran, rfl, hs'⟩ := hfacts
  have hresume : Performs u (.outside (.elsewhere .standing .standard {} #[])) v :=
    .outside trivial hresumed
  have hcourse : Course s [⟨s, .step 9 .interrupted, u⟩, ⟨u, .outside _, v⟩,
      ⟨v, .step 9 (.ran ⟨1⟩), s'⟩] s' :=
    .cons (.step hheld) (.cons hresume (.cons (.step hran) (.nil s')))
  have hst : Unhindered s (s.unhindered s.clock s.journal) :=
    unhindered_iff.2 ⟨s.clock, s.journal, rfl, rfl⟩
  have hentries : ∀ entry ∈ [(⟨s, .step 9 .interrupted, u⟩ : Entry),
      ⟨u, .outside (.elsewhere .standing .standard {} #[]), v⟩, ⟨v, .step 9 (.ran ⟨1⟩), s'⟩],
      Untimed entry.after :=
    List.forall_mem_cons.2 ⟨hu, List.forall_mem_cons.2 ⟨hv, List.forall_mem_singleton.2 hs'⟩⟩
  exact ⟨s, _, _, s', rfl, rfl, hcourse, hst, hs, hentries,
    transparent_of_course hcourse hst hs hentries⟩

end Scheduler

end ActorMachine
