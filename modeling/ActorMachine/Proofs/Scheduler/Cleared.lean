import ActorMachine.Proofs.Machine.Cleared
import ActorMachine.Proofs.Scheduler.Observers

/-!
# Schedulers with cleared breakpoints

Two schedulers that are the same but for breakpoints do the same in every step, and the second one
reports fewer breakpoints.

* `Abridges`: a list with some of its elements left out.
* `Scheduler.Cleared`: the second scheduler is the first one with some breakpoints cleared in its
  code and with some reports of breakpoints left out.
* `Cleared.turn`: a turn makes no difference between the two. Where a breakpoint was cleared for the
  second one, it is another report that is left out.
* `rel_attend`, `rel_step`, `rel_run`: nor do dispatches, steps and runs.
-/

namespace ActorMachine

/-! ### Lists with omissions -/

section Abridges

variable {α α' : Type} {P : α → Prop} {R : α → α' → Prop} {as bs : List α} {as' bs' : List α'}

/-- The second list is the first one without some of the elements that may be left out. What is not
left out is related. -/
inductive Abridges (P : α → Prop) (R : α → α' → Prop) : List α → List α' → Prop
  /-- Nothing is left. -/
  | nil : Abridges P R [] []
  /-- The first element is kept. -/
  | keep {a : α} {a' : α'} {as : List α} {as' : List α'} (related : R a a')
      (rest : Abridges P R as as') : Abridges P R (a :: as) (a' :: as')
  /-- It is left out. -/
  | skip {a : α} {as : List α} {as' : List α'} (spare : P a) (rest : Abridges P R as as') :
      Abridges P R (a :: as) as'

theorem Abridges.append (h : Abridges P R as as') (h' : Abridges P R bs bs') :
    Abridges P R (as ++ bs) (as' ++ bs') := by
  induction h with
  | nil => exact h'
  | keep hrelated _ ih => exact .keep hrelated ih
  | skip hspare _ ih => exact .skip hspare ih

theorem abridges_of_forall₂ (h : List.Forall₂ R as as') : Abridges P R as as' := by
  induction h with
  | nil => exact .nil
  | cons hrelated _ ih => exact .keep hrelated ih

theorem abridges_nil (h : ∀ a ∈ as, P a) : Abridges P R as ([] : List α') := by
  induction as with
  | nil => exact .nil
  | cons a as ih =>
    obtain ⟨ha, has⟩ := List.forall_mem_cons.1 h
    exact .skip ha (ih has)

theorem abridges_flatMap {β β' : Type} {Q : β → β' → Prop} {f : β → List α} {f' : β' → List α'}
    {bs : List β} {bs' : List β'} (h : List.Forall₂ Q bs bs')
    (hf : ∀ b b', Q b b' → Abridges P R (f b) (f' b')) :
    Abridges P R (bs.flatMap f) (bs'.flatMap f') := by
  induction h with
  | nil => exact .nil
  | cons hb _ ih =>
    rw [List.flatMap_cons, List.flatMap_cons]
    exact (hf _ _ hb).append ih

end Abridges

/-! ### Events and counters -/

/-- A breakpoint is reported. -/
def Event.isBreakpoint : Event → Bool
  | breakpoint .. => true
  | _ => false

/-- The second event is the first one with some breakpoints cleared in the code of a result. -/
inductive Event.Cleared : Event → Event → Prop
  /-- It is the same. -/
  | same (event : Event) : Cleared event event
  /-- The actor has ended for the same reason. -/
  | ended (pid : Pid) {reason reason' : ExitReason} (same : reason.Cleared reason') :
      Cleared (.ended pid reason) (.ended pid reason')

theorem Event.Cleared.occurrence? {event event' : Event} (h : event.Cleared event') :
    event'.occurrence? = event.occurrence? := by
  cases h <;> rfl

/-- The second journal is the first one without the reports of some breakpoints. -/
abbrev JournalCleared : List (ObserverId × Event) → List (ObserverId × Event) → Prop :=
  Abridges (fun entry => entry.2.isBreakpoint = true) fun entry entry' =>
    entry'.1 = entry.1 ∧ entry.2.Cleared entry'.2

/-- The second counters are the first ones, except that fewer breakpoints may have been counted. -/
structure Counters.Cleared (c d : Counters) : Prop where
  /-- As many actors were started, -/
  spawned : d.spawned = c.spawned
  /-- as many have ended, -/
  exited : d.exited = c.exited
  /-- as many of these by faults, -/
  errors : d.errors = c.errors
  /-- no more breakpoints were executed, -/
  breaks : d.breaks ≤ c.breaks
  /-- and there were as many links. -/
  links : d.links = c.links

theorem Counters.Cleared.count {c d : Counters} (h : c.Cleared d) (o : Occurrence) :
    (c.count o).Cleared (d.count o) := by
  obtain ⟨hspawned, hexited, herrors, hbreaks, hlinks⟩ := h
  cases o <;> constructor <;> simp only [Counters.count] <;> omega

/-- The second monitor is the first one, except that it may have heard of fewer breakpoints. -/
structure Monitor.Cleared (m n : Monitor) : Prop where
  /-- Both are paused or neither is. -/
  paused : n.paused = m.paused
  /-- Some breakpoints may be missing in the queue, -/
  queue : Abridges (· = .breakpoint) Eq m.queue n.queue
  /-- and in the counters. -/
  counters : m.counters.Cleared n.counters

theorem Monitor.Cleared.record {m n : Monitor} (h : m.Cleared n) (o : Occurrence) :
    (m.record o).Cleared (n.record o) :=
  { h with queue := h.queue.append (.keep rfl .nil) }

/-- Reading the counters comes to the same but for breakpoints. -/
theorem Monitor.Cleared.read {m n : Monitor} (h : m.Cleared n) :
    m.read.1.Cleared n.read.1 ∧ m.read.2.Cleared n.read.2 := by
  have hfold {queue queue' : List Occurrence} (hqueue : Abridges (· = .breakpoint) Eq queue queue')
      {c d : Counters} (hc : c.Cleared d) :
      (queue.foldl Counters.count c).Cleared (queue'.foldl Counters.count d) := by
    induction hqueue generalizing c d with
    | nil => exact hc
    | @keep o o' _ _ heq _ ih => exact heq ▸ ih (hc.count o)
    | skip hbreak _ ih =>
      subst hbreak
      exact ih { hc with breaks := Nat.le_succ_of_le hc.breaks }
  have hread := hfold h.queue h.counters
  exact ⟨hread, { h with queue := .nil, counters := hread }⟩

theorem Observer.occurrences_eq (o : Observer) {event event' : Event} (h : event.Cleared event') :
    o.occurrences event' = o.occurrences event := by
  rw [Observer.occurrences, Observer.occurrences, h.occurrence?]

theorem Observer.entries_cleared (o : Observer) {event event' : Event} (h : event.Cleared event') :
    JournalCleared (o.entries event) (o.entries event') := by
  rw [Observer.entries, Observer.entries]
  split
  next => exact .keep ⟨rfl, h⟩ .nil
  next => exact .nil

/-! ### Tables -/

namespace Table

variable {α α' : Type} {R : α → α' → Prop} {t : Table α} {t' : Table α'}

/-- Related values stand under the same pids. -/
def Matches (R : α → α' → Prop) (t : Table α) (t' : Table α') : Prop :=
  List.Forall₂ (fun entry entry' => entry'.1 = entry.1 ∧ R entry.2 entry'.2) t.entries t'.entries

theorem Matches.find? (h : t.Matches R t') (pid : Pid) :
    Option.Rel R (t.find? pid) (t'.find? pid) := by
  rw [Table.find?, Table.find?]
  refine rel_map (rel_find? h fun entry entry' hentry => ?_) fun entry entry' hentry => hentry.2
  rw [hentry.1]

theorem Matches.erase (h : t.Matches R t') (pid : Pid) :
    (t.erase pid).Matches R (t'.erase pid) := by
  refine List.rel_filter ?_ h
  intro entry entry' hentry
  simp only [hentry.1]

theorem Matches.insert (h : t.Matches R t') (pid : Pid) {a : α} {a' : α'} (ha : R a a') :
    (t.insert pid a).Matches R (t'.insert pid a') :=
  .cons ⟨rfl, ha⟩ (h.erase pid)

theorem Matches.values (h : t.Matches R t') : List.Forall₂ R t.values t'.values := by
  refine List.rel_map ?_ h
  intro entry entry' hentry
  exact hentry.2

theorem Matches.size (h : t.Matches R t') : t'.size = t.size :=
  h.length_eq.symm

end Table

/-- The second registry is the first one with some breakpoints cleared. -/
structure Registry.Cleared (r r' : Registry) : Prop where
  /-- The same actors live, -/
  living : r.living.Matches Actor.Cleared r'.living
  /-- the others have ended for the same reasons, -/
  exits : r.exits.Matches ExitReason.Cleared r'.exits
  /-- and the next actor gets the same pid. -/
  nextPid : r'.nextPid = r.nextPid

namespace Registry

variable {r r' : Registry} {p q : Actor}

theorem Cleared.enroll (h : r.Cleared r') (hpq : p.Cleared q) :
    (r.enroll p).Cleared (r'.enroll q) := by
  rw [Registry.enroll, Registry.enroll, h.nextPid]
  exact ⟨h.living.insert r.nextPid hpq, h.exits, rfl⟩

theorem Cleared.lend (h : r.Cleared r') (pid : Pid) : (r.lend pid).Cleared (r'.lend pid) :=
  { h with living := h.living.erase pid }

theorem Cleared.put (h : r.Cleared r') (hpq : p.Cleared q) : (r.put p).Cleared (r'.put q) := by
  rw [Registry.put, Registry.put, hpq.pid]
  exact { h with living := h.living.insert p.pid hpq }

theorem Cleared.retire (h : r.Cleared r') (pid : Pid) {reason reason' : ExitReason}
    (hreason : reason.Cleared reason') : (r.retire pid reason).Cleared (r'.retire pid reason') :=
  { h with exits := h.exits.insert pid hreason }

/-- The same code is kept but for breakpoints. -/
theorem Cleared.routines (h : r.Cleared r') :
    List.Forall₂ Routine.Cleared r.routines r'.routines := by
  refine List.rel_append (List.rel_flatMap h.living.values ?_) (List.rel_flatMap h.exits.values ?_)
  · intro p q hpq
    exact hpq.routines
  · intro reason reason' hreason
    exact hreason.routines

end Registry

namespace Scheduler

/-- The second scheduler is the first one with some breakpoints cleared in its code and with reports
of breakpoints left out. -/
structure Cleared (s t : Scheduler) : Prop where
  /-- The settings are the same, -/
  config : t.config = s.config
  /-- the modules but for breakpoints, -/
  loader : s.loader.Cleared t.loader
  /-- the actors and the reasons of those that have ended, -/
  registry : s.registry.Cleared t.registry
  /-- the queue, -/
  ready : t.ready = s.ready
  /-- those that wait, -/
  blocked : t.blocked = s.blocked
  /-- the observers, -/
  observers : t.observers = s.observers
  /-- how many of them there ever were, -/
  nextObserver : t.nextObserver = s.nextObserver
  /-- what the monitor has heard but for breakpoints, -/
  monitor : s.monitor.Cleared t.monitor
  /-- the clock, -/
  clock : t.clock = s.clock
  /-- and what the observers were told but for breakpoints. -/
  journal : JournalCleared s.journal.toList t.journal.toList

variable {s s' t t' : Scheduler} {p q : Actor} {budget : Nat}

theorem cleared_create (config : SchedulerConfig) {loader loader' : Loader}
    (h : loader.Cleared loader') (clock : Clock) :
    (create config loader clock).Cleared (create config loader' clock) where
  config := rfl
  loader := h
  registry := ⟨.nil, .nil, rfl⟩
  ready := rfl
  blocked := rfl
  observers := rfl
  nextObserver := rfl
  monitor := ⟨rfl, .nil, rfl, rfl, rfl, Nat.le_refl 0, rfl⟩
  clock := rfl
  journal := .nil

/-- The same actors live, and they are the same but for breakpoints. -/
theorem Cleared.actor? (h : s.Cleared t) (pid : Pid) :
    Option.Rel Actor.Cleared (s.actor? pid) (t.actor? pid) :=
  h.registry.living.find? pid

/-- The others have ended for the same reasons. -/
theorem Cleared.exitReason? (h : s.Cleared t) (pid : Pid) :
    Option.Rel ExitReason.Cleared (s.exitReason? pid) (t.exitReason? pid) :=
  h.registry.exits.find? pid

theorem Cleared.live (h : s.Cleared t) : t.live = s.live :=
  h.registry.living.size

/-! ### What is told -/

/-- Both tell the same of the same events. -/
theorem Cleared.told (h : s.Cleared t) {events events' : List Event}
    (hevents : List.Forall₂ Event.Cleared events events') :
    (s.told events).Cleared (t.told events') := by
  have hobservers : List.Forall₂ Eq s.observers s.observers := List.forall₂_same.2 fun _ _ => rfl
  -- Each observer hears of matching events one by one, and of a breakpoint perhaps only in one.
  have hoccurrences : Abridges (· = .breakpoint) Eq
      (events.flatMap fun e => s.observers.flatMap (·.occurrences e))
      (events'.flatMap fun e => s.observers.flatMap (·.occurrences e)) := by
    refine abridges_flatMap hevents fun e e' he => abridges_flatMap hobservers fun o _ heq => ?_
    rw [← heq, o.occurrences_eq he]
    exact abridges_of_forall₂ (List.forall₂_same.2 fun _ _ => rfl)
  have hentries : JournalCleared (events.flatMap fun e => s.observers.flatMap (·.entries e))
      (events'.flatMap fun e => s.observers.flatMap (·.entries e)) := by
    refine abridges_flatMap hevents fun e e' he => abridges_flatMap hobservers fun o _ heq => ?_
    rw [← heq]
    exact o.entries_cleared he
  rw [Scheduler.told, Scheduler.told, h.observers]
  have hjournal := h.journal.append hentries
  exact { h with
    observers := rfl
    monitor := { h.monitor with queue := h.monitor.queue.append hoccurrences }
    journal := by simpa using hjournal }

/-- A breakpoint that was cleared is not reported. -/
theorem Cleared.told_left (h : s.Cleared t) (pid : Pid) (ip : Nat) :
    (s.told [.breakpoint pid ip]).Cleared t := by
  -- All that is noted of a breakpoint is a breakpoint, and that may be left out.
  have hoccurrences : ∀ k ∈ s.observers.flatMap (·.occurrences (.breakpoint pid ip)),
      k = .breakpoint := by
    intro k hk
    obtain ⟨o, -, ho⟩ := List.mem_flatMap.1 hk
    rw [Observer.occurrences] at ho
    split at ho
    next => exact List.mem_singleton.1 ho
    next => cases ho
  have hentries : ∀ entry ∈ s.observers.flatMap (·.entries (.breakpoint pid ip)),
      entry.2.isBreakpoint = true := by
    intro entry hentry
    obtain ⟨o, -, ho⟩ := List.mem_flatMap.1 hentry
    rw [Observer.entries] at ho
    split at ho
    next => rw [List.mem_singleton.1 ho]; rfl
    next => cases ho
  have hqueue : Abridges (· = .breakpoint) Eq
      (s.monitor.queue ++ s.observers.flatMap (·.occurrences (.breakpoint pid ip)))
      t.monitor.queue := by
    simpa using h.monitor.queue.append (abridges_nil hoccurrences)
  have hjournal : JournalCleared
      (s.journal.toList ++ s.observers.flatMap (·.entries (.breakpoint pid ip)))
      t.journal.toList := by
    simpa using Abridges.append h.journal (abridges_nil hentries)
  rw [Scheduler.told, List.flatMap_singleton, List.flatMap_singleton]
  exact { h with monitor := { h.monitor with queue := hqueue }, journal := by simpa using hjournal }

/-- The same observers agree. -/
theorem Cleared.consult (h : s.Cleared t) :
    t.consult.1 = s.consult.1 ∧ s.consult.2.Cleared t.consult.2 := by
  have htold := h.told (.cons (.same .consulted) .nil)
  have hagrees (o : Observer) :
      (t.told [.consulted]).agrees o = (s.told [.consulted]).agrees o := by
    rw [agrees, agrees, htold.monitor.paused]
  refine ⟨?_, ?_⟩
  · rw [Scheduler.consult, Scheduler.consult, notify_eq, notify_eq]
    rw [htold.observers]
    exact List.all_congr rfl hagrees
  · rw [consult_eq, consult_eq]
    exact { htold with observers := by rw [h.observers] }

/-! ### What is done for actors -/

theorem Cleared.makeReady (h : s.Cleared t) (pid : Pid) :
    (s.makeReady pid).Cleared (t.makeReady pid) := by
  rw [Scheduler.makeReady, Scheduler.makeReady, h.blocked]
  split
  next =>
    dsimp only
    have hunblocked : Cleared { s with blocked := s.blocked.filter (· ≠ pid) }
        { t with blocked := s.blocked.filter (· ≠ pid) } := { h with blocked := rfl }
    rcases eq_of_rel (hunblocked.actor? pid) with ⟨hnone, hnone'⟩ | ⟨p, q, hp, hq, hpq⟩
    · rw [hnone, hnone']
      exact hunblocked
    · rw [hp, hq]
      dsimp only
      have hwoken : Actor.Cleared { p with wait := none, state := .ready }
          { q with wait := none, state := .ready } := { hpq with wait := rfl, state := rfl }
      exact { hunblocked with registry := h.registry.put hwoken, ready := by rw [h.ready] }
  next => exact h

theorem Cleared.deadlineOf? (h : s.Cleared t) (pid : Pid) :
    t.deadlineOf? pid = s.deadlineOf? pid := by
  rw [Scheduler.deadlineOf?, Scheduler.deadlineOf?]
  rcases eq_of_rel (h.actor? pid) with ⟨hnone, hnone'⟩ | ⟨p, q, hp, hq, hpq⟩
  · rw [hnone, hnone']
  · rw [hp, hq]
    simp only [Option.bind_eq_bind, Option.bind_some, hpq.wait]

/-- The same deadlines have come. -/
theorem Cleared.wakeExpired (h : s.Cleared t) (now : Time) :
    (s.wakeExpired now).Cleared (t.wakeExpired now) := by
  have hfold (pids : List Pid) {s t : Scheduler} (h : s.Cleared t) :
      (pids.foldl Scheduler.makeReady s).Cleared (pids.foldl Scheduler.makeReady t) := by
    induction pids generalizing s t with
    | nil => exact h
    | cons pid pids ih => exact ih (h.makeReady pid)
  rw [Scheduler.wakeExpired, Scheduler.wakeExpired, h.blocked]
  simp only [h.deadlineOf?]
  exact hfold _ h

theorem Cleared.nextDeadline? (h : s.Cleared t) : t.nextDeadline? = s.nextDeadline? := by
  rw [Scheduler.nextDeadline?, Scheduler.nextDeadline?, h.blocked]
  simp only [h.deadlineOf?]

theorem Cleared.awake (h : s.Cleared t) : s.awake.Cleared t.awake := by
  rw [Scheduler.awake, Scheduler.awake, h.clock]
  exact { h.wakeExpired s.clock.now with clock := rfl }

/-- An actor is handed out. -/
theorem Cleared.lend (h : s.Cleared t) (pid : Pid) :
    Cleared { s with registry := s.registry.lend pid } { t with registry := t.registry.lend pid } :=
  { h with registry := h.registry.lend pid }

/-- An actor is taken back. -/
theorem Cleared.put (h : s.Cleared t) (hpq : p.Cleared q) :
    Cleared { s with registry := s.registry.put p } { t with registry := t.registry.put q } :=
  { h with registry := h.registry.put hpq }

theorem Cleared.deliver (h : s.Cleared t) (receiver : Pid) {payload payload' : Payload}
    (hpayload : payload.Cleared payload') :
    (s.deliver receiver payload).Cleared (t.deliver receiver payload') := by
  rw [Scheduler.deliver, Scheduler.deliver]
  rcases eq_of_rel (h.actor? receiver) with ⟨hnone, hnone'⟩ | ⟨p, q, hp, hq, hpq⟩
  · rw [hnone, hnone']
    exact h
  · rw [hp, hq]
    dsimp only
    rcases (Actor.agrees_deliver hpayload).runs hpq with
      ⟨_, _, p', q', hrun, hrun', -, hpq'⟩ | ⟨fault, p', q', hrun, hrun', hpq'⟩
    · rw [hrun, hrun']
      dsimp only
      rw [hpq'.awaitsMessage]
      split
      next => exact ((h.lend receiver).put hpq').makeReady receiver
      next => exact (h.lend receiver).put hpq'
    · rw [hrun, hrun']
      exact (h.lend receiver).put hpq'

/-- The same actors can be started. -/
theorem agrees_spawnCallable {callee callee' : Payload} {args args' : List Payload}
    (hcallee : callee.Cleared callee') (hargs : List.Forall₂ Payload.Cleared args args') :
    Agrees Cleared Eq (Scheduler.spawnCallable callee args)
      (Scheduler.spawnCallable callee' args') := by
  refine agrees_get_bind fun s t h => ?_
  dsimp only
  rw [h.registry.nextPid, h.config]
  rcases (Actor.agrees_start hcallee hargs).runs
      (Actor.cleared_create s.registry.nextPid s.config.actor) with
    ⟨_, _, p, q, hrun, hrun', -, hpq⟩ | ⟨fault, p, q, hrun, hrun', hpq⟩
  · rw [hrun, hrun']
    dsimp only
    refine (agrees_modify fun s t h => ?_).andThen fun _ => agrees_pure rfl
    rw [notify_eq, notify_eq]
    refine Cleared.told ?_ (.cons (.same _) .nil)
    exact { h with registry := h.registry.enroll hpq, ready := by rw [h.ready] }
  · rw [hrun, hrun']
    exact agrees_throw fault

theorem Cleared.finish (h : s.Cleared t) (pid : Pid) {reason reason' : ExitReason}
    (hreason : reason.Cleared reason') : (s.finish pid reason).Cleared (t.finish pid reason') := by
  have hclosing : List.Forall₂ Event.Cleared (closing pid reason) (closing pid reason') := by
    cases hreason with
    | same => exact List.forall₂_same.2 fun _ _ => .same _
    | normal hresult => exact .cons (.ended pid (.normal hresult)) .nil
  have htold := h.told hclosing
  rw [finish_eq, finish_eq]
  exact { htold with registry := h.registry.retire pid hreason }

/-- The same actor is killed. -/
theorem Cleared.kill (h : s.Cleared t) (pid : Pid) :
    (t.kill pid).1 = (s.kill pid).1 ∧ (s.kill pid).2.Cleared (t.kill pid).2 := by
  rw [Scheduler.kill, Scheduler.kill]
  rcases eq_of_rel (h.actor? pid) with ⟨hnone, hnone'⟩ | ⟨p, q, hp, hq, -⟩
  · rw [hnone, hnone']
    exact ⟨rfl, h⟩
  · rw [hp, hq]
    refine ⟨rfl, Cleared.finish ?_ pid (.same .killed)⟩
    exact { h.lend pid with ready := by rw [h.ready], blocked := by rw [h.blocked] }

theorem Cleared.collectModules (h : s.Cleared t) :
    t.collectModules.1 = s.collectModules.1 ∧ s.collectModules.2.Cleared t.collectModules.2 := by
  obtain ⟨hcount, hloader⟩ := h.loader.collectGarbage h.registry.routines
  rw [Scheduler.collectModules, Scheduler.collectModules, isEmpty_eq_of_forall₂ h.loader.garbage]
  split
  next => exact ⟨rfl, h⟩
  next => exact ⟨hcount, { h with loader := hloader }⟩

theorem Cleared.park (h : s.Cleared t) (hpq : p.Cleared q) : (s.park p).Cleared (t.park q) := by
  rw [Scheduler.park, Scheduler.park, hpq.state, hpq.pid]
  have hput := h.registry.put hpq
  split
  next => exact { h with ready := by rw [h.ready], registry := hput }
  next => exact { h with blocked := by rw [h.blocked], registry := hput }

/-! ### Turns -/

/-- The second verdict is the first one with some breakpoints cleared in the reason. -/
inductive Verdict.Cleared : Verdict → Verdict → Prop
  /-- The actor goes on, gives way or waits. -/
  | same (verdict : Verdict) : Cleared verdict verdict
  /-- It has ended. -/
  | stop {reason reason' : ExitReason} (same : reason.Cleared reason') :
      Cleared (.stop reason) (.stop reason')

/-- What becomes of a scheduler and of the actor in hand is the same but for breakpoints. -/
structure TurnCleared (x y : Scheduler × Actor × Verdict) : Prop where
  /-- The schedulers are the same, -/
  scheduler : x.1.Cleared y.1
  /-- so are the actors, -/
  actor : x.2.1.Cleared y.2.1
  /-- and how it goes on with them. -/
  verdict : x.2.2.Cleared y.2.2

/-- A fault that is not caught ends both actors. -/
theorem turnCleared_recover (h : s.Cleared t) (hpq : p.Cleared q) (guarded : Bool) (fault : Fault) :
    TurnCleared
      (match (if guarded then Actor.failProtectedCall fault else Actor.unwind fault) p with
        | .ok _ p => (s, p, .resume)
        | .error fault p => (s, p, .stop (.error fault)))
      (match (if guarded then Actor.failProtectedCall fault else Actor.unwind fault) q with
        | .ok _ q => (t, q, .resume)
        | .error fault q => (t, q, .stop (.error fault))) := by
  have hrecover : Respects Actor.Cleared Eq
      (if guarded then Actor.failProtectedCall fault else Actor.unwind fault) := by
    split
    next => exact Actor.respects_failProtectedCall fault
    next => exact Actor.respects_unwind fault
  rcases hrecover.runs hpq with ⟨_, _, p', q', hrun, hrun', -, hpq'⟩ |
    ⟨fault', p', q', hrun, hrun', hpq'⟩
  · rw [hrun, hrun']
    exact ⟨h, hpq', .same _⟩
  · rw [hrun, hrun']
    exact ⟨h, hpq', .same _⟩

theorem Cleared.startRequested (h : s.Cleared t) (hpq : p.Cleared q) {callee callee' : Payload}
    {args args' : List Payload} (hcallee : callee.Cleared callee')
    (hargs : List.Forall₂ Payload.Cleared args args') (guarded : Bool) :
    TurnCleared (s.startRequested callee args guarded p)
      (t.startRequested callee' args' guarded q) := by
  rw [Scheduler.startRequested, Scheduler.startRequested]
  rcases (agrees_spawnCallable hcallee hargs).runs h with
    ⟨child, _, s', t', hrun, hrun', rfl, h'⟩ | ⟨fault, s', t', hrun, hrun', h'⟩
  · rw [hrun, hrun']
    dsimp only
    rcases (Actor.respects_onStack (Stack.setAt (-1) (.pid child))).runs hpq with
      ⟨_, _, p', q', hset, hset', -, hpq'⟩ | ⟨fault, p', q', hset, hset', hpq'⟩
    · rw [hset, hset']
      exact ⟨h', hpq', .same _⟩
    · rw [hset, hset']
      exact turnCleared_recover h' hpq' guarded fault
  · rw [hrun, hrun']
    exact turnCleared_recover h' hpq guarded fault

/-- What both actors ask for is done. -/
theorem Cleared.settle (h : s.Cleared t) (hpq : p.Cleared q) {outcome outcome' : Outcome}
    (ho : outcome.Cleared outcome') : TurnCleared (s.settle outcome p) (t.settle outcome' q) := by
  -- What is sent may differ in the code of closures, so a send is settled for any two payloads.
  have hsend (receiver : Pid) {payload payload' : Payload} (hpayload : payload.Cleared payload') :
      TurnCleared (s.settle (.send receiver payload) p) (t.settle (.send receiver payload') q) := by
    rw [Scheduler.settle, Scheduler.settle, hpq.pid]
    split
    next =>
      rcases (Actor.agrees_deliver hpayload).runs hpq with
        ⟨_, _, p', q', hrun, hrun', -, hpq'⟩ | ⟨fault, p', q', hrun, hrun', hpq'⟩
      · rw [hrun, hrun']
        exact ⟨h, hpq', .same _⟩
      · rw [hrun, hrun']
        exact ⟨h, hpq', .same _⟩
    next => exact ⟨h.deliver receiver hpayload, hpq, .same _⟩
  cases ho with
  | send receiver hpayload => exact hsend receiver hpayload
  | newActor guarded hcallee hargs => exact h.startRequested hpq hcallee hargs guarded
  | same =>
    cases outcome with
    | send receiver payload => exact hsend receiver (.same payload)
    | newActor callee args guarded =>
      exact h.startRequested hpq (.same callee) (Payload.cleared_all_refl args) guarded
    | breakpoint ip =>
      rw [Scheduler.settle, Scheduler.settle, notify_eq, notify_eq, hpq.pid]
      exact ⟨h.told (.cons (.same _) .nil), hpq, .same _⟩
    | giveWay => exact ⟨h, { hpq with state := rfl }, .same _⟩
    | block deadline => exact ⟨h, { hpq with wait := rfl, state := rfl }, .same _⟩
    | sleep deadline => exact ⟨h, { hpq with wait := rfl, state := rfl }, .same _⟩
    | exit result =>
      rw [Scheduler.settle, Scheduler.settle]
      rcases (Payload.alike_capture hpq.heap result).results with
        ⟨payload, payload', hcapture, hcapture', hpayload⟩ | ⟨fault, hcapture, hcapture'⟩
      · rw [hcapture, hcapture']
        exact ⟨h, hpq, .stop (.normal hpayload)⟩
      · rw [hcapture, hcapture']
        exact ⟨h, hpq, .same _⟩
    | trap fault => exact ⟨h, hpq, .same _⟩

/-- A turn makes no difference: either both actors do the same, or the first one reports a
breakpoint that was cleared for the second one. -/
theorem Cleared.turn (h : s.Cleared t) (hpq : p.Cleared q) : TurnCleared (s.turn p) (t.turn q) := by
  have hticked : Cleared { s with clock := s.clock.tick } { t with clock := t.clock.tick } :=
    { h with clock := by rw [h.clock] }
  obtain ⟨hecho, hpq'⟩ := Machine.echoes_advance h.loader s.clock.now hpq
  rw [Scheduler.turn, Scheduler.turn]
  have hclock : t.clock.now = s.clock.now := by rw [h.clock]
  rw [hclock]
  generalize Machine.advance s.loader s.clock.now p = answer at hecho hpq' ⊢
  generalize Machine.advance t.loader s.clock.now q = answer' at hecho hpq' ⊢
  obtain ⟨o, p'⟩ := answer
  obtain ⟨o', q'⟩ := answer'
  cases hecho with
  | goOn => exact ⟨hticked, hpq', .same _⟩
  | ask ho => exact hticked.settle hpq' ho
  | cleared ip =>
    dsimp only
    rw [Scheduler.settle, notify_eq]
    exact ⟨hticked.told_left p'.pid ip, hpq', .same _⟩

/-- Attending to both actors takes the same turns. -/
theorem rel_attend (h : s.Cleared t) (hpq : p.Cleared q) (budget : Nat) :
    Option.Rel (fun x y => x.1.Cleared y.1 ∧ x.2.1.Cleared y.2.1 ∧
        Option.Rel ExitReason.Cleared x.2.2 y.2.2)
      (attend budget s p) (attend budget t q) := by
  induction budget generalizing s t p q with
  | zero => exact .none
  | succ budget ih =>
    have hturn := h.turn hpq
    rw [attend_succ, attend_succ]
    generalize s.turn p = x at hturn ⊢
    generalize t.turn q = y at hturn ⊢
    obtain ⟨s', p', v⟩ := x
    obtain ⟨t', q', v'⟩ := y
    obtain ⟨h', hpq', hv⟩ := hturn
    -- The verdicts are the same but for the results that actors end with.
    cases hv with
    | same =>
      cases v with
      | resume => exact ih h' hpq'
      | suspend => exact .some ⟨h', hpq', .none⟩
      | stop reason => exact .some ⟨h', hpq', .some (.same reason)⟩
    | stop hreason => exact .some ⟨h', hpq', .some hreason⟩

theorem prepared_cleared (hpq : p.Cleared q) : (prepared p).Cleared (prepared q) := by
  have hrunning : Actor.Cleared { p with state := .running } { q with state := .running } :=
    { hpq with state := rfl }
  rw [prepared, prepared]
  dsimp only
  rw [hpq.heap.shouldCollect]
  split
  next =>
    rcases Actor.respects_collectGarbage.runs hrunning with
      ⟨_, _, p', q', hrun, hrun', -, hpq'⟩ | ⟨fault, p', q', hrun, hrun', hpq'⟩
    · rw [hrun, hrun']
      exact hpq'
    · rw [hrun, hrun']
      exact hpq'
  next => exact hrunning

theorem rel_dispatch (h : s.Cleared t) (hpq : p.Cleared q) (budget : Nat) :
    Option.Rel Cleared (dispatch budget p s) (dispatch budget q t) := by
  refine rel_bind (rel_attend h (prepared_cleared hpq) budget) ?_
  rintro ⟨s', p', reason⟩ ⟨t', q', reason'⟩ ⟨h', hpq', hreason⟩
  cases hreason with
  | none => exact .some (h'.park hpq')
  | some hreason =>
    dsimp only
    rw [hpq.pid]
    exact .some (h'.finish p.pid hreason).collectModules.2

/-- Both take the same step, with the same answer. -/
theorem rel_step (h : s.Cleared t) (budget : Nat) :
    Option.Rel (fun x y => y.1 = x.1 ∧ x.2.Cleared y.2) (s.step budget) (t.step budget) := by
  have hawake := h.awake
  obtain ⟨hagreed, hasked⟩ := hawake.consult
  rw [Scheduler.step, Scheduler.step]
  extract_lets woken woken'
  rw [show ({ woken with clock := s.clock.tick } : Scheduler) = s.awake from rfl,
    show ({ woken' with clock := t.clock.tick } : Scheduler) = t.awake from rfl, hawake.ready]
  split
  next => exact .some ⟨rfl, hawake⟩
  next pid rest _ =>
    generalize s.awake.consult = x at hagreed hasked ⊢
    generalize t.awake.consult = y at hagreed hasked ⊢
    obtain ⟨agreed, s'⟩ := x
    obtain ⟨_, t'⟩ := y
    obtain rfl := hagreed
    dsimp only at hasked ⊢
    split
    next => exact .some ⟨rfl, hasked⟩
    next =>
      -- The same pid is first in both queues, and is of a live actor in both or in none.
      have hqueued : Cleared { s' with ready := rest } { t' with ready := rest } :=
        { hasked with ready := rfl }
      rcases eq_of_rel (hqueued.actor? pid) with ⟨hnone, hnone'⟩ | ⟨p, q, hp, hq, hpq⟩
      · rw [hnone, hnone']
        exact .some ⟨rfl, hqueued⟩
      · rw [hp, hq]
        exact rel_bind (rel_dispatch (hqueued.lend pid) hpq budget) fun _ _ h' => .some ⟨rfl, h'⟩

/-- Both runs take the same steps and stop for the same reason. -/
theorem rel_run (h : s.Cleared t) (budget : Nat) :
    Option.Rel (fun x y => y.1 = x.1 ∧ x.2.Cleared y.2) (run budget s) (run budget t) := by
  induction budget generalizing s t with
  | zero => exact .none
  | succ budget ih =>
    rw [run, run]
    rcases eq_of_rel (rel_step h budget) with
      ⟨hnone, hnone'⟩ | ⟨⟨outcome, s'⟩, ⟨outcome', t'⟩, hsome, hsome', heq, h'⟩
    · rw [hnone, hnone']
      exact .none
    · rw [hsome, hsome']
      dsimp only at heq h'
      subst heq
      cases outcome' with
      | ran pid => exact ih h'
      | interrupted => exact .some ⟨rfl, h'⟩
      -- Whether somebody is left and when the next one is due is the same in both.
      | nothingReady =>
        dsimp only
        rw [h'.live, h'.nextDeadline?]
        split
        next => exact .some ⟨rfl, h'⟩
        next =>
          split
          next deadline _ => exact ih { h' with clock := by rw [h'.clock] }
          next => exact .some ⟨rfl, h'⟩

end Scheduler

end ActorMachine
