import Mathlib.Data.List.Nodup
import ActorMachine.Scheduler.Run

/-!
# What the tables of a scheduler show

* `SameOff`: two registries that show the same under all pids but one. Handing out an actor, taking
  it back and recording its end are changes of this kind.
* `told`: what it comes to that the observers are told of something. `notify_eq`, `finish_eq` and
  `consult_eq` say who is told of what, and that this changes neither the registry nor the queues.
-/

namespace ActorMachine

/-- What an observer that is told of an event writes into the journal. -/
def Observer.entries (event : Event) (o : Observer) : List (ObserverId × Event) :=
  match o.role with
  | .logging _ => [(o.id, event)]
  | _ => []

/-- What it tells the monitor. -/
def Observer.occurrences (event : Event) (o : Observer) : List Occurrence :=
  match o.role with
  | .monitoring => event.occurrence?.toList
  | _ => []

namespace Table

variable {α : Type}

/-- The pids of a table are those under which something is found. -/
theorem isSome_find?_iff (t : Table α) (pid : Pid) :
    (t.find? pid).isSome ↔ pid ∈ t.entries.map Prod.fst := by
  rw [find?, Option.isSome_map, List.find?_isSome]
  simp

/-- A table of size zero is one in which nothing is found. -/
theorem size_eq_zero_iff (t : Table α) : t.size = 0 ↔ ∀ pid, t.find? pid = none := by
  have hnone : ∀ pid, t.find? pid = none ↔ pid ∉ t.entries.map Prod.fst := fun pid => by
    rw [← isSome_find?_iff, Option.not_isSome_iff_eq_none]
  simp only [hnone, ← List.eq_nil_iff_forall_not_mem, List.map_eq_nil_iff]
  exact List.length_eq_zero_iff

/-- A table has the values that are found in it. -/
theorem mem_values_iff {t : Table α} {a : α} :
    a ∈ t.values ↔ ∃ pid, t.find? pid = some a := by
  rw [values, List.mem_map]
  constructor
  · rintro ⟨⟨pid, a⟩, hmem, rfl⟩
    refine ⟨pid, ?_⟩
    obtain ⟨b, hfind⟩ := Option.isSome_iff_exists.1
      ((isSome_find?_iff t pid).2 (List.mem_map_of_mem hmem))
    rw [find?] at hfind ⊢
    obtain ⟨entry, hentry, -⟩ := Option.map_eq_some_iff.1 hfind
    -- No pid is there twice, so the entry that is found is this one.
    have hpid : entry.1 = pid := by simpa using List.find?_some hentry
    rw [hentry, List.inj_on_of_nodup_map t.nodup (List.mem_of_find?_eq_some hentry) hmem hpid]
    rfl
  · rintro ⟨pid, hfind⟩
    obtain ⟨entry, hentry, rfl⟩ := Option.map_eq_some_iff.1 hfind
    exact ⟨entry, List.mem_of_find?_eq_some hentry, rfl⟩

end Table

namespace Registry

variable {r r' r'' : Registry} {pid other : Pid} {p : Actor}

/-- The pids that were given out are those below the next one. -/
def Issued (r : Registry) (pid : Pid) : Prop :=
  0 < pid.number ∧ pid.number < r.nextPid.number

/-- The next pid was not given out yet. -/
theorem not_issued_nextPid (r : Registry) : ¬ r.Issued r.nextPid :=
  fun h => Nat.lt_irrefl _ h.2

/-- A new actor is found under the pid that was next, and nothing else is new. -/
@[simp]
theorem actor?_enroll (p : Actor) (r : Registry) (pid : Pid) :
    (r.enroll p).actor? pid = if pid = r.nextPid then some p else r.actor? pid :=
  Table.find?_insert _ _ _ _

/-- By a new actor one more pid is given out. -/
theorem issued_enroll (hnext : 0 < r.nextPid.number) (p : Actor) (pid : Pid) :
    (r.enroll p).Issued pid ↔ pid = r.nextPid ∨ r.Issued pid := by
  obtain ⟨n⟩ := pid
  have heq : (⟨n⟩ : Pid) = r.nextPid ↔ n = r.nextPid.number := by
    rw [← Pid.mk.injEq]
  rw [heq]
  show 0 < n ∧ n < r.nextPid.number + 1 ↔ n = r.nextPid.number ∨ 0 < n ∧ n < r.nextPid.number
  omega

/-- Of an actor that is handed out and taken back, only its being there shows. -/
theorem put_lend (p : Actor) (r : Registry) : (r.lend p.pid).put p = r.put p := by
  simp [put, lend]

/-- Two registries show the same under all pids but one. -/
structure SameOff (pid : Pid) (r r' : Registry) : Prop where
  /-- No pid was given out. -/
  nextPid : r'.nextPid = r.nextPid
  /-- The same other actors live. -/
  actor? : ∀ other, other ≠ pid → r'.actor? other = r.actor? other
  /-- The same other actors have ended. -/
  exitReason? : ∀ other, other ≠ pid → r'.exitReason? other = r.exitReason? other

theorem SameOff.trans (h' : SameOff pid r' r'') (h : SameOff pid r r') : SameOff pid r r'' where
  nextPid := h'.nextPid.trans h.nextPid
  actor? other hother := (h'.actor? other hother).trans (h.actor? other hother)
  exitReason? other hother := (h'.exitReason? other hother).trans (h.exitReason? other hother)

theorem sameOff_lend (pid : Pid) (r : Registry) : SameOff pid r (r.lend pid) where
  nextPid := rfl
  actor? _ hother := (Table.find?_erase _ _ _).trans (if_neg hother)
  exitReason? _ _ := rfl

theorem sameOff_put (p : Actor) (r : Registry) : SameOff p.pid r (r.put p) where
  nextPid := rfl
  actor? _ hother := (Table.find?_insert _ _ _ _).trans (if_neg hother)
  exitReason? _ _ := rfl

theorem sameOff_retire (pid : Pid) (reason : ExitReason) (r : Registry) :
    SameOff pid r (r.retire pid reason) where
  nextPid := rfl
  actor? _ _ := rfl
  exitReason? _ hother := (Table.find?_insert _ _ _ _).trans (if_neg hother)

@[simp]
theorem actor?_lend_self (pid : Pid) (r : Registry) : (r.lend pid).actor? pid = none :=
  (Table.find?_erase _ _ _).trans (if_pos rfl)

@[simp]
theorem actor?_put_self (p : Actor) (r : Registry) : (r.put p).actor? p.pid = some p :=
  (Table.find?_insert _ _ _ _).trans (if_pos rfl)

@[simp]
theorem exitReason?_retire_self (pid : Pid) (reason : ExitReason) (r : Registry) :
    (r.retire pid reason).exitReason? pid = some reason :=
  (Table.find?_insert _ _ _ _).trans (if_pos rfl)

end Registry

namespace Scheduler

variable {s : Scheduler}

/-! ### Observers and modules -/

/-- A scheduler whose observers were told of events. -/
def told (events : List Event) (s : Scheduler) : Scheduler :=
  { s with
    monitor := { s.monitor with
      queue := s.monitor.queue ++ events.flatMap fun e => s.observers.flatMap (·.occurrences e) }
    journal := s.journal ++
      (events.flatMap fun e => s.observers.flatMap (·.entries e)).toArray }

@[simp]
theorem told_nil (s : Scheduler) : s.told [] = s := by
  simp [told]

/-- What is told in two portions is told one after the other. -/
theorem told_told (events events' : List Event) (s : Scheduler) :
    (s.told events).told events' = s.told (events ++ events') := by
  simp [told]

theorem tell_eq (event : Event) (s : Scheduler) (o : Observer) :
    tell event s o = { s with
      monitor := { s.monitor with queue := s.monitor.queue ++ o.occurrences event }
      journal := s.journal ++ (o.entries event).toArray } := by
  rw [tell, Observer.occurrences, Observer.entries]
  cases o.role with
  | logging allowance => simp
  | silent => simp
  | monitoring =>
    cases event.occurrence? with
    | none => simp
    | some occurrence => simp [Monitor.record]

/-- Every observer is told once. -/
theorem notify_eq (event : Event) (s : Scheduler) : s.notify event = s.told [event] := by
  have hfold : ∀ (observers : List Observer) (s : Scheduler),
      observers.foldl (tell event) s = { s with
        monitor := { s.monitor with
          queue := s.monitor.queue ++ observers.flatMap (·.occurrences event) }
        journal := s.journal ++ (observers.flatMap (·.entries event)).toArray } := by
    intro observers
    induction observers with
    | nil => simp
    | cons o observers ih =>
      intro s
      rw [List.foldl_cons, ih, tell_eq]
      simp
  rw [notify, hfold, told]
  simp

/-- Telling the observers concerns the monitor and the journal alone. -/
theorem notify_spec (event : Event) (s : Scheduler) :
    ∃ monitor journal, s.notify event = { s with monitor, journal } :=
  ⟨_, _, notify_eq event s⟩

/-- What the observers are told when an actor ends. -/
def closing (pid : Pid) : ExitReason → List Event
  | .error fault => [.threw pid fault, .ended pid (.error fault)]
  | reason => [.ended pid reason]

/-- The observers are told of the end of an actor, and it is recorded in the registry. -/
theorem finish_eq (pid : Pid) (reason : ExitReason) (s : Scheduler) :
    s.finish pid reason =
      { s.told (closing pid reason) with registry := s.registry.retire pid reason } := by
  cases reason with
  | error fault =>
    rw [finish, notify_eq, notify_eq, told_told]
    rfl
  | normal | killed =>
    rw [finish, notify_eq]
    · rfl
    · exact nofun

theorem finish_spec (pid : Pid) (reason : ExitReason) (s : Scheduler) :
    ∃ monitor journal, s.finish pid reason =
      { s with registry := s.registry.retire pid reason, monitor, journal } :=
  ⟨_, _, finish_eq pid reason s⟩

/-- Asking the observers counts down their allowances as well. -/
theorem consult_eq (s : Scheduler) :
    s.consult.2 =
      { s.told [.consulted] with observers := s.observers.map Observer.asked } := by
  rw [consult, notify_eq]
  rfl

theorem consult_spec (s : Scheduler) :
    ∃ monitor journal observers, s.consult.2 = { s with monitor, journal, observers } :=
  ⟨_, _, _, consult_eq s⟩

/-- If not all agree, one of them objects. The monitor does not hear of the question, so what that
one goes by is as it was before. -/
theorem exists_objection (h : s.consult.1 = false) : ∃ o ∈ s.observers, s.agrees o = false := by
  rw [consult, notify_eq] at h
  obtain ⟨o, ho, hnot⟩ := List.all_eq_false.1 h
  refine ⟨o, ho, ?_⟩
  rw [Bool.not_eq_true, agrees] at hnot
  rw [agrees]
  exact hnot

/-- Replaced modules are a matter of the loader. -/
theorem collectModules_spec (s : Scheduler) : ∃ loader, s.collectModules.2 = { s with loader } := by
  rw [collectModules]
  split
  next => exact ⟨_, rfl⟩
  next => exact ⟨_, rfl⟩

end Scheduler

end ActorMachine
