import ActorMachine.Proofs.Scheduler.Lives
import Mathlib.Data.Set.Card

/-!
# Lives as observers see them

* `Tells`: what an observer is told of a life.
* `Tally`: what the counters of the monitor add up to.
* `lifecycle_of_chronicle`: an observer that was there before anybody was started has been told the
  life of every actor, and the counters add up at every time.
-/

namespace ActorMachine.Scheduler

open Machine

variable {s s' : Scheduler} {pid : Pid} {m m' : Moment} {hs since : List Happening}

/-! ### What is told of one actor -/

/-- What an observer is told of an actor up to a stage of its life. -/
def Tells (pid : Pid) (events : List Event) : Stage → Prop
  | .unborn => events = []
  | .living => ∃ breaks : List Nat, events = .started pid :: breaks.map (.breakpoint pid)
  | .dead (.error fault) => ∃ breaks : List Nat, events =
      .started pid :: breaks.map (.breakpoint pid) ++
        [.threw pid fault, .ended pid (.error fault)]
  | .dead reason => ∃ breaks : List Nat, events =
      .started pid :: breaks.map (.breakpoint pid) ++ [.ended pid reason]

/-- All that is told of something that happens to an actor is about that actor. -/
theorem filter_events (pid : Pid) (h : Happening) :
    h.events.filter (·.pid? = some pid) = if h.pid? = some pid then h.events else [] := by
  cases h with
  | ended other reason =>
    cases reason <;> by_cases heq : other = pid <;>
      simp [Happening.events, Happening.pid?, closing, Event.pid?, heq]
  | started other | broke other =>
    by_cases heq : other = pid <;> simp [Happening.events, Happening.pid?, Event.pid?, heq]
  | asked | attached | detached | handedOver =>
    simp [Happening.events, Happening.pid?, Event.pid?]

theorem filter_flatMap_events (pid : Pid) (hs : List Happening) :
    (hs.flatMap Happening.events).filter (·.pid? = some pid) =
      (about pid hs).flatMap Happening.events := by
  induction hs with
  | nil => rfl
  | cons h hs ih =>
    rw [List.flatMap_cons, List.filter_append, ih, filter_events]
    by_cases hpid : h.pid? = some pid
    · simp [hpid, about]
    · simp [hpid, about]

theorem flatMap_broke (pid : Pid) (breaks : List Nat) :
    (breaks.map (Happening.broke pid)).flatMap Happening.events =
      breaks.map (Event.breakpoint pid) := by
  rw [List.flatMap_map]
  exact List.flatMap_pure_eq_map _ _

/-- A life is told from its beginning to its end. -/
theorem Life.tells {stage : Stage} (h : Life pid hs stage) :
    Tells pid (hs.flatMap Happening.events) stage := by
  cases h with
  | unborn => rfl
  | living breaks =>
    refine ⟨breaks, ?_⟩
    rw [List.flatMap_cons, flatMap_broke]
    rfl
  | dead breaks reason =>
    have hevents : (.started pid :: breaks.map (.broke pid) ++ [.ended pid reason] :
        List Happening).flatMap Happening.events =
          .started pid :: breaks.map (.breakpoint pid) ++ closing pid reason := by
      rw [List.cons_append, List.flatMap_cons, List.flatMap_append, flatMap_broke,
        List.flatMap_singleton]
      rfl
    rw [hevents]
    cases reason with
    | error fault => exact ⟨breaks, rfl⟩
    | normal | killed => exact ⟨breaks, rfl⟩

/-! ### What is counted -/

/-- The actor because of which an occurrence of a kind is counted. -/
def Happening.subject? (k : Occurrence) (h : Happening) : Option Pid :=
  if k ∈ h.occurrences then h.pid? else none

/-- A breakpoint was executed. -/
def Happening.isBreak : Happening → Bool
  | broke .. => true
  | _ => false

/-- The actors because of which one kind was counted, as often as it was. -/
def subjects (k : Occurrence) (hs : List Happening) : List Pid :=
  hs.filterMap (Happening.subject? k)

theorem subjects_append (k : Occurrence) (hs hs' : List Happening) :
    subjects k (hs ++ hs') = subjects k hs ++ subjects k hs' :=
  List.filterMap_append

theorem subjects_cons (k : Occurrence) (h : Happening) (hs : List Happening) :
    subjects k (h :: hs) = subjects k [h] ++ subjects k hs :=
  subjects_append k [h] hs

/-- The observers tell the monitor once of each. -/
theorem count_occurrences (k : Occurrence) (hs : List Happening) :
    (hs.flatMap Happening.occurrences).count k = (subjects k hs).length := by
  induction hs with
  | nil => rfl
  | cons h hs ih =>
    have hone : h.occurrences.count k = (subjects k [h]).length := by
      cases h with
      | ended pid reason => cases reason <;> cases k <;> rfl
      | _ => cases k <;> rfl
    rw [List.flatMap_cons, List.count_append, ih, hone, subjects_cons k h hs, List.length_append]

theorem length_subjects_breakpoint (hs : List Happening) :
    (subjects .breakpoint hs).length = hs.countP Happening.isBreak := by
  rw [subjects, List.length_filterMap_eq_countP]
  refine List.countP_congr fun h _ => ?_
  cases h with
  | ended pid reason => cases reason <;> simp [Happening.subject?, Happening.occurrences,
      Happening.events, closing, Event.occurrence?, Happening.isBreak]
  | _ => simp [Happening.subject?, Happening.occurrences, Happening.events, Event.occurrence?,
      Happening.pid?, Happening.isBreak]

/-- How often an actor is counted depends on its own life. -/
theorem count_subjects (k : Occurrence) (pid : Pid) (hs : List Happening) :
    (subjects k hs).count pid = (subjects k (about pid hs)).length := by
  induction hs with
  | nil => rfl
  | cons h hs ih =>
    have hone : (subjects k [h]).count pid = (subjects k (about pid [h])).length := by
      by_cases hk : k ∈ h.occurrences
      · cases hpid : h.pid? with
        | none => simp [subjects, about, Happening.subject?, hk, hpid]
        | some other =>
          by_cases heq : other = pid <;>
            simp [subjects, about, Happening.subject?, hk, hpid, heq]
      · by_cases hpid : h.pid? = some pid <;>
          simp [subjects, about, Happening.subject?, hk, hpid]
    -- What is counted of the rest is counted by induction, so one happening is left.
    have happend : about pid (h :: hs) = about pid [h] ++ about pid hs := about_append pid [h] hs
    rw [subjects_cons, List.count_append, ih, hone, happend, subjects_append, List.length_append]

/-- How often the life of an actor is counted under a kind. -/
def Stage.share : Occurrence → Stage → Nat
  | .started, living | .started, dead _ | .ended, dead _ | .failed, dead (.error _) => 1
  | _, _ => 0

/-- But for breakpoints, nothing is counted twice in a life. -/
theorem Life.length_subjects {stage : Stage} (h : Life pid hs stage) {k : Occurrence}
    (hk : k ≠ .breakpoint) : (subjects k hs).length = stage.share k := by
  -- Breakpoints are counted under a kind of their own.
  have hbreaks : ∀ breaks : List Nat, subjects k (breaks.map (.broke pid)) = [] := by
    intro breaks
    refine List.filterMap_eq_nil_iff.2 fun h hmem => ?_
    obtain ⟨ip, -, rfl⟩ := List.mem_map.1 hmem
    exact if_neg fun hkind => hk (List.mem_singleton.1 hkind)
  cases h with
  | unborn => cases k <;> rfl
  | living breaks =>
    rw [subjects_cons, hbreaks]
    cases k <;> rfl
  | dead breaks reason =>
    rw [List.cons_append, subjects_cons, subjects_append, hbreaks]
    cases reason <;> cases k <;> rfl

/-- What the counters of the monitor add up to. -/
structure Tally (since : List Happening) (s : Scheduler) (c : Counters) : Prop where
  /-- Who was started has ended or lives. -/
  spawned : c.spawned = c.exited + s.live
  /-- The ends are those of the actors that have ended. -/
  exited : c.exited = {pid | (s.exitReason? pid).isSome}.ncard
  /-- The errors are those of the actors that were ended by one. -/
  errors : c.errors = {pid | ∃ fault, s.exitReason? pid = some (.error fault)}.ncard
  /-- The breakpoints are those that were executed. -/
  breaks : c.breaks = since.countP Happening.isBreak

/-- A list without repetitions has as many members as entries. -/
theorem length_eq_ncard {l : List Pid} {members : Set Pid} (hnodup : ∀ pid, l.count pid ≤ 1)
    (hmem : ∀ pid, pid ∈ l ↔ pid ∈ members) : l.length = members.ncard := by
  have hset : members = ↑l.toFinset := by
    ext pid
    rw [List.coe_toFinset, Set.mem_ofPred_eq, hmem]
  rw [hset, Set.ncard_coe_finset, List.toFinset_card_of_nodup (List.nodup_iff_count_le_one.2 hnodup)]

/-- The pids of those that live are in the table once. -/
theorem count_living (s : Scheduler) (pid : Pid) :
    (s.registry.living.entries.map Prod.fst).count pid = if (s.actor? pid).isSome then 1 else 0 := by
  rw [s.registry.living.nodup.count]
  exact if_congr (Table.isSome_find?_iff s.registry.living pid).symm rfl rfl

/-- But for links and breakpoints, how often a kind was counted for an actor is read off the stage
of its life. -/
theorem count_subjects_of_lives (hlives : ∀ pid, Life pid (about pid since) (m.stage pid))
    (k : Occurrence) (hk : k ≠ .breakpoint) (pid : Pid) :
    (subjects k since).count pid = (m.stage pid).share k :=
  (count_subjects k pid since).trans ((hlives pid).length_subjects hk)

theorem Stage.share_le_one (k : Occurrence) (stage : Stage) : stage.share k ≤ 1 := by
  rw [Stage.share.eq_def]
  split <;> decide

/-- So a kind was counted as often as there are actors whose life has a share in it. -/
theorem length_subjects_of_lives (hlives : ∀ pid, Life pid (about pid since) (m.stage pid))
    (k : Occurrence) (hk : k ≠ .breakpoint) :
    (subjects k since).length = {pid | (m.stage pid).share k ≠ 0}.ncard := by
  refine length_eq_ncard (fun pid => ?_) fun pid => ?_
  · rw [count_subjects_of_lives hlives k hk]
    exact Stage.share_le_one k _
  · rw [Set.mem_ofPred_eq, ← count_subjects_of_lives hlives k hk, ← List.count_pos_iff,
      Nat.pos_iff_ne_zero]

theorem share_ended_ne_zero_iff : (m.stage pid).share .ended ≠ 0 ↔
    (m.scheduler.exitReason? pid).isSome := by
  rw [Moment.stage]
  cases m.scheduler.exitReason? pid with
  | some reason => simp [Stage.share]
  | none => cases (m.actor? pid).isSome <;> simp [Stage.share]

theorem share_failed_ne_zero_iff : (m.stage pid).share .failed ≠ 0 ↔
    ∃ fault, m.scheduler.exitReason? pid = some (.error fault) := by
  rw [Moment.stage]
  cases m.scheduler.exitReason? pid with
  | some reason => cases reason <;> simp [Stage.share]
  | none => cases (m.actor? pid).isSome <;> simp [Stage.share]

/-- Who has a share in what was started has one in what has ended, or else lives. -/
theorem share_started (h : Valid ⟨s, none⟩) (pid : Pid) :
    ((⟨s, none⟩ : Moment).stage pid).share .started =
      ((⟨s, none⟩ : Moment).stage pid).share .ended + if (s.actor? pid).isSome then 1 else 0 := by
  cases hlive : s.actor? pid with
  | some p =>
    rw [h.stage_eq_living hlive]
    rfl
  | none =>
    rw [Moment.stage, Moment.actor?_idle, hlive]
    dsimp only
    cases s.exitReason? pid with
    | some reason => rfl
    | none => rfl

/-- If the monitor has counted the lives of all actors, its counters add up. -/
theorem Counts.tally {id : ObserverId} (h : Counts id since s) (hvalid : Valid ⟨s, none⟩)
    (hlives : ∀ pid, Life pid (about pid since) ((⟨s, none⟩ : Moment).stage pid)) :
    Tally since s s.monitor.read.1 := by
  have hlength : ∀ k, k ≠ .linked → s.monitor.read.1.of k = (subjects k since).length := fun k hk =>
    (h.counters k hk).trans (count_occurrences k since)
  refine ⟨?_, ?_, ?_, ?_⟩
  · -- Those that were started are those that have ended together with those that live.
    have hperm : (subjects .started since).Perm
        (subjects .ended since ++ s.registry.living.entries.map Prod.fst) := by
      refine List.perm_iff_count.2 fun pid => ?_
      rw [List.count_append, count_living, count_subjects_of_lives hlives .started nofun,
        count_subjects_of_lives hlives .ended nofun]
      exact share_started hvalid pid
    have hsize := hperm.length_eq
    rw [List.length_append, List.length_map] at hsize
    exact (hlength .started nofun).trans (hsize.trans
      (congrArg (· + s.live) (hlength .ended nofun).symm))
  · refine (hlength .ended nofun).trans ((length_subjects_of_lives hlives .ended nofun).trans ?_)
    exact congrArg Set.ncard (Set.ext fun _ => share_ended_ne_zero_iff)
  · refine (hlength .failed nofun).trans ((length_subjects_of_lives hlives .failed nofun).trans ?_)
    exact congrArg Set.ncard (Set.ext fun _ => share_failed_ne_zero_iff)
  · exact (hlength .breakpoint nofun).trans (length_subjects_breakpoint since)

/-! ### Chronicles -/

theorem Chronicle.numbered (h : Chronicle m hs m') (hm : Valid m)
    (hnumbered : Numbered m.scheduler) : Numbered m'.scheduler := by
  induction h with
  | nil => exact hnumbered
  | cons hfirst _ ih => exact ih (hfirst.valid hm) ((hfirst.watches hm).numbered hnumbered)

/-- An observer that logs and stays attached logs all of a chronicle. -/
theorem Chronicle.logs {id : ObserverId} (h : Chronicle m hs m') (hm : Valid m)
    (hstays : .detached id ∉ hs) (hlogs : Logs id since m.scheduler) :
    Logs id (since ++ hs) m'.scheduler := by
  induction h generalizing since with
  | nil => rwa [List.append_nil]
  | cons hfirst _ ih =>
    rw [List.mem_append, not_or] at hstays
    rw [← List.append_assoc]
    exact ih (hfirst.valid hm) hstays.2 ((hfirst.watches hm).logs hstays.1 hlogs)

/-- The only observer that forwards to the monitor forwards all of a chronicle. -/
theorem Chronicle.counts {id : ObserverId} (h : Chronicle m hs m') (hm : Valid m)
    (hstays : .detached id ∉ hs) (honly : ∀ o, .attached o ∈ hs → o.role ≠ .monitoring)
    (hcounts : Counts id since m.scheduler) : Counts id (since ++ hs) m'.scheduler := by
  induction h generalizing since with
  | nil => rwa [List.append_nil]
  | cons hfirst _ ih =>
    rw [List.mem_append, not_or] at hstays
    rw [← List.append_assoc]
    refine ih (hfirst.valid hm) hstays.2 (fun o ho => honly o (List.mem_append_right _ ho)) ?_
    exact (hfirst.watches hm).counts hstays.1 (fun o ho => honly o (List.mem_append_left _ ho)) hcounts

/-- In a chronicle in which nothing happens to actors nothing is counted. -/
theorem Chronicle.of_read (h : Chronicle m hs m') (hm : Valid m) (hnobody : ∀ h ∈ hs, h.pid? = none)
    {k : Occurrence} (hk : k ≠ .linked) :
    m'.scheduler.monitor.read.1.of k = m.scheduler.monitor.read.1.of k := by
  induction h with
  | nil => rfl
  | cons hfirst _ ih =>
    obtain ⟨hhead, hrest⟩ := List.forall_mem_append.1 hnobody
    rw [ih (hfirst.valid hm) hrest, (hfirst.watches hm).of_read hk,
      flatMap_occurrences_eq_nil hhead, List.count_nil, Nat.add_zero]

section Beginning

variable {config : SchedulerConfig} {loader : Loader} {clock : Clock} {before : List Happening}
  {role : ObserverRole}

/-- Before anybody was started, nothing has happened to any actor. -/
theorem Chronicle.pid?_eq_none (h : Chronicle ⟨create config loader clock, none⟩ before ⟨s, none⟩)
    (hnobody : ∀ pid, ¬ s.registry.Issued pid) : ∀ h ∈ before, h.pid? = none := by
  have hcreated := valid_create config loader clock
  intro happening hmem
  by_contra hsome
  obtain ⟨pid, hpid⟩ := Option.ne_none_iff_exists'.1 hsome
  have hlife : Life pid (about pid ([] ++ before)) ((⟨s, none⟩ : Moment).stage pid) :=
    h.lives hcreated .unborn
  -- A life in which something has happened is that of a pid that was given out.
  rw [((h.valid hcreated).stage_eq_unborn_iff pid).2 (hnobody pid)] at hlife
  generalize habout : about pid ([] ++ before) = happened at hlife
  cases hlife
  have hnot := List.filter_eq_nil_iff.1 habout happening hmem
  exact hnot (decide_eq_true hpid)

/-- An observer that forwards to the monitor and is attached before anybody was started finds that
nothing was counted yet. -/
theorem Chronicle.counts_attach
    (h : Chronicle ⟨create config loader clock, none⟩ before ⟨s, none⟩)
    (hnobody : ∀ pid, ¬ s.registry.Issued pid)
    (honly : ∀ o ∈ s.observers, o.role ≠ .monitoring) :
    Counts ⟨s.nextObserver⟩ [] (s.attach .monitoring).2 where
  only := by
    have hnone : s.observers.filter (fun o => decide (o.role = .monitoring)) = [] := by
      refine List.filter_eq_nil_iff.2 fun o ho => ?_
      simpa using honly o ho
    simp [attach, List.filter_append, hnone]
  counters k hk := by
    refine (h.of_read (valid_create config loader clock) (h.pid?_eq_none hnobody) hk).trans ?_
    cases k <;> rfl

/-- An observer that was attached before anybody was started, and was not detached since, has been
told the life of every actor: one start, the breakpoints, and the end, which for a fault is told
together with the fault. If it forwards to the monitor and nobody else does, then the counters add
up whenever they are read between two dispatches, however often they were read before. Whatever is
done to a scheduler is told in some chronicle, and a start that fails is no part of any. -/
theorem lifecycle_of_chronicle
    (hbefore : Chronicle ⟨create config loader clock, none⟩ before ⟨s, none⟩)
    (hnobody : ∀ pid, ¬ s.registry.Issued pid)
    (hsince : Chronicle ⟨(s.attach role).2, none⟩ since m)
    (hstays : .detached (s.attach role).1 ∉ since) :
    (∀ pid, Life pid (about pid since) (m.stage pid)) ∧
      (∀ allowance, role = .logging allowance →
        logged (s.attach role).1 since m.scheduler = since.flatMap Happening.events ∧
        ∀ pid, Tells pid
          ((logged (s.attach role).1 since m.scheduler).filter (·.pid? = some pid)) (m.stage pid)) ∧
      (role = .monitoring → (∀ o ∈ s.observers, o.role ≠ .monitoring) →
        (∀ o, .attached o ∈ since → o.role ≠ .monitoring) → m.hand = none →
        Tally since m.scheduler m.scheduler.monitor.read.1) ∧
      (∀ callee args t fault t', spawnCallable callee args t = .error fault t' → t' = t) ∧
      ∀ past t, Chronicle ⟨create config loader clock, none⟩ past ⟨t, none⟩ →
        ∀ deeds t', Deed.carryOutAll deeds t = some t' → Recounted t deeds t' := by
  have hcreated := valid_create config loader clock
  have hvalid := hbefore.valid hcreated
  have hattached : Valid ⟨(s.attach role).2, none⟩ := (Happens.attach s role).valid hvalid
  have hlives : ∀ pid, Life pid (about pid since) (m.stage pid) := by
    intro pid
    have hunborn := (hattached.stage_eq_unborn_iff pid).2 (hnobody pid)
    have hlife : Life pid (about pid []) ((⟨(s.attach role).2, none⟩ : Moment).stage pid) := by
      rw [hunborn]
      exact .unborn
    exact hsince.lives hattached hlife
  refine ⟨hlives, ?_, ?_, fun _ _ _ _ _ => spawnCallable_eq_error, ?_⟩
  · rintro allowance rfl
    have hnumbered := hbefore.numbered hcreated (numbered_create config loader clock)
    have hlogs := hsince.logs hattached hstays (hnumbered.logs allowance)
    refine ⟨hlogs.logged, fun pid => ?_⟩
    -- Of all that was told, what is about one actor is its life.
    have htold := hlogs.logged
    rw [List.nil_append] at htold
    rw [show logged (s.attach (.logging allowance)).1 since m.scheduler = _ from htold,
      filter_flatMap_events]
    exact (hlives pid).tells
  · rintro rfl honly hothers hhand
    have hcounts := hsince.counts hattached hstays hothers (hbefore.counts_attach hnobody honly)
    obtain ⟨t, hand⟩ := m
    obtain rfl : hand = none := hhand
    exact hcounts.tally (hsince.valid hattached) hlives
  · intro past t hpast deeds t'
    exact recounted_carryOutAll (hpast.valid hcreated)

end Beginning

/-- A function that executes a breakpoint and then fails, for it has nothing to call. -/
def breaker : Routine :=
  .loose { Prototype.blank with code := #[.breakpoint, .call 7] }

/-- One actor returns, one executes a breakpoint and fails, and one waits. In between the counters
are read. -/
def errands : List Deed :=
  [.command (.spawn returner []) trivial, .command (.spawn breaker []) trivial,
    .command (.spawn waiter []) trivial, .command (.step 9) trivial, .read,
    .command (.step 9) trivial, .command (.step 9) trivial]

/-- No observer comes or goes by the errands. -/
theorem not_by_errands {h : Happening} (hby : h.By errands) :
    (∀ o, h ≠ .attached o) ∧ ∀ id, h ≠ .detached id := by
  cases h with
  | attached | detached =>
    change _ ∈ [_, _, _, _, _, _, _] at hby
    simp only [List.mem_cons, List.not_mem_nil, reduceCtorEq, or_false, false_or] at hby
    rcases hby with hby | hby | hby | hby | hby | hby <;> cases hby
  | _ => simp

/-- An observer that logs is told of the breakpoint, of the fault and of the end. One that forwards
to the monitor makes it count three actors, of which one lives and one was ended by a fault. -/
theorem lifecycle_errands :
    (∃ (s : Scheduler) (since : List Happening) (fault : Fault) (breaks : List Nat),
      Deed.carryOutAll errands
        (attach (.logging none) (create {} .standard .standing)).2 = some s ∧
      (logged ⟨0⟩ since s).filter (·.pid? = some ⟨2⟩) =
        .started ⟨2⟩ :: breaks.map (.breakpoint ⟨2⟩) ++
          [.threw ⟨2⟩ fault, .ended ⟨2⟩ (.error fault)]) ∧
      ∃ (s : Scheduler) (since : List Happening), Deed.carryOutAll errands
        (attach .monitoring (create {} .standard .standing)).2 = some s ∧
        s.live = 1 ∧
        s.monitor.read.1 = { spawned := 3, exited := 2, errors := 1, breaks := 1, links := 0 } ∧
        Tally since s s.monitor.read.1 := by
  have hbegin : ∀ pid, ¬ (create {} .standard .standing).registry.Issued pid :=
    fun pid hissued => absurd hissued.2 (Nat.not_lt.2 hissued.1)
  -- The observers are attached at once, so nothing has happened before.
  have hnothing := Chronicle.nil ⟨create {} .standard .standing, none⟩
  have hvalid : ∀ role, Valid ⟨(attach role (create {} .standard .standing)).2, none⟩ := fun role =>
    (Happens.attach _ role).valid (valid_create _ _ _)
  refine ⟨?_, ?_⟩
  · have hfacts : (Deed.carryOutAll errands
          (attach (.logging none) (create {} .standard .standing)).2).map
        (fun s : Scheduler => exitedWithFault (s.exitReason? ⟨2⟩)) = some true := by
      decide +kernel
    obtain ⟨s, hs, hended⟩ := Option.map_eq_some_iff.1 hfacts
    obtain ⟨fault, hfault⟩ := exists_fault_of_exitedWithFault hended
    obtain ⟨since, hsince, hby⟩ := recounted_carryOutAll (hvalid _) hs
    have hstays : .detached ⟨0⟩ ∉ since := fun hmem => (not_by_errands (hby _ hmem)).2 _ rfl
    obtain ⟨-, hlogging, -⟩ := lifecycle_of_chronicle hnothing hbegin hsince hstays
    obtain ⟨-, htells⟩ := hlogging none rfl
    have htold := htells ⟨2⟩
    rw [Moment.stage, hfault] at htold
    obtain ⟨breaks, hbreaks⟩ := htold
    exact ⟨s, since, fault, breaks, hs, hbreaks⟩
  · have hfacts : (Deed.carryOutAll errands
          (attach .monitoring (create {} .standard .standing)).2).map
        (fun s : Scheduler => (s.live, s.monitor.read.1)) =
        some (1, { spawned := 3, exited := 2, errors := 1, breaks := 1, links := 0 }) := by
      decide +kernel
    obtain ⟨s, hs, hcounters⟩ := Option.map_eq_some_iff.1 hfacts
    obtain ⟨hlive, hread⟩ := Prod.mk.inj hcounters
    obtain ⟨since, hsince, hby⟩ := recounted_carryOutAll (hvalid _) hs
    have hstays : .detached ⟨0⟩ ∉ since := fun hmem => (not_by_errands (hby _ hmem)).2 _ rfl
    have hothers : ∀ o, .attached o ∈ since → o.role ≠ .monitoring := fun _ hmem =>
      absurd rfl ((not_by_errands (hby _ hmem)).1 _)
    obtain ⟨-, -, hcounts, -⟩ := lifecycle_of_chronicle hnothing hbegin hsince hstays
    exact ⟨s, since, hs, hlive, hread, hcounts rfl (fun _ => nofun) hothers rfl⟩

end ActorMachine.Scheduler
