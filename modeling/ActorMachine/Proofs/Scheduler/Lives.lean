import ActorMachine.Proofs.Scheduler.Observers

/-!
# The lives of actors

* `Stage`: how far the life of an actor has got, as the tables show it.
* `Life`: all that has happened to an actor by then. It was started, it may have executed
  breakpoints, and it may have ended.
* `Happens.lives`: a move carries on the life of every actor, and of no actor twice.
-/

namespace ActorMachine.Scheduler

open Machine

variable {s s' t : Scheduler} {pid other : Pid} {p q : Actor} {m m' : Moment}
  {hs hs' since : List Happening}

/-! ### Stages -/

/-- How far the life of an actor has got. -/
inductive Stage
  /-- There is no such actor yet. -/
  | unborn
  /-- It lives. -/
  | living
  /-- It has ended. -/
  | dead (reason : ExitReason)

/-- The stage that the tables show. -/
def Moment.stage (m : Moment) (pid : Pid) : Stage :=
  match m.scheduler.exitReason? pid with
  | some reason => .dead reason
  | none => if (m.actor? pid).isSome then .living else .unborn

theorem Moment.isSome_actor? (s : Scheduler) (hand : Option Actor) (pid : Pid) :
    ((⟨s, hand⟩ : Moment).actor? pid).isSome =
      (hand.any (·.pid = pid) || (s.actor? pid).isSome) := by
  cases hand with
  | none => simp
  | some p =>
    by_cases heq : p.pid = pid
    · simp [Moment.actor?, heq]
    · simp [Moment.actor?, heq]

/-- The stage depends on whether the actor lives and on why it has ended. -/
theorem stage_congr (hexit : m'.scheduler.exitReason? pid = m.scheduler.exitReason? pid)
    (hliving : (m'.actor? pid).isSome = (m.actor? pid).isSome) : m'.stage pid = m.stage pid := by
  rw [Moment.stage, Moment.stage, hexit, hliving]

theorem stage_of_registry (hregistry : s'.registry = s.registry) (hand : Option Actor) (pid : Pid) :
    (⟨s', hand⟩ : Moment).stage pid = (⟨s, hand⟩ : Moment).stage pid := by
  apply stage_congr
  · simp only [exitReason?, hregistry]
  · rw [Moment.isSome_actor?, Moment.isSome_actor?]
    simp only [actor?, hregistry]

/-- Where nobody comes or goes, every life is at the same stage as before. -/
theorem Quiet.stage (h : Quiet s s') {hand hand' : Option Actor}
    (hhand : hand'.map Actor.pid = hand.map Actor.pid) (pid : Pid) :
    (⟨s', hand'⟩ : Moment).stage pid = (⟨s, hand⟩ : Moment).stage pid := by
  refine stage_congr (h.exitReason? pid) ?_
  have hany : hand'.any (·.pid = pid) = hand.any (·.pid = pid) := by
    have hmap := congrArg (fun o : Option Pid => o.any (· = pid)) hhand
    simpa [Option.any_map, Function.comp_def] using hmap
  rw [Moment.isSome_actor?, Moment.isSome_actor?, hany]
  exact congrArg _ (h.living pid)

/-- The actors that there were or are have the pids that were given out. -/
theorem Booked.stage_eq_unborn_iff {hand : Option Actor} (h : Booked (hand.map Actor.pid) s)
    (pid : Pid) : (⟨s, hand⟩ : Moment).stage pid = .unborn ↔ ¬ s.registry.Issued pid := by
  have hplaced := h.placed pid
  have hliving := Moment.isSome_actor? s hand pid
  have hrunning : hand.map Actor.pid = some pid → hand.any (·.pid = pid) = true := by
    intro heq
    obtain ⟨p, rfl, hp⟩ := Option.map_eq_some_iff.1 heq
    exact decide_eq_true hp
  rw [Moment.stage, hliving]
  generalize s.actor? pid = live at hplaced
  dsimp only at hplaced ⊢
  generalize s.exitReason? pid = ended at hplaced
  cases hplaced with
  | ready _ _ _ _ hl => simp [hl.issued]
  | blocked _ _ _ _ hl => simp [hl.issued]
  | running hl => simp [hl.issued, hrunning (hl.running.2 trivial)]
  | exited reason hl => simp [hl.issued]
  -- Nor is it the one in hand, for that one was given its pid.
  | unknown hl =>
    have hnot : hand.any (·.pid = pid) = false := by
      rw [Option.any_eq_false]
      intro p hp
      exact decide_eq_false fun heq => hl.running.1 (Option.map_eq_some_iff.2 ⟨p, hp, heq⟩)
    simp [hl.issued, hnot]

/-- An actor that lives has not ended. -/
theorem Booked.stage_eq_living {hand : Option Actor} (h : Booked (hand.map Actor.pid) s)
    (hp : (⟨s, hand⟩ : Moment).actor? pid = some p) :
    (⟨s, hand⟩ : Moment).stage pid = .living := by
  have hexit : s.exitReason? pid = none := by
    have hplaced := h.placed pid
    have hliving := Moment.isSome_actor? s hand pid
    rw [hp, Option.isSome_some] at hliving
    generalize s.actor? pid = live at hplaced hliving
    generalize s.exitReason? pid = ended at hplaced
    cases hplaced with
    | exited reason hl =>
      -- It is neither in the table of those that live nor in hand.
      rw [Option.isSome_none, Bool.or_false] at hliving
      obtain ⟨q, rfl, hq⟩ := (Option.any_eq_true _ _).1 hliving.symm
      exact (hl.running.1 (congrArg some (of_decide_eq_true hq))).elim
    | ready | blocked | running | unknown => rfl
  rw [Moment.stage]
  dsimp only
  rw [hexit, hp]
  rfl

/-- At a valid moment, the lives that have not begun are those of pids that were not given out. -/
theorem Valid.stage_eq_unborn_iff (h : Valid m) (pid : Pid) :
    m.stage pid = .unborn ↔ ¬ m.scheduler.registry.Issued pid :=
  Booked.stage_eq_unborn_iff h.booked pid

theorem Valid.stage_eq_living (h : Valid m) (hp : m.actor? pid = some p) :
    m.stage pid = .living :=
  Booked.stage_eq_living h.booked hp

/-! ### Lives -/

/-- All that has happened to one actor. -/
def about (pid : Pid) (hs : List Happening) : List Happening :=
  hs.filter (·.pid? = some pid)

theorem about_append (pid : Pid) (hs hs' : List Happening) :
    about pid (hs ++ hs') = about pid hs ++ about pid hs' :=
  List.filter_append ..

theorem about_self {h : Happening} (hpid : h.pid? = some pid) : about pid [h] = [h] := by
  simp [about, hpid]

theorem about_of_ne {h : Happening} (hpid : h.pid? ≠ some pid) : about pid [h] = [] := by
  simp [about, hpid]

/-- The life of an actor up to a stage. -/
inductive Life (pid : Pid) : List Happening → Stage → Prop
  /-- Nothing has happened to it. -/
  | unborn : Life pid [] .unborn
  /-- It was started, and it has executed some breakpoints. -/
  | living (breaks : List Nat) : Life pid (.started pid :: breaks.map (.broke pid)) .living
  /-- After that, it has ended. -/
  | dead (breaks : List Nat) (reason : ExitReason) :
      Life pid (.started pid :: breaks.map (.broke pid) ++ [.ended pid reason]) (.dead reason)

/-- How a life goes on. -/
inductive Grows (pid : Pid) : Stage → List Happening → Stage → Prop
  /-- Nothing happens. -/
  | same (stage : Stage) : Grows pid stage [] stage
  /-- The actor is started. -/
  | starts : Grows pid .unborn [.started pid] .living
  /-- It executes a breakpoint. -/
  | breaks (ip : Nat) : Grows pid .living [.broke pid ip] .living
  /-- It ends. -/
  | ends (reason : ExitReason) : Grows pid .living [.ended pid reason] (.dead reason)

theorem Life.grows {stage stage' : Stage} (h : Life pid hs stage) (hgrows : Grows pid stage hs' stage') :
    Life pid (hs ++ hs') stage' := by
  cases hgrows with
  | same => rwa [List.append_nil]
  | starts =>
    cases h
    exact .living []
  | breaks ip =>
    cases h with
    | living breaks =>
      have hsnoc : Life pid (.started pid :: (breaks ++ [ip]).map (.broke pid)) .living :=
        .living (breaks ++ [ip])
      rwa [List.map_append] at hsnoc
  | ends reason =>
    cases h with
    | living breaks => exact .dead breaks reason

/-- What happens to one actor carries on its life, and leaves the others where they are. -/
theorem grows_of_one (h : Happening) (hpid : h.pid? = some other)
    (hown : Grows other (m.stage other) [h] (m'.stage other))
    (hothers : ∀ pid, pid ≠ other → m'.stage pid = m.stage pid) (pid : Pid) :
    Grows pid (m.stage pid) (about pid [h]) (m'.stage pid) := by
  by_cases heq : pid = other
  · subst heq
    rw [about_self hpid]
    exact hown
  · have hne : h.pid? ≠ some pid := by
      rw [hpid]
      exact fun hsome => heq (Option.some.inj hsome).symm
    rw [hothers pid heq, about_of_ne hne]
    exact .same _

/-- A new actor gets a life of its own. -/
theorem grows_spawnCallable {hand : Option Actor} (h : Booked (hand.map Actor.pid) s) {callee : Payload}
    {args : List Payload} {child : Pid} (hspawn : spawnCallable callee args s = .ok child s')
    (pid : Pid) : Grows pid ((⟨s, hand⟩ : Moment).stage pid) (about pid [.started child])
      ((⟨s', hand⟩ : Moment).stage pid) := by
  have hunborn := (h.stage_eq_unborn_iff s.registry.nextPid).2 s.registry.not_issued_nextPid
  obtain ⟨hexit, -⟩ := h.of_nextPid
  obtain ⟨rfl, p, -, rfl⟩ := spawnCallable_eq_ok hspawn
  rw [notify_eq]
  have hliving : ∀ pid,
      ((⟨{ s with
          registry := s.registry.enroll p
          ready := s.ready ++ [s.registry.nextPid] }.told [.started s.registry.nextPid], hand⟩ :
        Moment).actor? pid).isSome =
      (hand.any (·.pid = pid) ||
        (if pid = s.registry.nextPid then some p else s.actor? pid).isSome) := by
    intro pid
    rw [Moment.isSome_actor?]
    exact congrArg (fun live : Option Actor => (_ || live.isSome))
      (Registry.actor?_enroll p s.registry pid)
  -- The new actor takes a pid that nobody has had, and the others stay where they are.
  refine grows_of_one (.started s.registry.nextPid) rfl ?_ (fun pid hne => ?_) pid
  · rw [hunborn, Moment.stage, hliving, if_pos rfl]
    show Grows _ _ _ (match s.exitReason? s.registry.nextPid with
      | some reason => Stage.dead reason
      | none => if (_ || true) = true then .living else .unborn)
    rw [hexit, Bool.or_true]
    exact .starts
  · refine stage_congr rfl ?_
    rw [hliving, if_neg hne, Moment.isSome_actor?]

/-- A breakpoint in a turn is one of the actor that has the turn. -/
theorem pid_eq_of_broke {ip : Nat} (h : inTurn s p = [.broke pid ip]) : pid = p.pid := by
  rw [inTurn] at h
  split at h
  next => exact (Happening.broke.inj (List.head_eq_of_cons_eq h)).1.symm
  next =>
    split at h
    next =>
      rw [starts] at h
      split at h <;> cases h
    next => cases h

/-- A turn carries on the life of the actor that has it, or begins a new one. -/
theorem Valid.grows (h : Valid ⟨s, some p⟩) {v : Verdict} (hturn : s.turn p = (s', q, v))
    (pid : Pid) : Grows pid ((⟨s, some p⟩ : Moment).stage pid) (about pid (inTurn s p))
      ((⟨s', some q⟩ : Moment).stage pid) := by
  obtain ⟨-, hq, -⟩ := h.inHand.turn hturn
  have hhand : (some q).map Actor.pid = (some p).map Actor.pid := congrArg some hq
  have hsame : ∀ t : Scheduler, (⟨t, some q⟩ : Moment).stage pid = (⟨t, some p⟩ : Moment).stage pid :=
    fun t => (quiet_of_eq rfl (.refl t)).stage hhand pid
  have htick : (⟨{ s with clock := s.clock.tick }, some p⟩ : Moment).stage pid =
      (⟨s, some p⟩ : Moment).stage pid := stage_of_registry rfl _ pid
  have hbooked : Booked ((some p).map Actor.pid) { s with clock := s.clock.tick } :=
    (h.booked.atClock s.clock.tick).booked
  -- Of what becomes of the actor itself, its life depends on the pid alone.
  have hdeals := h.deals hturn
  generalize heq : inTurn s p = hs at hdeals
  rw [hsame, ← htick]
  cases hdeals with
  | quiet hquiet =>
    rw [hquiet.stage rfl pid]
    exact .same _
  | starts hspawn => exact grows_spawnCallable hbooked hspawn pid
  | breaks other ip =>
    obtain rfl := pid_eq_of_broke heq
    have htold : ∀ pid, (⟨notify (.breakpoint p.pid ip) { s with clock := s.clock.tick }, some p⟩ :
        Moment).stage pid = (⟨s, some p⟩ : Moment).stage pid := by
      intro pid
      rw [notify_eq]
      exact stage_of_registry rfl _ pid
    rw [htick]
    refine grows_of_one (.broke p.pid ip) rfl ?_ (fun pid _ => htold pid) pid
    rw [htold, h.stage_eq_living (Moment.actor?_self s p)]
    exact .breaks ip

theorem exitReason?_retire (pid : Pid) (reason : ExitReason) (r : Registry) (other : Pid) :
    (r.retire pid reason).exitReason? other =
      if other = pid then some reason else r.exitReason? other :=
  Table.find?_insert _ _ _ _

/-- When the actor in hand ends, the stage of its life is that it has ended. -/
theorem grows_finish (h : Booked (some q.pid) s) (reason : ExitReason) (pid : Pid) :
    Grows pid ((⟨s, some q⟩ : Moment).stage pid) (about pid [.ended q.pid reason])
      ((⟨(s.finish q.pid reason).collectModules.2, none⟩ : Moment).stage pid) := by
  obtain ⟨loader, hcollect⟩ := collectModules_spec (s.finish q.pid reason)
  have hstage : ∀ pid, (⟨(s.finish q.pid reason).collectModules.2, none⟩ : Moment).stage pid =
      match (s.registry.retire q.pid reason).exitReason? pid with
      | some reason => .dead reason
      | none => if (s.actor? pid).isSome then .living else .unborn := by
    intro pid
    rw [hcollect, finish_eq]
    rfl
  have hbooked : Booked ((some q).map Actor.pid) s := h
  refine grows_of_one (.ended q.pid reason) rfl ?_ (fun other hne => ?_) pid
  · rw [hbooked.stage_eq_living (Moment.actor?_self s q), hstage, exitReason?_retire, if_pos rfl]
    exact .ends reason
  · rw [hstage, exitReason?_retire, if_neg hne, Moment.stage, Moment.actor?_of_ne s hne.symm]
    rfl

theorem grows_kill (h : Valid ⟨s, none⟩) (pid other : Pid) :
    Grows pid ((⟨s, none⟩ : Moment).stage pid) (about pid (kills other s))
      ((⟨(s.kill other).2, none⟩ : Moment).stage pid) := by
  rw [kills]
  cases hlive : s.actor? other with
  | none =>
    rw [Scheduler.kill, hlive]
    exact .same _
  | some p =>
    have hexit : ∀ pid, (s.kill other).2.exitReason? pid =
        if pid = other then some .killed else s.exitReason? pid := by
      intro pid
      rw [Scheduler.kill, hlive]
      dsimp only
      rw [finish_eq]
      exact exitReason?_retire other .killed _ pid
    -- That an actor has ended is what counts, not that it is gone from the table.
    refine grows_of_one (.ended other .killed) rfl ?_ (fun pid hne => ?_) pid
    · have hdead : (⟨(s.kill other).2, none⟩ : Moment).stage other = .dead .killed := by
        rw [Moment.stage]
        dsimp only
        rw [hexit, if_pos rfl]
      rw [h.stage_eq_living hlive, hdead]
      exact .ends .killed
    · apply stage_congr
      · exact (hexit pid).trans (if_neg hne)
      · rw [Moment.actor?_idle, Moment.actor?_idle, actor?_kill, if_neg hne]

/-- Taking the actor in hand back does not change the stage of any life. -/
theorem stage_park (s : Scheduler) (q : Actor) (pid : Pid) :
    (⟨s.park q, none⟩ : Moment).stage pid = (⟨s, some q⟩ : Moment).stage pid := by
  apply stage_congr
  · rw [park]
    cases q.state <;> rfl
  · rw [Moment.actor?_idle, Moment.isSome_actor?, actor?_park]
    by_cases heq : pid = q.pid
    · simp [heq]
    · simp [heq, Ne.symm heq]

/-- Nor does handing it out. -/
theorem stage_begin (h : Valid ⟨s, none⟩) (ready : List Pid) (hlive : s.actor? pid = some p)
    (other : Pid) :
    (⟨{ s with ready, registry := s.registry.lend pid }, some (prepared p)⟩ : Moment).stage other =
      (⟨s, none⟩ : Moment).stage other := by
  obtain ⟨-, hown, -⟩ := h.booked.of_live hlive
  obtain ⟨hsteady, hfits⟩ := h.steady hlive
  have hpid := (takes_prepared hsteady.sound hfits).1.trans hown
  refine stage_congr rfl ?_
  rw [Moment.actor?_idle, Moment.isSome_actor?]
  show (_ || ((s.registry.lend pid).actor? other).isSome) = _
  rw [Registry.actor?, Registry.lend, Table.find?_erase]
  -- The actor is looked for in the hand instead of the table.
  by_cases heq : other = pid
  · simp [heq, hpid, hlive]
  · simp only [Option.any_some, hpid, decide_eq_false (Ne.symm heq), Bool.false_or, if_neg heq]
    rfl

/-- A move carries on the life of every actor. -/
theorem Happens.lives (hhappens : Happens m hs m') (h : Valid m)
    (hlife : Life pid (about pid since) (m.stage pid)) :
    Life pid (about pid (since ++ hs)) (m'.stage pid) := by
  rw [about_append]
  have hsame : m'.stage pid = m.stage pid → Life pid (about pid since ++ about pid []) (m'.stage pid) :=
    fun heq => by
      rw [heq]
      exact hlife.grows (.same _)
  cases hhappens with
  | spawn s callee args =>
    rw [starts, after]
    cases hspawn : spawnCallable callee args s with
    | ok child t => exact hlife.grows (grows_spawnCallable h.booked hspawn pid)
    | error fault t =>
      obtain rfl := spawnCallable_eq_error hspawn
      exact hlife.grows (.same _)
  | send s receiver payload => exact hsame ((quiet_deliver h.booked receiver payload).stage rfl pid)
  | kill s other => exact hlife.grows (grows_kill h pid other)
  | wake s now => exact hsame ((quiet_wakeExpired h.booked now).stage rfl pid)
  | link s =>
    obtain ⟨loader, n, -, hlink⟩ := after_link s
    refine hsame (stage_of_registry ?_ none pid)
    rw [hlink]
  | consult s =>
    refine hsame (stage_of_registry ?_ none pid)
    rw [consult_eq]
    rfl
  | provide | attach | detach | takeJournal => exact hsame (stage_of_registry rfl none pid)
  | pause s hand | read s hand => exact hsame (stage_of_registry rfl hand pid)
  | begin hfirst hlive => exact hsame (stage_begin h _ hlive pid)
  | resume hturn => exact hlife.grows (h.grows hturn pid)
  | suspend hturn =>
    rw [stage_park]
    exact hlife.grows (h.grows hturn pid)
  | @stop s s' p q reason hturn =>
    -- The turn comes first. Then the actor ends.
    obtain ⟨hfollows, hq, -⟩ := h.inHand.turn hturn
    have hended := grows_finish (hq ▸ hfollows.booked) reason pid
    have hturned := hlife.grows (h.grows hturn pid)
    rw [about_append, ← List.append_assoc, ← hq]
    exact hturned.grows hended

theorem Chronicle.lives (h : Chronicle m hs m') (hm : Valid m)
    (hlife : Life pid (about pid since) (m.stage pid)) :
    Life pid (about pid (since ++ hs)) (m'.stage pid) := by
  induction h generalizing since with
  | nil => rwa [List.append_nil]
  | cons hfirst _ ih =>
    rw [← List.append_assoc]
    exact ih (hfirst.valid hm) (hfirst.lives hm hlife)

end ActorMachine.Scheduler
