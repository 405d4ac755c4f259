import ActorMachine.Proofs.Scheduler.Tables
import ActorMachine.Proofs.Scheduler.Turn

/-!
# The books of a scheduler

The table of those that live, the table of exits, the next pid, the ready queue, the list of those
that wait and what the actors themselves say about it are accounts of the same thing.

* `Booked`: the invariant. It says for every pid by itself that the accounts agree, so that a change
  under one pid leaves nothing to show for the others (`Booked.change`). An actor that is being run
  is in no account but in the hand of the scheduler.
* `Follows`: the books are in order again, no pid was lost and no exit forgotten.
-/

namespace ActorMachine.Scheduler

open Machine

variable {s s' s'' : Scheduler} {hand hand' : Option Pid} {pid : Pid} {p q : Actor}

/-! ### The invariant -/

/-- In which of the lists a pid is, whether its actor is being run, and whether it was given out. -/
structure Listed (s : Scheduler) (hand : Option Pid) (pid : Pid)
    (ready blocked running issued : Prop) : Prop where
  /-- It is in the ready queue. -/
  ready : pid ∈ s.ready ↔ ready
  /-- It is among those that wait. -/
  blocked : pid ∈ s.blocked ↔ blocked
  /-- It is in the hand of the scheduler. -/
  running : hand = some pid ↔ running
  /-- It was given out. -/
  issued : s.registry.Issued pid ↔ issued

/-- What the two tables say of a pid agrees with where the pid is listed. -/
inductive Placed (s : Scheduler) (hand : Option Pid) (pid : Pid) :
    Option Actor → Option ExitReason → Prop
  /-- An actor that can run. -/
  | ready {p : Actor} (own : p.pid = pid) (reached : Reached s.config.actor p)
      (state : p.state = .ready) (wait : p.wait = none)
      (listed : s.Listed hand pid True False False True) : Placed s hand pid (some p) none
  /-- An actor that waits. -/
  | blocked {p : Actor} (own : p.pid = pid) (reached : Reached s.config.actor p)
      (state : p.state = .blocked) (wait : p.wait.isSome)
      (listed : s.Listed hand pid False True False True) : Placed s hand pid (some p) none
  /-- The actor that is being run. -/
  | running (listed : s.Listed hand pid False False True True) : Placed s hand pid none none
  /-- An actor that has ended. -/
  | exited (reason : ExitReason) (listed : s.Listed hand pid False False False True) :
      Placed s hand pid none (some reason)
  /-- A pid that was not given out. -/
  | unknown (listed : s.Listed hand pid False False False False) : Placed s hand pid none none

/-- The books are in order, with at most one actor in hand. -/
structure Booked (hand : Option Pid) (s : Scheduler) : Prop where
  /-- No pid is twice in the ready queue. -/
  ready : s.ready.Nodup
  /-- Nor is one twice among those that wait. -/
  blocked : s.blocked.Nodup
  /-- Pids count up from one. -/
  nextPid : 0 < s.registry.nextPid.number
  /-- Every pid is where it belongs. -/
  placed : ∀ pid, s.Placed hand pid (s.actor? pid) (s.exitReason? pid)

/-- The books are in order afterwards, no pid was lost and no exit forgotten. -/
structure Follows (s : Scheduler) (hand : Option Pid) (s' : Scheduler) : Prop where
  /-- The books are in order. -/
  booked : Booked hand s'
  /-- The settings are the same. -/
  config : s'.config = s.config
  /-- The pids that were given out stay given out. -/
  nextPid : s.registry.nextPid.number ≤ s'.registry.nextPid.number
  /-- Who has ended has ended for good. -/
  exits : ∀ pid reason, s.exitReason? pid = some reason → s'.exitReason? pid = some reason

theorem Follows.trans (h' : Follows s' hand' s'') (h : Follows s hand s') : Follows s hand' s'' :=
  ⟨h'.booked, h'.config.trans h.config, Nat.le_trans h.nextPid h'.nextPid,
    fun pid reason hexit => h'.exits pid reason (h.exits pid reason hexit)⟩

/-- All accounts say the same of a pid as before. -/
structure SameAt (pid : Pid) (s : Scheduler) (hand : Option Pid) (s' : Scheduler)
    (hand' : Option Pid) : Prop where
  /-- Its actor is the same. -/
  actor? : s'.actor? pid = s.actor? pid
  /-- So is the reason why that has ended. -/
  exitReason? : s'.exitReason? pid = s.exitReason? pid
  /-- It is in the ready queue if it was. -/
  ready : pid ∈ s'.ready ↔ pid ∈ s.ready
  /-- It is among those that wait if it was. -/
  blocked : pid ∈ s'.blocked ↔ pid ∈ s.blocked
  /-- It is in hand if it was. -/
  running : hand' = some pid ↔ hand = some pid
  /-- It was given out if it was before. -/
  issued : s'.registry.Issued pid ↔ s.registry.Issued pid

/-- A pid of which all accounts say the same is still in its place. -/
theorem SameAt.placed (hsame : SameAt pid s hand s' hand') (hconfig : s'.config = s.config)
    (h : s.Placed hand pid (s.actor? pid) (s.exitReason? pid)) :
    s'.Placed hand' pid (s'.actor? pid) (s'.exitReason? pid) := by
  have hlisted : ∀ {ready blocked running issued : Prop},
      s.Listed hand pid ready blocked running issued →
      s'.Listed hand' pid ready blocked running issued := fun hl =>
    ⟨hsame.ready.trans hl.ready, hsame.blocked.trans hl.blocked, hsame.running.trans hl.running,
      hsame.issued.trans hl.issued⟩
  rw [hsame.actor?, hsame.exitReason?]
  generalize s.actor? pid = live at h
  generalize s.exitReason? pid = ended at h
  cases h with
  | ready own reached state wait hl => exact .ready own (hconfig ▸ reached) state wait (hlisted hl)
  | blocked own reached state wait hl =>
    exact .blocked own (hconfig ▸ reached) state wait (hlisted hl)
  | running hl => exact .running (hlisted hl)
  | exited reason hl => exact .exited reason (hlisted hl)
  | unknown hl => exact .unknown (hlisted hl)

/-- What does not show in the tables leaves the books in order. -/
theorem Booked.keep (h : Booked hand s) (hconfig : s'.config = s.config)
    (hregistry : s'.registry = s.registry) (hready : s'.ready = s.ready)
    (hblocked : s'.blocked = s.blocked) : Follows s hand s' := by
  have hexit : ∀ pid, s'.exitReason? pid = s.exitReason? pid := fun pid => by
    rw [exitReason?, exitReason?, hregistry]
  have hsame : ∀ pid, SameAt pid s hand s' hand := fun pid =>
    ⟨by rw [actor?, actor?, hregistry], hexit pid, by rw [hready], by rw [hblocked], Iff.rfl,
      by rw [hregistry]⟩
  refine ⟨⟨hready ▸ h.ready, hblocked ▸ h.blocked, hregistry ▸ h.nextPid, fun pid => ?_⟩, hconfig,
    Nat.le_of_eq (by rw [hregistry]), fun pid reason => (hexit pid).trans⟩
  exact (hsame pid).placed hconfig (h.placed pid)

theorem Booked.refl (h : Booked hand s) : Follows s hand s :=
  h.keep rfl rfl rfl rfl

theorem Booked.congr (h : Booked hand s) (hconfig : s'.config = s.config)
    (hregistry : s'.registry = s.registry) (hready : s'.ready = s.ready)
    (hblocked : s'.blocked = s.blocked) : Booked hand s' :=
  (h.keep hconfig hregistry hready hblocked).booked

/-- A change under one pid, whose actor has not ended, leaves nothing to show for the others. -/
theorem Booked.change (h : Booked hand s) (hlives : s.exitReason? pid = none)
    (hconfig : s'.config = s.config)
    (hnext : s.registry.nextPid.number ≤ s'.registry.nextPid.number)
    (hothers : ∀ other, other ≠ pid → SameAt other s hand s' hand')
    (hready : s'.ready.Nodup) (hblocked : s'.blocked.Nodup)
    (hplaced : s'.Placed hand' pid (s'.actor? pid) (s'.exitReason? pid)) :
    Follows s hand' s' := by
  refine ⟨⟨hready, hblocked, Nat.lt_of_lt_of_le h.nextPid hnext, fun other => ?_⟩, hconfig, hnext,
    fun other reason hexit => ?_⟩
  · by_cases heq : other = pid
    · rw [heq]
      exact hplaced
    · exact (hothers other heq).placed hconfig (h.placed other)
  · by_cases heq : other = pid
    · rw [heq, hlives] at hexit
      cases hexit
    · exact (hothers other heq).exitReason?.trans hexit

/-! ### What the books say -/

/-- An actor that lives has not ended and is listed, either way, under its own pid. -/
theorem Booked.of_live (h : Booked hand s) (hlive : s.actor? pid = some p) :
    s.exitReason? pid = none ∧ p.pid = pid ∧ Reached s.config.actor p ∧
      ((p.state = .ready ∧ p.wait = none ∧ s.Listed hand pid True False False True) ∨
        (p.state = .blocked ∧ p.wait.isSome ∧ s.Listed hand pid False True False True)) := by
  have hplaced := h.placed pid
  rw [hlive] at hplaced
  generalize s.exitReason? pid = ended at hplaced
  cases hplaced with
  | ready own reached state wait hl => exact ⟨rfl, own, reached, .inl ⟨state, wait, hl⟩⟩
  | blocked own reached state wait hl => exact ⟨rfl, own, reached, .inr ⟨state, wait, hl⟩⟩

/-- A pid in one of the lists is that of an actor that lives. -/
theorem Booked.exists_live (h : Booked hand s) (hmem : pid ∈ s.ready ∨ pid ∈ s.blocked) :
    ∃ p, s.actor? pid = some p := by
  have hplaced := h.placed pid
  generalize s.actor? pid = live at hplaced
  generalize s.exitReason? pid = ended at hplaced
  have hnot : ∀ {running issued : Prop}, ¬ s.Listed hand pid False False running issued :=
    fun hl => hmem.elim hl.ready.1 hl.blocked.1
  cases hplaced with
  | @ready p | @blocked p => exact ⟨p, rfl⟩
  | running hl => exact absurd hl hnot
  | exited _ hl => exact absurd hl hnot
  | unknown hl => exact absurd hl hnot

/-- A pid in the ready queue is that of an actor that can run. -/
theorem Booked.of_mem_ready (h : Booked hand s) (hmem : pid ∈ s.ready) :
    ∃ p, s.actor? pid = some p ∧ s.exitReason? pid = none ∧ p.pid = pid ∧
      Reached s.config.actor p ∧ p.state = .ready ∧ p.wait = none ∧
      s.Listed hand pid True False False True := by
  obtain ⟨p, hlive⟩ := h.exists_live (.inl hmem)
  obtain ⟨hexit, hown, hreached, ⟨hstate, hwait, hl⟩ | ⟨-, -, hl⟩⟩ := h.of_live hlive
  · exact ⟨p, hlive, hexit, hown, hreached, hstate, hwait, hl⟩
  · exact (hl.ready.1 hmem).elim

/-- A pid among those that wait is that of an actor that waits. -/
theorem Booked.of_mem_blocked (h : Booked hand s) (hmem : pid ∈ s.blocked) :
    ∃ p, s.actor? pid = some p ∧ s.exitReason? pid = none ∧ p.pid = pid ∧
      Reached s.config.actor p ∧ p.state = .blocked ∧ p.wait.isSome ∧
      s.Listed hand pid False True False True := by
  obtain ⟨p, hlive⟩ := h.exists_live (.inr hmem)
  obtain ⟨hexit, hown, hreached, ⟨-, -, hl⟩ | ⟨hstate, hwait, hl⟩⟩ := h.of_live hlive
  · exact (hl.blocked.1 hmem).elim
  · exact ⟨p, hlive, hexit, hown, hreached, hstate, hwait, hl⟩

/-- The actor in hand is in neither table and in neither list. -/
theorem Booked.of_hand (h : Booked (some pid) s) :
    s.actor? pid = none ∧ s.exitReason? pid = none ∧
      s.Listed (some pid) pid False False True True := by
  have hplaced := h.placed pid
  generalize s.actor? pid = live at hplaced
  generalize s.exitReason? pid = ended at hplaced
  cases hplaced with
  | ready _ _ _ _ hl => exact (hl.running.1 rfl).elim
  | blocked _ _ _ _ hl => exact (hl.running.1 rfl).elim
  | running hl => exact ⟨rfl, rfl, hl⟩
  | exited _ hl => exact (hl.running.1 rfl).elim
  | unknown hl => exact (hl.running.1 rfl).elim

/-- Nothing is known of the next pid. -/
theorem Booked.of_nextPid (h : Booked hand s) :
    s.exitReason? s.registry.nextPid = none ∧
      s.Listed hand s.registry.nextPid False False False False := by
  have hplaced := h.placed s.registry.nextPid
  generalize s.actor? s.registry.nextPid = live at hplaced
  generalize s.exitReason? s.registry.nextPid = ended at hplaced
  have hnot : ∀ {ready blocked running : Prop},
      ¬ s.Listed hand s.registry.nextPid ready blocked running True :=
    fun hl => s.registry.not_issued_nextPid (hl.issued.2 trivial)
  cases hplaced with
  | ready _ _ _ _ hl => exact absurd hl hnot
  | blocked _ _ _ _ hl => exact absurd hl hnot
  | running hl => exact absurd hl hnot
  | exited _ hl => exact absurd hl hnot
  | unknown hl => exact ⟨rfl, hl⟩

/-! ### What becomes of the books -/

section Lists

variable {l : List Pid} {other : Pid}

theorem nodup_append_singleton (hl : l.Nodup) (hpid : pid ∉ l) : (l ++ [pid]).Nodup := by
  rw [List.nodup_append]
  refine ⟨hl, List.nodup_singleton pid, fun a ha b hb hab => hpid ?_⟩
  rwa [← List.mem_singleton.1 hb, ← hab]

theorem mem_append_singleton_of_ne (hother : other ≠ pid) : other ∈ l ++ [pid] ↔ other ∈ l := by
  rw [List.mem_append, List.mem_singleton, or_iff_left hother]

theorem mem_filter_of_ne (hother : other ≠ pid) : other ∈ l.filter (· ≠ pid) ↔ other ∈ l := by
  rw [List.mem_filter, and_iff_left (by simpa using hother)]

theorem not_mem_filter : pid ∉ l.filter (· ≠ pid) := by
  rw [List.mem_filter]
  simp

end Lists

/-- A new actor is ready under a pid that was not given out before. -/
theorem Booked.spawnCallable (h : Booked hand s) {callee : Payload} {args : List Payload}
    {child : Pid} (hspawn : spawnCallable callee args s = .ok child s') : Follows s hand s' := by
  obtain ⟨rfl, p, hstart, rfl⟩ := spawnCallable_eq_ok hspawn
  obtain ⟨monitor, journal, hnotify⟩ := notify_spec (.started s.registry.nextPid)
    { s with registry := s.registry.enroll p, ready := s.ready ++ [s.registry.nextPid] }
  have hfresh := Actor.sound_create s.registry.nextPid s.config.actor
  obtain ⟨-, ⟨hpid, hstate, -, hwait⟩, -⟩ := (Actor.start_spec hfresh callee args).of_ok hstart
  obtain ⟨hexit, hlisted⟩ := h.of_nextPid
  -- The new pid is the only one that has become known, so nothing else is told anew.
  have hissued := Registry.issued_enroll h.nextPid p
  rw [hnotify]
  refine h.change hexit rfl (Nat.le_succ _) (fun other hother => ?_)
    (nodup_append_singleton h.ready hlisted.ready.1) h.blocked ?_
  · refine ⟨?_, rfl, mem_append_singleton_of_ne hother, Iff.rfl, Iff.rfl, ?_⟩
    · exact (Registry.actor?_enroll p s.registry other).trans (if_neg hother)
    · exact (hissued other).trans (or_iff_right hother)
  · show Placed _ hand s.registry.nextPid ((s.registry.enroll p).actor? s.registry.nextPid)
      (s.exitReason? s.registry.nextPid)
    rw [Registry.actor?_enroll, if_pos rfl, hexit]
    refine .ready hpid (.start hstart) hstate hwait
      ⟨?_, hlisted.blocked, hlisted.running, ?_⟩
    · simp
    · exact iff_true_intro ((hissued _).2 (.inl rfl))

/-- What the tables say of an actor that has not ended may be changed along with where its pid is
listed. -/
theorem Booked.relist (h : Booked hand s) {registry : Registry} {ready blocked : List Pid}
    {live : Option Actor} {ended : Option ExitReason} (hlives : s.exitReason? pid = none)
    (hsame : Registry.SameOff pid s.registry registry) (hready : ready.Nodup)
    (hblocked : blocked.Nodup)
    (hothers : ∀ other, other ≠ pid → (other ∈ ready ↔ other ∈ s.ready) ∧
      (other ∈ blocked ↔ other ∈ s.blocked) ∧ (hand' = some other ↔ hand = some other))
    (hactor : registry.actor? pid = live) (hexit : registry.exitReason? pid = ended)
    (hplaced : Placed { s with registry, ready, blocked } hand' pid live ended) :
    Follows s hand' { s with registry, ready, blocked } := by
  refine h.change hlives rfl (Nat.le_of_eq (congrArg Pid.number hsame.nextPid).symm)
    (fun other hother => ?_) hready hblocked ?_
  · obtain ⟨hr, hb, hh⟩ := hothers other hother
    refine ⟨hsame.actor? other hother, hsame.exitReason? other hother, hr, hb, hh, ?_⟩
    show registry.Issued other ↔ s.registry.Issued other
    rw [Registry.Issued, Registry.Issued, hsame.nextPid]
  · show Placed _ hand' pid (registry.actor? pid) (registry.exitReason? pid)
    rw [hactor, hexit]
    exact hplaced

/-- The first of the ready actors is handed out. -/
theorem Booked.lend (h : Booked none s) {ready : List Pid} (hready : s.ready = pid :: ready) :
    Follows s (some pid) { s with ready, registry := s.registry.lend pid } := by
  obtain ⟨p, -, hexit, -, -, -, -, hlisted⟩ := h.of_mem_ready (hready ▸ List.mem_cons_self)
  have hnodup := h.ready
  rw [hready, List.nodup_cons] at hnodup
  refine h.relist hexit (Registry.sameOff_lend pid s.registry) hnodup.2 h.blocked ?_
    (Registry.actor?_lend_self pid s.registry) hexit
    (.running ⟨?_, hlisted.blocked, ?_, hlisted.issued⟩)
  · intro other hother
    rw [hready, List.mem_cons, or_iff_right hother]
    exact ⟨Iff.rfl, Iff.rfl, by simpa using hother.symm⟩
  · simpa using hnodup.1
  · simp

/-- An actor that lives and is the same one as before may take its own place. -/
theorem Booked.put (h : Booked hand s) (hlive : s.actor? pid = some p) (hleads : Leads p q) :
    Follows s hand { s with registry := s.registry.put q } := by
  obtain ⟨hexit, hown, hreached, hstands⟩ := h.of_live hlive
  obtain ⟨hpid, hstate, -, hwait⟩ := hleads.same (steady_of_reached hreached)
  obtain rfl : q.pid = pid := hpid.trans hown
  refine h.relist hexit (Registry.sameOff_put q s.registry) h.ready h.blocked
    (fun _ _ => ⟨Iff.rfl, Iff.rfl, Iff.rfl⟩) (Registry.actor?_put_self q s.registry) hexit ?_
  rcases hstands with ⟨hready, hnone, hlisted⟩ | ⟨hblocked, hsome, hlisted⟩
  · exact .ready rfl (hleads.reached hreached) (hstate.trans hready) (hwait.trans hnone)
      ⟨hlisted.ready, hlisted.blocked, hlisted.running, hlisted.issued⟩
  · exact .blocked rfl (hleads.reached hreached) (hstate.trans hblocked) (hwait ▸ hsome)
      ⟨hlisted.ready, hlisted.blocked, hlisted.running, hlisted.issued⟩

/-- An actor that is woken goes from the waiting ones to the end of the ready queue. -/
theorem Booked.makeReady (h : Booked hand s) (pid : Pid) : Follows s hand (s.makeReady pid) := by
  rw [Scheduler.makeReady]
  split
  next hmem =>
    obtain ⟨p, hlive, hexit, rfl, hreached, -, -, hlisted⟩ := h.of_mem_blocked hmem
    have hactor : actor? { s with blocked := s.blocked.filter (· ≠ p.pid) } p.pid = some p := hlive
    have hnot : p.pid ∉ s.ready := hlisted.ready.1
    simp only [hactor]
    -- State, wait and both lists change together.
    refine h.relist hexit (Registry.sameOff_put { p with wait := none, state := .ready } s.registry)
      (nodup_append_singleton h.ready hnot) (h.blocked.filter _) ?_
      (Registry.actor?_put_self { p with wait := none, state := .ready } s.registry) hexit
      (.ready rfl ?_ rfl rfl ⟨?_, ?_, hlisted.running, hlisted.issued⟩)
    · intro other hother
      exact ⟨mem_append_singleton_of_ne hother, mem_filter_of_ne hother, Iff.rfl⟩
    · exact .next (.stand .ready none) hreached
    · simp
    · exact iff_false_intro not_mem_filter
  next => exact h.refl

/-- A message changes its receiver, and wakes it if it has waited for one. -/
theorem Booked.deliver (h : Booked hand s) (receiver : Pid) (payload : Payload) :
    Follows s hand (s.deliver receiver payload) := by
  rw [Scheduler.deliver]
  split
  next => exact h.refl
  next p hlive =>
    obtain ⟨-, hown, hreached, -⟩ := h.of_live hlive
    -- The receiver is handed out and taken back at once, so the books show only the new state.
    have hput : ∀ q : Actor, Leads p q → Follows s hand
        { s with registry := (s.registry.lend receiver).put q } := by
      intro q hleads
      obtain rfl : q.pid = receiver := (hleads.same (steady_of_reached hreached)).1.trans hown
      rw [Registry.put_lend]
      exact h.put hlive hleads
    dsimp only
    split
    next fault q hdeliver =>
      exact hput q (.of_error (.deliver payload) (fun _ _ => nofun) (run_eq_error hdeliver))
    next q hdeliver =>
      have hfollows := hput q (.of_ok (.deliver payload) (fun _ _ => nofun) (run_eq_ok hdeliver))
      split
      next => exact (hfollows.booked.makeReady receiver).trans hfollows
      next => exact hfollows

/-- Waking all actors whose time has come leaves the books in order. -/
theorem Booked.wakeExpired (h : Booked hand s) (now : Time) :
    Follows s hand (s.wakeExpired now) := by
  rw [Scheduler.wakeExpired]
  generalize (s.blocked.filter fun pid => (s.deadlineOf? pid).any (· ≤ now)) = pids
  -- Which actors are woken does not matter: each of them leaves the books in order.
  induction pids generalizing s with
  | nil => exact h.refl
  | cons pid pids ih =>
    have hfirst := h.makeReady pid
    exact (ih hfirst.booked).trans hfirst

/-- The actor in hand may be taken back if it gives way or waits. -/
theorem Booked.park (h : Booked (some pid) s) (hown : p.pid = pid)
    (hreached : Reached s.config.actor p)
    (hstands : (p.state = .ready ∧ p.wait = none) ∨ (p.state = .blocked ∧ p.wait.isSome)) :
    Follows s none (s.park p) := by
  subst hown
  obtain ⟨-, hexit, hlisted⟩ := h.of_hand
  -- All other pids are as far from being in hand as they were.
  have hothers : ∀ other, other ≠ p.pid → (none = some other ↔ some p.pid = some other) := by
    intro other hother
    simpa using hother.symm
  have hsame := Registry.sameOff_put p s.registry
  have hactor := Registry.actor?_put_self p s.registry
  rw [Scheduler.park]
  rcases hstands with ⟨hstate, hwait⟩ | ⟨hstate, hwait⟩
  · simp only [hstate]
    refine h.relist hexit hsame (nodup_append_singleton h.ready hlisted.ready.1) h.blocked ?_
      hactor hexit
      (.ready rfl hreached hstate hwait ⟨?_, hlisted.blocked, by simp, hlisted.issued⟩)
    · intro other hother
      exact ⟨mem_append_singleton_of_ne hother, Iff.rfl, hothers other hother⟩
    · simp
  · simp only [hstate]
    refine h.relist hexit hsame h.ready (nodup_append_singleton h.blocked hlisted.blocked.1) ?_
      hactor hexit
      (.blocked rfl hreached hstate hwait ⟨hlisted.ready, ?_, by simp, hlisted.issued⟩)
    · intro other hother
      exact ⟨Iff.rfl, mem_append_singleton_of_ne hother, hothers other hother⟩
    · simp

/-- The end of the actor in hand is recorded. -/
theorem Booked.finish (h : Booked (some pid) s) (reason : ExitReason) :
    Follows s none (s.finish pid reason) := by
  obtain ⟨hactor, hexit, hlisted⟩ := h.of_hand
  obtain ⟨monitor, journal, hfinish⟩ := finish_spec pid reason s
  have hretire : Follows s none { s with registry := s.registry.retire pid reason } := by
    refine h.relist hexit (Registry.sameOff_retire pid reason s.registry) h.ready h.blocked ?_
      hactor (Registry.exitReason?_retire_self pid reason s.registry)
      (.exited reason ⟨hlisted.ready, hlisted.blocked, by simp, hlisted.issued⟩)
    intro other hother
    exact ⟨Iff.rfl, Iff.rfl, by simpa using hother.symm⟩
  rw [hfinish]
  exact Follows.trans (hretire.booked.keep rfl rfl rfl rfl) hretire

/-- An actor that is killed disappears from the lists. -/
theorem Booked.kill (h : Booked none s) (pid : Pid) : Follows s none (s.kill pid).2 := by
  rw [Scheduler.kill]
  split
  next => exact h.refl
  next p hlive =>
    obtain ⟨hexit, -, -, hstands⟩ := h.of_live hlive
    have hissued : s.registry.Issued pid ↔ True := by
      rcases hstands with ⟨-, -, hlisted⟩ | ⟨-, -, hlisted⟩
      · exact hlisted.issued
      · exact hlisted.issued
    obtain ⟨monitor, journal, hfinish⟩ := finish_spec pid .killed
      { s with
        registry := s.registry.lend pid
        ready := s.ready.filter (· ≠ pid)
        blocked := s.blocked.filter (· ≠ pid) }
    -- First it is taken off the lists and its end is written down. The observers are told then.
    have hretire : Follows s none
        { s with
          registry := (s.registry.lend pid).retire pid .killed
          ready := s.ready.filter (· ≠ pid)
          blocked := s.blocked.filter (· ≠ pid) } := by
      refine h.relist hexit
        ((Registry.sameOff_retire pid .killed _).trans (Registry.sameOff_lend pid s.registry))
        (h.ready.filter _) (h.blocked.filter _) ?_ (Registry.actor?_lend_self pid s.registry)
        (Registry.exitReason?_retire_self pid .killed _)
        (.exited .killed ⟨iff_false_intro not_mem_filter, iff_false_intro not_mem_filter, by simp,
          hissued⟩)
      intro other hother
      exact ⟨mem_filter_of_ne hother, mem_filter_of_ne hother, Iff.rfl⟩
    dsimp only
    rw [hfinish]
    exact Follows.trans (hretire.booked.keep rfl rfl rfl rfl) hretire

end ActorMachine.Scheduler
