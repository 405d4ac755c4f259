import ActorMachine.Proofs.Scheduler.Wakeups

/-!
# What the answers of a run mean

A run takes rounds: an actor is dispatched, or nobody can run and time goes by until the next
deadline. It stops with the first step that is neither.

* `Rounds`, `run_eq_some`: a run is cut into its rounds and the step that has stopped it.
* `AllEnded`, `AllWait`, `HeldUp`: what is known of the scheduler after each of the answers.
* `means_of_run`: these hold, whatever was done to the scheduler before.
-/

namespace ActorMachine

namespace Scheduler

open Machine

variable {s s' t u : Scheduler} {pid : Pid} {p : Actor} {budget : Nat} {outcome : RunOutcome}

/-! ### The rounds of a run -/

/-- Rounds of a run after which it has not come to its end. -/
inductive Rounds : Scheduler → Scheduler → Prop
  /-- There was none. -/
  | refl (s : Scheduler) : Rounds s s
  /-- In the first one an actor was dispatched. -/
  | ran {s t u : Scheduler} {budget : Nat} {pid : Pid}
      (step : s.step budget = some (.ran pid, t)) (rest : Rounds t u) : Rounds s u
  /-- In the first one nobody could run, and the scheduler has slept until the next deadline. -/
  | slept {s t u : Scheduler} {budget : Nat} {deadline : Time}
      (step : s.step budget = some (.nothingReady, t)) (live : t.live ≠ 0)
      (next : t.nextDeadline? = some deadline)
      (rest : Rounds { t with clock := t.clock.sleepUntil deadline } u) : Rounds s u

/-- The step with which a run comes to its end. -/
inductive Stops (s : Scheduler) : RunOutcome → Scheduler → Prop
  /-- Nobody can run, and nobody is left. -/
  | idle {budget : Nat} {s' : Scheduler} (step : s.step budget = some (.nothingReady, s'))
      (nobody : s'.live = 0) : Stops s .idle s'
  /-- Nobody can run, and nobody waits for a point in time. -/
  | stalled {budget : Nat} {s' : Scheduler} (step : s.step budget = some (.nothingReady, s'))
      (live : s'.live ≠ 0) (never : s'.nextDeadline? = none) : Stops s .stalled s'
  /-- The step was held up. -/
  | interrupted {budget : Nat} {s' : Scheduler} (step : s.step budget = some (.interrupted, s')) :
      Stops s .interrupted s'

/-- A run consists of rounds and of the step that has stopped it. -/
theorem run_eq_some (h : run budget s = some (outcome, s')) :
    ∃ t, Rounds s t ∧ Stops t outcome s' := by
  induction budget generalizing s with
  | zero => cases h
  | succ budget ih =>
    cases run_cases h with
    | ran hstep hrest =>
      obtain ⟨u, hrounds, hstops⟩ := ih hrest
      exact ⟨u, .ran hstep hrounds, hstops⟩
    | slept hstep hlive hnext hrest =>
      obtain ⟨u, hrounds, hstops⟩ := ih hrest
      exact ⟨u, .slept hstep hlive hnext hrounds, hstops⟩
    | idle hstep hnobody => exact ⟨s, .refl s, .idle hstep hnobody⟩
    | stalled hstep hlive hnever => exact ⟨s, .refl s, .stalled hstep hlive hnever⟩
    | interrupted hstep => exact ⟨s, .refl s, .interrupted hstep⟩

/-- After every round the books are in order, and nobody waits for a message that is there. -/
theorem Rounds.valid (h : Rounds s u) (hs : Valid ⟨s, none⟩) : Valid ⟨u, none⟩ := by
  induction h with
  | refl => exact hs
  | ran hstep _ ih => exact ih ((passed_step hs hstep).valid hs)
  | @slept _ t _ _ deadline hstep _ _ _ ih =>
    have hslept := (passed_step hs hstep).trans (passed_atClock t (t.clock.sleepUntil deadline))
    exact ih (hslept.valid hs)

/-- What a step finds is valid too. -/
theorem Valid.awake (h : Valid ⟨s, none⟩) : Valid ⟨s.awake, none⟩ := by
  have hwoken : Passed s [] (s.wakeExpired s.clock.now) := (Move.wake s s.clock.now).passed
  exact (hwoken.trans (passed_atClock _ s.clock.tick)).valid h

/-! ### What is known then -/

/-- Every actor that there ever was has ended. -/
structure AllEnded (s : Scheduler) : Prop where
  /-- Nobody is left, -/
  live : s.live = 0
  /-- under no pid. -/
  actor : ∀ pid, s.actor? pid = none
  /-- Every pid that was given out has a reason for its end. -/
  ended : ∀ pid, s.registry.Issued pid → (s.exitReason? pid).isSome

/-- Somebody is left, and all wait for messages without looking at the clock. -/
structure AllWait (s : Scheduler) : Prop where
  /-- Somebody is left. -/
  live : 1 ≤ s.live
  /-- Nobody can run. -/
  ready : s.ready = []
  /-- Everybody is blocked in a receive without a deadline and has looked at all messages. -/
  waits : ∀ pid p, s.actor? pid = some p →
    p.state = .blocked ∧ p.wait = some (.message none) ∧ p.mailbox.rest = []

/-- An observer objects to the dispatch of the first ready actor, and that is where it was when the
observers were asked. -/
structure HeldUp (s s' : Scheduler) : Prop where
  /-- An observer objects. -/
  objects : ∃ o ∈ s.observers, s.agrees o = false
  /-- An actor that can run is the first in the queue. -/
  first : ∃ pid ready p, s'.ready = pid :: ready ∧ s'.actor? pid = some p ∧ p.state = .ready ∧
    p.wait = none
  /-- The queue is as it was. -/
  ready : s'.ready = s.ready
  /-- So are those that wait, -/
  blocked : s'.blocked = s.blocked
  /-- and so is everything that is known of the actors. -/
  registry : s'.registry = s.registry

/-- What an answer says about a run from one state to another. -/
def Means (s : Scheduler) : RunOutcome → Scheduler → Prop
  | .idle, s' => AllEnded s'
  | .stalled, s' => AllWait s'
  | .interrupted, s' => ∃ t, Rounds s t ∧ HeldUp t.awake s'

/-- With nobody left, the pids that were given out are those of actors that have ended. -/
theorem InOrder.allEnded (h : InOrder s) (hlive : s.live = 0) : AllEnded s := by
  have hnone : ∀ pid, s.actor? pid = none := (Table.size_eq_zero_iff _).1 hlive
  refine ⟨hlive, hnone, fun pid hissued => ?_⟩
  have hknown : s.Known pid := by
    apply (h.known pid).2
    obtain ⟨hpos, hlt⟩ := hissued
    omega
  refine hknown.resolve_left ?_
  rw [hnone]
  exact Bool.false_ne_true

/-- Without a next deadline, nobody among those that wait has one. -/
theorem deadline?_eq_none (h : s.nextDeadline? = none) (hmem : pid ∈ s.blocked)
    (hlive : s.actor? pid = some p) {wait : Wait} (hwait : p.wait = some wait) :
    wait.deadline? = none := by
  rw [nextDeadline?, List.min?_eq_none_iff, List.filterMap_eq_nil_iff] at h
  have hdeadline := h pid hmem
  simp only [deadlineOf?, hlive, hwait, bind, Option.bind_some] at hdeadline
  exact hdeadline

/-- If nobody can run and there is no next deadline, everybody is in a receive without one. -/
theorem Valid.allWait (h : Valid ⟨s, none⟩) (hlive : s.live ≠ 0) (hready : s.ready = [])
    (hnever : s.nextDeadline? = none) : AllWait s := by
  refine ⟨Nat.one_le_iff_ne_zero.2 hlive, hready, fun pid p hp => ?_⟩
  have hbooks : InOrder s := Booked.inOrder h.booked
  -- Who is not in the ready queue is among those that wait.
  have hlisted : pid ∈ s.ready ∨ pid ∈ s.blocked := by
    apply (hbooks.live pid).2
    rw [hp, Option.isSome_some]
  -- It waits for something, and the deadline of that would be a next one.
  have hblocked : pid ∈ s.blocked := by
    apply hlisted.resolve_left
    rw [hready]
    exact List.not_mem_nil
  obtain ⟨q, hq, hstate, hsome⟩ := (hbooks.blocked pid).1 hblocked
  obtain rfl := Option.some.inj (hp.symm.trans hq)
  obtain ⟨wait, hwait⟩ := Option.isSome_iff_exists.1 hsome
  have hdeadline := deadline?_eq_none hnever hblocked hp hwait
  cases wait with
  -- A timer always has a deadline.
  | timer deadline => cases hdeadline
  | message deadline =>
    obtain rfl : deadline = none := hdeadline
    refine ⟨hstate, hwait, h.allRead pid p hp ?_⟩
    exact (awaitsMessage_iff p).2 ⟨hstate, none, hwait⟩

/-- If the observers do not agree, the first of the queue stays there. -/
theorem Valid.heldUp (h : Valid ⟨s, none⟩) {ready : List Pid} (hready : s.ready = pid :: ready)
    (hasked : s.consult = (false, s')) : HeldUp s s' := by
  have hobjects := exists_objection (congrArg Prod.fst hasked)
  obtain ⟨monitor, journal, observers, hconsult⟩ := consult_spec s
  -- To ask the observers changes them, the monitor and the journal, and nothing of the actors.
  rw [hasked] at hconsult
  dsimp only at hconsult
  obtain ⟨p, hp, hstate, hwait⟩ :=
    ((Booked.inOrder h.booked).ready pid).1 (hready ▸ List.mem_cons_self)
  rw [hconsult]
  exact ⟨hobjects, ⟨pid, ready, p, hready, hp, hstate, hwait⟩, rfl, rfl, rfl⟩

/-- With the step that stops it, a run comes to a state as its answer says. -/
theorem Stops.means (h : Stops t outcome s') (hrounds : Rounds s t) (hs : Valid ⟨s, none⟩) :
    Means s outcome s' := by
  have hawake := (hrounds.valid hs).awake
  cases h with
  | idle hstep hnobody =>
    cases step_cases hstep
    exact (Booked.inOrder hawake.booked).allEnded hnobody
  | stalled hstep hlive hnever =>
    obtain ⟨hready⟩ := step_cases hstep
    exact hawake.allWait hlive hready hnever
  | interrupted hstep =>
    obtain ⟨-⟩ | ⟨hready, hasked⟩ := step_cases hstep
    exact ⟨t, hrounds, hawake.heldUp hready hasked⟩

/-- Whatever was done to a scheduler, if a run of it comes to an end then its answer is right. It is
idle if everybody has ended. It is stalled if somebody is left and all wait for messages that they
have not got, without a deadline. It is interrupted if an observer objects to a dispatch, and the
actor that was to be dispatched still has its turn before it. -/
theorem means_of_run {config : SchedulerConfig} {loader : Loader} {clock : Clock}
    (h : Reaches (create config loader clock) s) (hrun : run budget s = some (outcome, s')) :
    Means s outcome s' := by
  obtain ⟨t, hrounds, hstops⟩ := run_eq_some hrun
  exact hstops.means hrounds h.valid

/-- One actor that returns, one that waits, and one whose dispatch an observer objects to. -/
theorem means_of_run_errands :
    (∃ s s', run 5 s = some (.idle, s') ∧ s'.registry.nextPid = ⟨2⟩ ∧ Means s .idle s') ∧
      (∃ s s', run 5 s = some (.stalled, s') ∧ Means s .stalled s') ∧
      ∃ s s', run 5 s = some (.interrupted, s') ∧ Means s .interrupted s' := by
  have hanswers : ∀ (commands : List Command) (outcome : RunOutcome),
      ((Command.carryOutAll commands (create {} .standard .standing)).bind fun s =>
        (run 5 s).map fun answer => (answer.1, answer.2.registry.nextPid)) =
          some (outcome, ⟨2⟩) →
      ∃ s s', Reaches (create {} .standard .standing) s ∧ run 5 s = some (outcome, s') ∧
        s'.registry.nextPid = ⟨2⟩ := by
    intro commands outcome hanswer
    obtain ⟨s, hs, hmap⟩ := Option.bind_eq_some_iff.1 hanswer
    obtain ⟨⟨o, s'⟩, hrun, heq⟩ := Option.map_eq_some_iff.1 hmap
    obtain ⟨rfl, hnext⟩ := Prod.mk.inj heq
    exact ⟨s, s', ⟨commands, hs⟩, hrun, hnext⟩
  refine ⟨?_, ?_, ?_⟩
  · obtain ⟨s, s', hs, hrun, hnext⟩ :=
      hanswers [.spawn returner []] .idle (by decide +kernel)
    exact ⟨s, s', hrun, hnext, means_of_run hs hrun⟩
  · obtain ⟨s, s', hs, hrun, -⟩ := hanswers [.spawn waiter []] .stalled (by decide +kernel)
    exact ⟨s, s', hrun, means_of_run hs hrun⟩
  · obtain ⟨s, s', hs, hrun, -⟩ :=
      hanswers [.attach (.logging (some 0)), .spawn returner []] .interrupted (by decide +kernel)
    exact ⟨s, s', hrun, means_of_run hs hrun⟩

end Scheduler

end ActorMachine
