import ActorMachine.Proofs.Scheduler.Stops

/-!
# The course of a scheduler

What is done to a scheduler is cut into acts: commands from outside, and steps together with what
they answer. A run is no act of its own. It takes steps, and between them it sleeps.

* `Act`, `Performs`, `Course`: one act, and acts one after the other.
* `course_carryOutAll`: all that is done to a scheduler is a course.
* `Course.history`: a course consists of moves, and in these the same actors are dispatched in the
  same order as the answers of the steps say.
-/

namespace ActorMachine.Scheduler

open Machine

variable {s s' t u : Scheduler} {pid : Pid} {p : Actor} {budget : Nat}

/-! ### Acts -/

/-- Something that is done to a scheduler at once. -/
inductive Act
  /-- A command from outside is carried out. -/
  | outside (command : Command)
  /-- A step is taken, with this answer. -/
  | step (budget : Nat) (outcome : StepOutcome)

/-- The actor that is dispatched, if the act is a step that answers one. -/
def Act.dispatched : Act → Option Pid
  | step _ (.ran pid) => some pid
  | _ => none

/-- An act leads from one state of a scheduler to another. -/
inductive Performs (s : Scheduler) : Act → Scheduler → Prop
  /-- A command is carried out in which no step is taken. -/
  | outside {command : Command} {s' : Scheduler} (outside : command.FromOutside)
      (done : command.carryOut s = some s') : Performs s (.outside command) s'
  /-- A step is taken. -/
  | step {budget : Nat} {outcome : StepOutcome} {s' : Scheduler}
      (taken : s.step budget = some (outcome, s')) : Performs s (.step budget outcome) s'

/-- An act that was performed. -/
structure Entry where
  /-- The scheduler before. -/
  before : Scheduler
  /-- What was done. -/
  act : Act
  /-- The scheduler after. -/
  after : Scheduler

/-- Acts one after the other, with an entry for each. -/
inductive Course : Scheduler → List Entry → Scheduler → Prop
  /-- Nothing was done. -/
  | nil (s : Scheduler) : Course s [] s
  /-- An act comes first. -/
  | cons {s t u : Scheduler} {act : Act} {entries : List Entry} (first : Performs s act t)
      (rest : Course t entries u) : Course s (⟨s, act, t⟩ :: entries) u

variable {act : Act} {entries entries' : List Entry} {records : List Record}

theorem Performs.course (h : Performs s act s') : Course s [⟨s, act, s'⟩] s' :=
  .cons h (.nil s')

theorem Course.trans (h : Course s entries t) (h' : Course t entries' u) :
    Course s (entries ++ entries') u := by
  induction h with
  | nil => exact h'
  | cons hfirst _ ih => exact .cons hfirst (ih h')

/-- A course may be cut in two. -/
theorem Course.split (h : Course s (entries ++ entries') u) :
    ∃ t, Course s entries t ∧ Course t entries' u := by
  induction entries generalizing s with
  | nil => exact ⟨s, .nil s, h⟩
  | cons entry entries ih =>
    cases h with
    | cons hfirst hrest =>
      obtain ⟨t, hleft, hright⟩ := ih hrest
      exact ⟨t, .cons hfirst hleft, hright⟩

/-! ### All that is done is a course -/

/-- An act is part of what a command comes to. A run takes steps, and between them it sleeps. -/
def Entry.Of (entry : Entry) : Command → Prop
  | .step budget => ∃ outcome, entry.act = .step budget outcome
  | .run _ => (∃ budget outcome, entry.act = .step budget outcome) ∨
      ∃ deadline, entry.after =
        { entry.before with clock := entry.before.clock.sleepUntil deadline }
  | command => entry.act = .outside command

/-- Time that goes by is no matter of anything but the clock. -/
theorem performs_clock (s : Scheduler) (clock : Clock) :
    Performs s (.outside (.elsewhere clock s.loader s.monitor s.journal)) { s with clock } :=
  .outside trivial rfl

/-- The rounds of a run are steps and sleep. -/
theorem Rounds.course (budget : Nat) (h : Rounds s t) :
    ∃ entries, Course s entries t ∧ ∀ entry ∈ entries, entry.Of (.run budget) := by
  induction h with
  | refl s => exact ⟨[], .nil s, fun _ => nofun⟩
  | @ran s t u _ pid hstep _ ih =>
    obtain ⟨entries, hcourse, hof⟩ := ih
    exact ⟨_, .cons (.step hstep) hcourse,
      List.forall_mem_cons.2 ⟨.inl ⟨_, _, rfl⟩, hof⟩⟩
  | @slept s t u _ deadline hstep _ _ _ ih =>
    obtain ⟨entries, hcourse, hof⟩ := ih
    refine ⟨_, .cons (.step hstep) (.cons (performs_clock t (t.clock.sleepUntil deadline)) hcourse),
      List.forall_mem_cons.2 ⟨.inl ⟨_, _, rfl⟩, List.forall_mem_cons.2 ⟨.inr ⟨deadline, rfl⟩, hof⟩⟩⟩

/-- A run is a course of steps and sleep. -/
theorem course_run {outcome : RunOutcome} (h : run budget s = some (outcome, s')) :
    ∃ entries, Course s entries s' ∧ ∀ entry ∈ entries, entry.Of (.run budget) := by
  obtain ⟨t, hrounds, hstops⟩ := run_eq_some h
  obtain ⟨entries, hcourse, hof⟩ := hrounds.course budget
  have hlast : ∃ budget outcome, t.step budget = some (outcome, s') := by
    cases hstops with
    | idle hstep => exact ⟨_, _, hstep⟩
    | stalled hstep => exact ⟨_, _, hstep⟩
    | interrupted hstep => exact ⟨_, _, hstep⟩
  obtain ⟨_, _, hstep⟩ := hlast
  refine ⟨_, hcourse.trans (Performs.step hstep).course, List.forall_mem_append.2 ⟨hof, ?_⟩⟩
  exact List.forall_mem_singleton.2 (.inl ⟨_, _, rfl⟩)

theorem course_carryOut {command : Command} (h : command.carryOut s = some s') :
    ∃ entries, Course s entries s' ∧ ∀ entry ∈ entries, entry.Of command := by
  -- A command from outside is one act.
  have houtside : command.FromOutside →
      (∀ entry : Entry, entry.act = .outside command → entry.Of command) →
      ∃ entries, Course s entries s' ∧ ∀ entry ∈ entries, entry.Of command := fun hfrom hof =>
    ⟨_, (Performs.outside hfrom h).course, List.forall_mem_singleton.2 (hof _ rfl)⟩
  cases command with
  | step budget =>
    obtain ⟨⟨outcome, t⟩, hstep, rfl⟩ := Option.map_eq_some_iff.1 h
    exact ⟨_, (Performs.step hstep).course, List.forall_mem_singleton.2 ⟨outcome, rfl⟩⟩
  | run budget =>
    obtain ⟨⟨outcome, t⟩, hruns, rfl⟩ := Option.map_eq_some_iff.1 h
    exact course_run hruns
  | _ => exact houtside trivial fun _ => id

/-- Whatever is done to a scheduler is a course. -/
theorem course_carryOutAll {commands : List Command} (h : Command.carryOutAll commands s = some s') :
    ∃ entries, Course s entries s' ∧
      ∀ entry ∈ entries, ∃ command ∈ commands, entry.Of command := by
  induction commands generalizing s with
  | nil =>
    obtain rfl := Option.some.inj h
    exact ⟨[], .nil s, fun _ => nofun⟩
  | cons command commands ih =>
    obtain ⟨t, hfirst, hrest⟩ := Option.bind_eq_some_iff.1 h
    obtain ⟨entries, hcourse, hof⟩ := course_carryOut hfirst
    obtain ⟨entries', hcourse', hof'⟩ := ih hrest
    refine ⟨_, hcourse.trans hcourse', List.forall_mem_append.2 ⟨fun entry hentry => ?_,
      fun entry hentry => ?_⟩⟩
    · exact ⟨command, List.mem_cons_self, hof entry hentry⟩
    · obtain ⟨other, hother, hothers⟩ := hof' entry hentry
      exact ⟨other, List.mem_cons_of_mem _ hother, hothers⟩

/-! ### The moves of a course -/

/-- The actor that is dispatched, if a dispatch begins with the move. -/
def Record.dispatched (record : Record) : Option Pid :=
  match record.before.hand, record.after.hand with
  | none, some p => some p.pid
  | _, _ => none

theorem Record.dispatched_of_hand {record : Record} (h : record.before.hand.map Actor.pid = some pid) :
    record.dispatched = none := by
  obtain ⟨p, hp, -⟩ := Option.map_eq_some_iff.1 h
  rw [Record.dispatched, hp]

/-- What steps do is all there is to a step. -/
theorem Steps.step_eq {outcome : StepOutcome} (h : Steps budget s outcome s') :
    s.step budget = some (outcome, s') := by
  rw [Scheduler.step]
  extract_lets woken
  rw [show ({ woken with clock := s.clock.tick } : Scheduler) = s.awake from rfl]
  cases h with
  | nothing hready => simp [hready]
  | heldUp hready hasked => simp [hready, hasked]
  | @ran _ rest t _ _ hready hasked hlive hdispatched =>
    have hthere : actor? { t with ready := rest } _ = some _ := hlive
    simp [hready, hasked, hthere, hdispatched]
  | @missing _ rest t hready hasked hgone =>
    have hnobody : actor? { t with ready := rest } _ = none := hgone
    simp [hready, hasked, hnobody]

/-- An exported function is started as any other, if there is one of this name. -/
theorem after_spawnExport_eq (s : Scheduler) (module name : String) (args : List Payload) :
    after (Scheduler.spawnExport module name args) s =
      match s.loader.resolve module name with
      | .ok (.function routine) => after (Scheduler.spawnCallable (.closure routine []) args) s
      | _ => s := by
  rw [after, spawnExport_eq]
  cases s.loader.resolve module name with
  | error fault => rfl
  | ok symbol => cases symbol <;> rfl

/-- Nobody is dispatched in the move, and nothing is sent. -/
def Record.Silent (record : Record) : Prop :=
  record.letter = none ∧ record.dispatched = none

theorem dispatched_of_silent (h : ∀ record ∈ records, record.Silent) :
    records.filterMap Record.dispatched = [] :=
  List.filterMap_eq_nil_iff.2 fun record hrecord => (h record hrecord).2

/-- Waking those whose time has come and looking at the clock are two moves. -/
theorem history_awake (s : Scheduler) :
    ∃ waking, History ⟨s, none⟩ waking ⟨s.awake, none⟩ ∧ ∀ record ∈ waking, record.Silent := by
  refine ⟨_, (Move.wake s s.clock.now).history.trans
    (Move.manage (s.wakeExpired s.clock.now) _ _ _ _ s.clock.tick _).history, fun record hrecord => ?_⟩
  simp only [List.cons_append, List.nil_append, List.mem_cons, List.not_mem_nil, or_false] at hrecord
  rcases hrecord with rfl | rfl <;> exact ⟨rfl, rfl⟩

/-- To ask the observers is one move more. -/
theorem history_consult {agreed : Bool} (h : s.awake.consult = (agreed, t)) :
    ∃ asking, History ⟨s, none⟩ asking ⟨t, none⟩ ∧ ∀ record ∈ asking, record.Silent := by
  obtain ⟨waking, hwaking, hsilent⟩ := history_awake s
  have hmove : Move ⟨s.awake, none⟩ none ⟨t, none⟩ := by
    obtain rfl : s.awake.consult.2 = t := congrArg Prod.snd h
    rw [consult_eq]
    exact .manage s.awake s.awake.loader _ s.awake.nextObserver _ s.awake.clock _
  refine ⟨_, hwaking.trans hmove.history, List.forall_mem_append.2 ⟨hsilent, ?_⟩⟩
  exact List.forall_mem_singleton.2 ⟨rfl, rfl⟩

/-- The observers have a say, but what they are asked about stays as it is. -/
theorem same_of_consult {agreed : Bool} (h : s.consult = (agreed, t)) :
    t.ready = s.ready ∧ t.blocked = s.blocked ∧ t.registry = s.registry ∧ t.clock = s.clock := by
  obtain ⟨monitor, journal, observers, hconsult⟩ := consult_spec s
  obtain rfl : s.consult.2 = t := congrArg Prod.snd h
  rw [hconsult]
  exact ⟨rfl, rfl, rfl, rfl⟩

/-- The first of the queue is an actor that lives. -/
theorem Valid.live_of_ready (h : Valid ⟨s, none⟩) {ready : List Pid}
    (hready : s.ready = pid :: ready) : ∃ p, s.actor? pid = some p :=
  h.booked.exists_live (.inl (hready ▸ List.mem_cons_self))

/-- When the observers agree, the dispatch begins with the actor in hand. The rest are turns of that
one, and nobody else gets there. -/
theorem history_ran (h : Valid ⟨s, none⟩) {ready : List Pid} (hconsult : s.awake.consult = (true, t))
    (hready : t.ready = pid :: ready) (hlive : t.actor? pid = some p)
    (hdispatch : dispatch budget p { t with ready, registry := t.registry.lend pid } = some s') :
    ∃ asking turns begun, Move ⟨t, none⟩ none begun ∧
      begun = ⟨{ t with ready, registry := t.registry.lend pid }, some (prepared p)⟩ ∧
      History ⟨s, none⟩ asking ⟨t, none⟩ ∧ (∀ record ∈ asking, record.Silent) ∧
      History begun turns ⟨s', none⟩ ∧
      (∀ record ∈ turns, record.before.hand.map Actor.pid = some pid) ∧
      (asking ++ ⟨⟨t, none⟩, none, begun⟩ :: turns).filterMap Record.dispatched = [pid] := by
  obtain ⟨asking, hasking, hsilent⟩ := history_consult hconsult
  have hvalid := hasking.valid h
  have hmem : pid ∈ t.ready := hready ▸ List.mem_cons_self
  obtain ⟨q, hq, -, rfl, hreached, -, hwait, -⟩ := hvalid.booked.of_mem_ready hmem
  obtain rfl := Option.some.inj (hq.symm.trans hlive)
  have hlent := (hvalid.booked.lend hready).booked
  obtain ⟨turns, hturns, hhand⟩ := exists_history_of_dispatch hlent hreached hwait hdispatch
  refine ⟨asking, turns, _, .begin hready hlive, rfl, hasking, hsilent, hturns, hhand, ?_⟩
  have hpid : (prepared q).pid = q.pid := (hlent.inHand hreached hwait).own
  -- With an actor in hand nobody is dispatched, so the dispatch is the only one.
  have hturn : turns.filterMap Record.dispatched = [] :=
    List.filterMap_eq_nil_iff.2 fun record hrecord =>
      Record.dispatched_of_hand (hhand record hrecord)
  rw [List.filterMap_append, dispatched_of_silent hsilent, List.filterMap_cons, hturn]
  simp [Record.dispatched, hpid]

/-- A step consists of moves. In these no actor is dispatched but the one that it answers. -/
theorem history_step (h : Valid ⟨s, none⟩) {outcome : StepOutcome}
    (hstep : s.step budget = some (outcome, s')) :
    ∃ records, History ⟨s, none⟩ records ⟨s', none⟩ ∧
      records.filterMap Record.dispatched = (Act.step budget outcome).dispatched.toList := by
  cases step_cases hstep with
  | nothing =>
    obtain ⟨waking, hwaking, hsilent⟩ := history_awake s
    exact ⟨waking, hwaking, dispatched_of_silent hsilent⟩
  | heldUp _ hconsult =>
    obtain ⟨asking, hasking, hsilent⟩ := history_consult hconsult
    exact ⟨asking, hasking, dispatched_of_silent hsilent⟩
  | ran hready hconsult hlive hdispatch =>
    obtain ⟨asking, turns, begun, hbegin, -, hasking, -, hturns, -, hdispatched⟩ :=
      history_ran h hconsult ((same_of_consult hconsult).1.trans hready) hlive hdispatch
    exact ⟨_, hasking.trans (.cons hbegin hturns), hdispatched⟩
  | missing hready hconsult hgone =>
    obtain ⟨asking, hasking, -⟩ := history_consult hconsult
    obtain ⟨p, hp⟩ :=
      (hasking.valid h).live_of_ready ((same_of_consult hconsult).1.trans hready)
    cases hgone.symm.trans hp

/-- An act consists of moves. -/
theorem Performs.history (h : Performs s act s') (hs : Valid ⟨s, none⟩) :
    ∃ records, History ⟨s, none⟩ records ⟨s', none⟩ ∧
      records.filterMap Record.dispatched = act.dispatched.toList := by
  cases h with
  | outside hfrom hdone => exact ⟨_, (move_carryOut hfrom hdone).history, rfl⟩
  | step htaken => exact history_step hs htaken

theorem Performs.valid (h : Performs s act s') (hs : Valid ⟨s, none⟩) : Valid ⟨s', none⟩ := by
  obtain ⟨records, hrecords, -⟩ := h.history hs
  exact hrecords.valid hs

theorem Course.valid (h : Course s entries s') (hs : Valid ⟨s, none⟩) : Valid ⟨s', none⟩ := by
  induction h with
  | nil => exact hs
  | cons hfirst _ ih => exact ih (hfirst.valid hs)

/-- A course consists of moves, in which the same actors are dispatched. -/
theorem Course.history (h : Course s entries s') (hs : Valid ⟨s, none⟩) :
    ∃ records, History ⟨s, none⟩ records ⟨s', none⟩ ∧
      records.filterMap Record.dispatched = entries.filterMap (·.act.dispatched) := by
  induction h with
  | nil s => exact ⟨[], .nil _, rfl⟩
  | @cons s t u act entries hfirst _ ih =>
    obtain ⟨records, hrecords, hdispatched⟩ := hfirst.history hs
    obtain ⟨records', hrecords', hdispatched'⟩ := ih (hfirst.valid hs)
    refine ⟨_, hrecords.trans hrecords', ?_⟩
    rw [List.filterMap_append, hdispatched, hdispatched', List.filterMap_cons]
    cases act.dispatched <;> rfl

end ActorMachine.Scheduler
