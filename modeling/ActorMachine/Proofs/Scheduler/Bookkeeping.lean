import ActorMachine.Proofs.Scheduler.Books

/-!
# The books of a scheduler are always in order

* `InHand`: while an actor is being run, the books are in order for all others. Every turn preserves
  this, and so does a dispatch as a whole (`Booked.dispatch`).
* `step_cases`, `run_cases`: what a step does, and what a run does with its first step.
* `Command`: what can be done to a scheduler from outside, with any programs and any clock.
  `Command.does`: without a step it starts, sends, kills or leaves all actors alone.
* `inOrder_of_reaches`: whatever was done, between two dispatches every pid that was ever given out
  is that of an actor in exactly one of the two lists, or of one that has ended.
-/

namespace ActorMachine.Scheduler

open Machine

variable {s s' : Scheduler} {hand : Option Pid} {pid : Pid} {p q : Actor} {budget : Nat}

/-! ### Dispatches -/

/-- Whatever the scheduler does for an actor that goes on, the books stay in order. -/
theorem Answers.follows (hanswers : Answers pid s s') (h : Booked hand s) : Follows s hand s' := by
  cases hanswers with
  | nothing => exact h.refl
  | delivery receiver payload => exact h.deliver receiver payload
  | newActor hspawn => exact h.spawnCallable hspawn
  | notice event =>
    obtain ⟨monitor, journal, hnotify⟩ := notify_spec event s
    rw [hnotify]
    exact h.keep rfl rfl rfl rfl

/-- The actor of a pid is being run, and the books are in order for all others. -/
structure InHand (origin : Scheduler) (pid : Pid) (s : Scheduler) (p : Actor) : Prop where
  /-- They have been so since the dispatch has begun. -/
  follows : Follows origin (some pid) s
  /-- It is the actor of this pid. -/
  own : p.pid = pid
  /-- It has come to where it is by what can happen to actors. -/
  reached : Reached s.config.actor p
  /-- It waits for nothing. -/
  wait : p.wait = none

/-- A change of the clock does not show in the books. -/
theorem Booked.atClock (h : Booked hand s) (clock : Clock) : Follows s hand { s with clock } :=
  h.keep rfl rfl rfl rfl

/-- After a turn the actor is still in hand, or it may be taken back. -/
theorem InHand.turn {origin : Scheduler} (h : InHand origin pid s p) {v : Verdict}
    (hturn : s.turn p = (s', q, v)) :
    Follows origin (some pid) s' ∧ q.pid = pid ∧ Reached s'.config.actor q ∧
      (v = .resume → q.wait = none) ∧
      (v = .suspend →
        (q.state = .ready ∧ q.wait = none) ∨ (q.state = .blocked ∧ q.wait.isSome)) := by
  have hp := steady_of_reached h.reached
  have htick : Follows origin (some pid) { s with clock := s.clock.tick } :=
    Follows.trans (h.follows.booked.atClock s.clock.tick) h.follows
  -- In none of these cases does the pid change, and where the actor stands is noted by the scheduler.
  cases turn_spec hp hturn with
  | resumes hleads hanswers =>
    obtain ⟨hpid, -, -, hwait⟩ := hleads.same hp
    have hnext := hanswers.follows htick.booked
    refine ⟨hnext.trans htick, hpid.trans h.own, ?_, fun _ => hwait.trans h.wait, nofun⟩
    rw [hnext.config]
    exact hleads.reached h.reached
  | @givesWay q hleads =>
    obtain ⟨hpid, -, -, hwait⟩ := hleads.same hp
    refine ⟨htick, hpid.trans h.own, ?_, nofun, fun _ => .inl ⟨rfl, hwait.trans h.wait⟩⟩
    exact .next (.stand .ready q.wait) (hleads.reached h.reached)
  | @waits q hleads wait =>
    obtain ⟨hpid, -⟩ := hleads.same hp
    refine ⟨htick, hpid.trans h.own, ?_, nofun, fun _ => .inr ⟨rfl, rfl⟩⟩
    exact .next (.stand .blocked (some wait)) (hleads.reached h.reached)
  | ends hleads result =>
    obtain ⟨hpid, -⟩ := hleads.same hp
    exact ⟨htick, hpid.trans h.own, hleads.reached h.reached, nofun, nofun⟩
  | fails hleads =>
    obtain ⟨hpid, -⟩ := hleads.same hp
    exact ⟨htick, hpid.trans h.own, hleads.reached h.reached, nofun, nofun⟩

/-- An actor that goes on is still in hand. -/
theorem InHand.resume {origin : Scheduler} (h : InHand origin pid s p)
    (hturn : s.turn p = (s', q, .resume)) : InHand origin pid s' q := by
  obtain ⟨hfollows, hpid, hr, hresume, -⟩ := h.turn hturn
  exact ⟨hfollows, hpid, hr, hresume rfl⟩

/-- An actor whose turn comes is in hand. -/
theorem Booked.inHand (h : Booked (some p.pid) s) (hreached : Reached s.config.actor p)
    (hwait : p.wait = none) : InHand s p.pid s (prepared p) := by
  have hrunning : Reached s.config.actor { p with state := .running } :=
    .next (.stand .running p.wait) hreached
  obtain ⟨hpid, -, -, hsame⟩ := (leads_prepared p).same (steady_of_reached hrunning)
  exact ⟨h.refl, hpid, reached_prepared hreached, hsame.trans hwait⟩

/-- A dispatch takes the actor in hand back or records its end. -/
theorem Booked.dispatch (h : Booked (some p.pid) s) (hreached : Reached s.config.actor p)
    (hwait : p.wait = none) (hdispatch : dispatch budget p s = some s') : Follows s none s' := by
  obtain ⟨s₁, q, reason, hattend, hend⟩ := dispatch_eq_some hdispatch
  -- The actor stays in hand as long as it goes on.
  have hturn : ∀ t r t' r', InHand s p.pid t r → t.turn r = (t', r', .resume) →
      InHand s p.pid t' r' := fun _ _ _ _ hin => hin.resume
  obtain ⟨t, r, hin, hlast⟩ := of_attend hturn (h.inHand hreached hwait) hattend
  rcases hlast with ⟨rfl, hlast⟩ | ⟨reason, rfl, hlast⟩
  -- The last turn has left it ready or waiting, or it has ended.
  · obtain ⟨hfollows, hpid, hq, -, hsuspend⟩ := hin.turn hlast
    obtain rfl : s' = s₁.park q := by simpa using hend
    exact (hfollows.booked.park hpid hq (hsuspend rfl)).trans hfollows
  · obtain ⟨hfollows, -⟩ := hin.turn hlast
    obtain rfl : s' = (s₁.finish p.pid reason).collectModules.2 := by simpa using hend
    obtain ⟨loader, hcollect⟩ := collectModules_spec (s₁.finish p.pid reason)
    have hfinish := hfollows.booked.finish reason
    rw [hcollect]
    exact Follows.trans (hfinish.booked.keep rfl rfl rfl rfl) (hfinish.trans hfollows)

/-- What a step finds: those whose time has come are awake, and the clock was looked at. -/
def awake (s : Scheduler) : Scheduler :=
  { s.wakeExpired s.clock.now with clock := s.clock.tick }

/-- What a step does. -/
inductive Steps (budget : Nat) (s : Scheduler) : StepOutcome → Scheduler → Prop
  /-- Nobody can run. -/
  | nothing (ready : s.awake.ready = []) : Steps budget s .nothingReady s.awake
  /-- Not all observers agree. -/
  | heldUp {pid : Pid} {rest : List Pid} {s' : Scheduler} (ready : s.awake.ready = pid :: rest)
      (asked : s.awake.consult = (false, s')) : Steps budget s .interrupted s'
  /-- The first of the queue is dispatched. -/
  | ran {pid : Pid} {rest : List Pid} {t s' : Scheduler} {p : Actor}
      (ready : s.awake.ready = pid :: rest) (asked : s.awake.consult = (true, t))
      (live : t.actor? pid = some p)
      (dispatched : dispatch budget p { t with ready := rest, registry := t.registry.lend pid } =
        some s') : Steps budget s (.ran pid) s'
  /-- There is no such actor. -/
  | missing {pid : Pid} {rest : List Pid} {t : Scheduler} (ready : s.awake.ready = pid :: rest)
      (asked : s.awake.consult = (true, t)) (gone : t.actor? pid = none) :
      Steps budget s (.ran pid) { t with ready := rest }

theorem step_cases {outcome : StepOutcome} (h : s.step budget = some (outcome, s')) :
    Steps budget s outcome s' := by
  rw [Scheduler.step] at h
  extract_lets woken at h
  rw [show ({ woken with clock := s.clock.tick } : Scheduler) = s.awake from rfl] at h
  split at h
  next hready =>
    obtain ⟨rfl, rfl⟩ := Prod.mk.inj (Option.some.inj h)
    exact .nothing hready
  next pid rest hready =>
    -- What the observers say comes before the actor is looked for, so both answers have a state.
    obtain ⟨agreed, t, hasked⟩ : ∃ agreed t, s.awake.consult = (agreed, t) := ⟨_, _, rfl⟩
    rw [hasked] at h
    dsimp only at h
    cases agreed with
    | false =>
      obtain ⟨rfl, rfl⟩ := Prod.mk.inj (Option.some.inj h)
      exact .heldUp hready hasked
    | true =>
      rw [if_neg (by simp)] at h
      cases hlive : t.actor? pid with
      | none =>
        simp only [show actor? { t with ready := rest } pid = none from hlive] at h
        obtain ⟨rfl, rfl⟩ := Prod.mk.inj (Option.some.inj h)
        exact .missing hready hasked hlive
      | some p =>
        simp only [show actor? { t with ready := rest } pid = some p from hlive, bind,
          Option.bind_eq_some_iff] at h
        obtain ⟨u, hdispatch, hrest⟩ := h
        obtain ⟨rfl, rfl⟩ := Prod.mk.inj (Option.some.inj hrest)
        exact .ran hready hasked hlive hdispatch

/-- What waking, asking the observers and dispatching the first ready actor preserve, a step
preserves. -/
theorem of_step {inv : Scheduler → Prop} {outcome : StepOutcome} (hwoken : inv s.awake)
    (hasked : ∀ {t : Scheduler}, inv t → inv t.consult.2)
    (hlives : ∀ {t : Scheduler} {pid}, inv t → pid ∈ t.ready → ∃ p, t.actor? pid = some p)
    (hdispatched : ∀ {t t' : Scheduler} {pid ready p}, inv t → t.ready = pid :: ready →
      t.actor? pid = some p →
      dispatch budget p { t with ready, registry := t.registry.lend pid } = some t' → inv t')
    (hstep : s.step budget = some (outcome, s')) : inv s' := by
  have hconsulted := hasked hwoken
  -- The queue is the same after the question as before.
  have hqueue : s.awake.consult.2.ready = s.awake.ready := by rw [consult_eq]; rfl
  cases step_cases hstep with
  | nothing => exact hwoken
  | heldUp _ hno =>
    rw [hno] at hconsulted
    exact hconsulted
  | ran hready hyes hlive hdispatch =>
    rw [hyes] at hconsulted hqueue
    exact hdispatched hconsulted (hqueue.trans hready) hlive hdispatch
  | @missing pid rest t hready hyes hgone =>
    -- The first of the queue is an actor that lives, so there is always one to dispatch.
    rw [hyes] at hconsulted hqueue
    have hmem : pid ∈ t.ready := hqueue.trans hready ▸ List.mem_cons_self
    obtain ⟨p, hp⟩ := hlives hconsulted hmem
    cases hgone.symm.trans hp

/-- What a run does. -/
inductive Proceeds (budget : Nat) (s : Scheduler) : RunOutcome → Scheduler → Prop
  /-- An actor is dispatched first. -/
  | ran {pid : Pid} {t s' : Scheduler} {outcome : RunOutcome}
      (step : s.step budget = some (.ran pid, t)) (rest : run budget t = some (outcome, s')) :
      Proceeds budget s outcome s'
  /-- Nobody can run, and the scheduler sleeps until the next deadline. -/
  | slept {deadline : Time} {t s' : Scheduler} {outcome : RunOutcome}
      (step : s.step budget = some (.nothingReady, t)) (live : t.live ≠ 0)
      (next : t.nextDeadline? = some deadline)
      (rest : run budget { t with clock := t.clock.sleepUntil deadline } = some (outcome, s')) :
      Proceeds budget s outcome s'
  /-- Nobody can run, and nobody is left. -/
  | idle {s' : Scheduler} (step : s.step budget = some (.nothingReady, s')) (nobody : s'.live = 0) :
      Proceeds budget s .idle s'
  /-- Nobody can run, and nobody waits for a point in time. -/
  | stalled {s' : Scheduler} (step : s.step budget = some (.nothingReady, s')) (live : s'.live ≠ 0)
      (never : s'.nextDeadline? = none) : Proceeds budget s .stalled s'
  /-- The step is held up. -/
  | interrupted {s' : Scheduler} (step : s.step budget = some (.interrupted, s')) :
      Proceeds budget s .interrupted s'

theorem run_cases {outcome : RunOutcome} (h : run (budget + 1) s = some (outcome, s')) :
    Proceeds budget s outcome s' := by
  rw [Scheduler.run] at h
  split at h
  next => cases h
  next hstep => exact .ran hstep h
  next hstep =>
    obtain ⟨rfl, rfl⟩ := Prod.mk.inj (Option.some.inj h)
    exact .interrupted hstep
  next hstep =>
    split at h
    next hnobody =>
      obtain ⟨rfl, rfl⟩ := Prod.mk.inj (Option.some.inj h)
      exact .idle hstep hnobody
    next hlive =>
      split at h
      next hnext => exact .slept hstep hlive hnext h
      next hnever =>
        obtain ⟨rfl, rfl⟩ := Prod.mk.inj (Option.some.inj h)
        exact .stalled hstep hlive hnever

/-- What steps and the passing of time preserve, a run preserves. -/
theorem of_run {inv : Scheduler → Prop} {outcome : RunOutcome}
    (hstep : ∀ {budget s s' outcome}, inv s → step budget s = some (outcome, s') → inv s')
    (hclock : ∀ {s} (clock), inv s → inv { s with clock }) (h : inv s)
    (hrun : run budget s = some (outcome, s')) : inv s' := by
  induction budget generalizing s with
  | zero => cases hrun
  | succ budget ih =>
    cases run_cases hrun with
    | ran htaken hrest => exact ih (hstep h htaken) hrest
    | slept htaken _ _ hrest => exact ih (hclock _ (hstep h htaken)) hrest
    | idle htaken | stalled htaken | interrupted htaken => exact hstep h htaken

/-- A step leaves the books in order. -/
theorem Booked.step (h : Booked none s) {outcome : StepOutcome}
    (hstep : s.step budget = some (outcome, s')) : Follows s none s' := by
  have hwoken := h.wakeExpired s.clock.now
  refine @of_step _ _ _ (Follows s none) _ (hwoken.booked.atClock s.clock.tick |>.trans hwoken)
    (fun ht => ?_) (fun ht hmem => ht.booked.exists_live (.inl hmem))
    (fun {t t' pid ready p} ht hready hlive hdispatch => ?_) hstep
  · rw [consult_eq]
    exact Follows.trans (ht.booked.keep rfl rfl rfl rfl) ht
  · have hmem : pid ∈ t.ready := hready ▸ List.mem_cons_self
    obtain ⟨q, hq, -, rfl, hreached, -, hwait, -⟩ := ht.booked.of_mem_ready hmem
    obtain rfl := Option.some.inj (hq.symm.trans hlive)
    have hlent := ht.booked.lend hready
    exact (hlent.booked.dispatch hreached hwait hdispatch).trans (hlent.trans ht)

/-- So does a run. -/
theorem Booked.run (h : Booked none s) {outcome : RunOutcome}
    (hrun : run budget s = some (outcome, s')) : Follows s none s' := by
  refine @of_run _ _ _ (Follows s none) _ (fun ht hstep => ?_) (fun {t} clock ht => ?_) h.refl hrun
  · exact (ht.booked.step hstep).trans ht
  · exact (ht.booked.atClock clock).trans ht

/-! ### Commands -/

/-- What can be done to a scheduler from outside. -/
inductive Command
  /-- An actor that runs a routine is started. -/
  | spawn (entry : Routine) (args : List Payload)
  /-- An actor that runs an exported function is started. -/
  | spawnExport (module name : String) (args : List Payload)
  /-- An actor that calls a value is started. -/
  | spawnCallable (callee : Payload) (args : List Payload)
  /-- A message is sent. -/
  | send (receiver : Pid) (payload : Payload)
  /-- An actor is killed. -/
  | kill (pid : Pid)
  /-- An observer is attached. -/
  | attach (role : ObserverRole)
  /-- An observer is detached. -/
  | detach (id : ObserverId)
  /-- A step is taken. -/
  | step (budget : Nat)
  /-- Steps are taken until no actor can go on. -/
  | run (budget : Nat)
  /-- Time goes by, modules are loaded and linked, and what was observed is read. -/
  | elsewhere (clock : Clock) (loader : Loader) (monitor : Monitor)
      (journal : Array (ObserverId × Event))

/-- What a scheduler is after an action, whether that has failed or not. -/
def after {α : Type} (act : Action α) (s : Scheduler) : Scheduler :=
  match act s with
  | .ok _ s => s
  | .error _ s => s

/-- What a command makes of a scheduler. There is no answer if its budget was too small. -/
def Command.carryOut : Command → Scheduler → Option Scheduler
  | spawn entry args, s => some (after (Scheduler.spawn entry args) s)
  | spawnExport module name args, s => some (after (Scheduler.spawnExport module name args) s)
  | spawnCallable callee args, s => some (after (Scheduler.spawnCallable callee args) s)
  | send receiver payload, s => some (s.send receiver payload)
  | kill pid, s => some (s.kill pid).2
  | attach role, s => some (s.attach role).2
  | detach id, s => some (s.detach id).2
  | step budget, s => (s.step budget).map Prod.snd
  | run budget, s => (Scheduler.run budget s).map Prod.snd
  | elsewhere clock loader monitor journal, s => some { s with clock, loader, monitor, journal }

/-- What several commands make of it, one after the other. -/
def Command.carryOutAll : List Command → Scheduler → Option Scheduler
  | [], s => some s
  | command :: commands, s => (command.carryOut s).bind (carryOutAll commands)

/-- Some commands lead from one state of a scheduler to another. -/
def Reaches (s s' : Scheduler) : Prop :=
  ∃ commands, Command.carryOutAll commands s = some s'

/-- A message on its way. -/
structure Letter where
  /-- The pid that it is sent to. -/
  receiver : Pid
  /-- What is sent. -/
  payload : Payload

/-- The letter that a command sends, if it is one that does. -/
def Command.sent : Command → Option Letter
  | send receiver payload => some ⟨receiver, payload⟩
  | _ => none

/-- The scheduler takes no steps in a command from outside. -/
def Command.FromOutside : Command → Prop
  | step _ | run _ => False
  | _ => True

theorem Booked.after_spawnCallable (h : Booked hand s) (callee : Payload) (args : List Payload) :
    Follows s hand (after (Scheduler.spawnCallable callee args) s) := by
  rw [after]
  cases hspawn : Scheduler.spawnCallable callee args s with
  | ok child t => exact h.spawnCallable hspawn
  | error fault t =>
    obtain rfl := spawnCallable_eq_error hspawn
    exact h.refl

/-- An exported function is started as any routine is, unless there is none of that name. -/
theorem after_spawnExport (s : Scheduler) (module name : String) (args : List Payload) :
    after (Scheduler.spawnExport module name args) s = s ∨
      ∃ routine, s.loader.resolve module name = .ok (.function routine) ∧
        after (Scheduler.spawnExport module name args) s =
          after (Scheduler.spawnCallable (.closure routine []) args) s := by
  rw [after, spawnExport_eq]
  cases s.loader.resolve module name with
  | error fault => exact .inl rfl
  | ok symbol =>
    cases symbol with
    | function routine => exact .inr ⟨routine, rfl, rfl⟩
    | native id => exact .inl rfl

/-- What a command from outside comes down to. -/
inductive Command.Does (s : Scheduler) : Command → Scheduler → Prop
  /-- An actor is started. -/
  | starts {command : Command} {callee : Payload} {args : List Payload} {child : Pid}
      {s' : Scheduler} (silent : command.sent = none)
      (started : Scheduler.spawnCallable callee args s = .ok child s') : Does s command s'
  /-- A message is sent. -/
  | sends (receiver : Pid) (payload : Payload) :
      Does s (.send receiver payload) (s.send receiver payload)
  /-- An actor is killed. -/
  | kills (pid : Pid) : Does s (.kill pid) (s.kill pid).2
  /-- The actors are left alone, as they also are if none could be started. -/
  | manages {command : Command} (silent : command.sent = none) (loader : Loader)
      (observers : List Observer) (nextObserver : Nat) (monitor : Monitor) (clock : Clock)
      (journal : Array (ObserverId × Event)) :
      Does s command { s with loader, observers, nextObserver, monitor, clock, journal }

/-- A command that takes no steps does one of these. -/
theorem Command.does {command : Command} (hfrom : command.FromOutside)
    (hrun : command.carryOut s = some s') : command.Does s s' := by
  have hsame (hsilent : command.sent = none) : Does s command s :=
    .manages hsilent s.loader s.observers s.nextObserver s.monitor s.clock s.journal
  -- Nothing happens if no actor can be started.
  have hspawn (hsilent : command.sent = none) (callee : Payload) (args : List Payload) :
      Does s command (after (Scheduler.spawnCallable callee args) s) := by
    rw [after]
    cases hspawn : Scheduler.spawnCallable callee args s with
    | ok child t => exact .starts hsilent hspawn
    | error fault t =>
      obtain rfl := spawnCallable_eq_error hspawn
      exact hsame hsilent
  cases command with
  | step | run => exact hfrom.elim
  | spawn entry args =>
    obtain rfl := Option.some.inj hrun
    exact hspawn rfl (.closure entry []) args
  | spawnExport module name args =>
    obtain rfl := Option.some.inj hrun
    rcases after_spawnExport s module name args with hnothing | ⟨routine, -, hstarted⟩
    · rw [hnothing]
      exact hsame rfl
    · rw [hstarted]
      exact hspawn rfl (.closure routine []) args
  | spawnCallable callee args =>
    obtain rfl := Option.some.inj hrun
    exact hspawn rfl callee args
  | send receiver payload =>
    obtain rfl := Option.some.inj hrun
    exact .sends receiver payload
  | kill pid =>
    obtain rfl := Option.some.inj hrun
    exact .kills pid
  | attach | detach =>
    obtain rfl := Option.some.inj hrun
    exact .manages rfl s.loader _ _ s.monitor s.clock s.journal
  | elsewhere clock loader monitor journal =>
    obtain rfl := Option.some.inj hrun
    exact .manages rfl loader s.observers s.nextObserver monitor clock journal

/-- Every command leaves the books in order. -/
theorem Booked.command (h : Booked none s) {command : Command}
    (hrun : command.carryOut s = some s') : Follows s none s' := by
  by_cases hfrom : command.FromOutside
  · cases Command.does hfrom hrun with
    | starts _ hspawn => exact h.spawnCallable hspawn
    | sends receiver payload => exact h.deliver receiver payload
    | kills pid => exact h.kill pid
    | manages => exact h.keep rfl rfl rfl rfl
  · cases command with
    | step budget =>
      obtain ⟨⟨outcome, t⟩, hstep, rfl⟩ := Option.map_eq_some_iff.1 hrun
      exact h.step hstep
    | run budget =>
      obtain ⟨⟨outcome, t⟩, hruns, rfl⟩ := Option.map_eq_some_iff.1 hrun
      exact h.run hruns
    | _ => exact absurd trivial hfrom

/-- A scheduler without actors has its books in order. -/
theorem booked_create (config : SchedulerConfig) (loader : Loader) (clock : Clock) :
    Booked none (create config loader clock) := by
  refine ⟨List.nodup_nil, List.nodup_nil, Nat.one_pos, fun pid => ?_⟩
  refine .unknown ⟨by simp [create], by simp [create], by simp, iff_false_intro ?_⟩
  -- The next pid is the first one.
  rintro ⟨hpos, hlt⟩
  exact absurd hlt (Nat.not_lt.2 hpos)

/-- Whatever is done to a scheduler whose books are in order, they stay so. -/
theorem Reaches.follows (hreaches : Reaches s s') (h : Booked none s) : Follows s none s' := by
  obtain ⟨commands, hall⟩ := hreaches
  -- The invariant is carried from one command to the next.
  induction commands generalizing s with
  | nil =>
    obtain rfl := Option.some.inj hall
    exact h.refl
  | cons command commands ih =>
    obtain ⟨t, hfirst, hrest⟩ := Option.bind_eq_some_iff.1 hall
    have hnext := h.command hfirst
    exact (ih hnext.booked hrest).trans hnext

/-! ### Between two dispatches -/

/-- A pid is that of an actor, which lives or has ended. -/
def Known (s : Scheduler) (pid : Pid) : Prop :=
  (s.actor? pid).isSome ∨ (s.exitReason? pid).isSome

/-- The books as they are between two dispatches. -/
structure InOrder (s : Scheduler) : Prop where
  /-- No pid is twice in the ready queue. -/
  ready_nodup : s.ready.Nodup
  /-- Nor is one twice among those that wait. -/
  blocked_nodup : s.blocked.Nodup
  /-- No pid is in both. -/
  disjoint : ∀ pid ∈ s.ready, pid ∉ s.blocked
  /-- Together they hold the actors that live. -/
  live : ∀ pid, pid ∈ s.ready ∨ pid ∈ s.blocked ↔ (s.actor? pid).isSome
  /-- An actor is found under its own pid. -/
  own : ∀ pid p, s.actor? pid = some p → p.pid = pid
  /-- In the ready queue are those that can run. -/
  ready : ∀ pid, pid ∈ s.ready ↔ ∃ p, s.actor? pid = some p ∧ p.state = .ready ∧ p.wait = none
  /-- The others are those that wait. -/
  blocked : ∀ pid,
    pid ∈ s.blocked ↔ ∃ p, s.actor? pid = some p ∧ p.state = .blocked ∧ p.wait.isSome
  /-- Who lives has not ended. -/
  exclusive : ∀ pid, ¬ ((s.actor? pid).isSome ∧ (s.exitReason? pid).isSome)
  /-- The pids given out are those below the next one. -/
  known : ∀ pid, s.Known pid ↔ 1 ≤ pid.number ∧ pid.number ≤ s.registry.nextPid.number - 1

/-- The pids that were given out stay given out, and who has ended has ended for good. -/
structure Continues (s s' : Scheduler) : Prop where
  /-- No actor is lost. -/
  known : ∀ pid, s.Known pid → s'.Known pid
  /-- None comes back, and none ends twice. -/
  exits : ∀ pid reason, s.exitReason? pid = some reason → s'.exitReason? pid = some reason
  /-- A pid that is given out was not known before. -/
  fresh : ∀ callee args child s'', spawnCallable callee args s' = .ok child s'' → ¬ s.Known child

/-- If no actor is being run, the pids given out are the known ones. -/
theorem Booked.known_iff (h : Booked none s) (pid : Pid) :
    s.Known pid ↔ s.registry.Issued pid := by
  have hplaced := h.placed pid
  rw [Known]
  generalize s.actor? pid = live at hplaced
  generalize s.exitReason? pid = ended at hplaced
  cases hplaced with
  | ready _ _ _ _ hl => simp [hl.issued]
  | blocked _ _ _ _ hl => simp [hl.issued]
  | running hl => exact nomatch hl.running.2 trivial
  | exited _ hl => simp [hl.issued]
  | unknown hl => simp [hl.issued]

/-- If no actor is being run, the invariant says that all accounts agree. -/
theorem Booked.inOrder (h : Booked none s) : InOrder s where
  ready_nodup := h.ready
  blocked_nodup := h.blocked
  disjoint pid hmem := by
    obtain ⟨p, -, -, -, -, -, -, hlisted⟩ := h.of_mem_ready hmem
    exact hlisted.blocked.1
  -- A live actor is placed, and where it is placed says in which of the two lists it is.
  live pid := by
    constructor
    · intro hmem
      obtain ⟨p, hp⟩ := h.exists_live hmem
      rw [hp, Option.isSome_some]
    · intro hsome
      obtain ⟨p, hp⟩ := Option.isSome_iff_exists.1 hsome
      obtain ⟨-, -, -, ⟨-, -, hlisted⟩ | ⟨-, -, hlisted⟩⟩ := h.of_live hp
      · exact .inl (hlisted.ready.2 trivial)
      · exact .inr (hlisted.blocked.2 trivial)
  own pid p hp := by
    obtain ⟨-, hown, -⟩ := h.of_live hp
    exact hown
  ready pid := by
    constructor
    · intro hmem
      obtain ⟨p, hp, -, -, -, hstate, hwait, -⟩ := h.of_mem_ready hmem
      exact ⟨p, hp, hstate, hwait⟩
    · rintro ⟨p, hp, -, hwait⟩
      obtain ⟨-, -, -, ⟨-, -, hlisted⟩ | ⟨-, hsome, -⟩⟩ := h.of_live hp
      · exact hlisted.ready.2 trivial
      · rw [hwait] at hsome
        cases hsome
  blocked pid := by
    constructor
    · intro hmem
      obtain ⟨p, hp, -, -, -, hstate, hwait, -⟩ := h.of_mem_blocked hmem
      exact ⟨p, hp, hstate, hwait⟩
    · rintro ⟨p, hp, -, hsome⟩
      obtain ⟨-, -, -, ⟨-, hwait, -⟩ | ⟨-, -, hlisted⟩⟩ := h.of_live hp
      · rw [hwait] at hsome
        cases hsome
      · exact hlisted.blocked.2 trivial
  exclusive pid := by
    rintro ⟨hlives, hended⟩
    obtain ⟨p, hp⟩ := Option.isSome_iff_exists.1 hlives
    obtain ⟨hexit, -⟩ := h.of_live hp
    rw [hexit] at hended
    cases hended
  known pid := by
    rw [h.known_iff, Registry.Issued]
    omega

/-- What follows upon a state continues its history. -/
theorem Follows.continues (h : Follows s none s') (hs : Booked none s) : Continues s s' where
  known pid := by
    rw [hs.known_iff, h.booked.known_iff, Registry.Issued, Registry.Issued]
    have hnext := h.nextPid
    omega
  exits := h.exits
  fresh callee args child s'' hspawn := by
    obtain ⟨rfl, -⟩ := spawnCallable_eq_ok hspawn
    rw [hs.known_iff, Registry.Issued]
    have hnext := h.nextPid
    omega

/-- Whatever was done to a scheduler, between two dispatches its books are in order. From any such
state on, pids are given out once, and no actor is lost. -/
theorem inOrder_of_reaches {config : SchedulerConfig} {loader : Loader} {clock : Clock}
    {s : Scheduler} (h : Reaches (create config loader clock) s) :
    InOrder s ∧ ∀ s', Reaches s s' → Continues s s' := by
  have hs := (h.follows (booked_create config loader clock)).booked
  exact ⟨hs.inOrder, fun s' hnext => (hnext.follows hs).continues hs⟩

/-- Whether an exit reason is a fault. -/
def exitedWithFault : Option ExitReason → Bool
  | some (.error _) => true
  | _ => false

theorem exists_fault_of_exitedWithFault {reason : Option ExitReason}
    (h : exitedWithFault reason = true) : ∃ fault, reason = some (.error fault) := by
  rcases reason with _ | (result | fault | _)
  · cases h
  · cases h
  · exact ⟨fault, rfl⟩
  · cases h

/-- A function that waits for a message, and one that returns. -/
def waiter : Routine :=
  .loose { Prototype.blank with code := #[.nil, .receive 0, .ret] }

def returner : Routine :=
  .loose { Prototype.blank with code := #[.ret] }

/-- After two steps one of three actors waits, one has ended and one has not had its turn. -/
theorem inOrder_waiter :
    ∃ s : Scheduler, s.blocked = [⟨1⟩] ∧ (s.exitReason? ⟨2⟩).isSome = true ∧ s.ready = [⟨3⟩] ∧
      InOrder s ∧ ∀ s', Reaches s s' → Continues s s' := by
  have hfacts : (Command.carryOutAll
        [.spawn waiter [], .spawn returner [], .spawn returner [], .step 3, .step 3]
        (create {} .standard .standing)).map
      (fun s : Scheduler => (s.blocked, (s.exitReason? ⟨2⟩).isSome, s.ready)) =
      some ([⟨1⟩], true, [⟨3⟩]) := by
    decide +kernel
  obtain ⟨s, hs, heq⟩ := Option.map_eq_some_iff.1 hfacts
  obtain ⟨hblocked, hended, hready⟩ : _ ∧ _ ∧ _ := by simpa using heq
  exact ⟨s, hblocked, hended, hready, inOrder_of_reaches ⟨_, hs⟩⟩

/-- An actor of such a scheduler has come to where it is by what can happen to actors. -/
theorem reached_of_reaches {config : SchedulerConfig} {loader : Loader} {clock : Clock}
    (h : Reaches (create config loader clock) s) (hp : s.actor? pid = some p) :
    Reached config.actor p := by
  have hfollows := h.follows (booked_create config loader clock)
  obtain ⟨-, -, hreached, -⟩ := hfollows.booked.of_live hp
  rwa [hfollows.config] at hreached

end ActorMachine.Scheduler
