import ActorMachine.Proofs.Scheduler.Delivery

/-!
# Histories of a scheduler

What happens in a scheduler is cut into moves: an actor is started, sent to or killed from outside,
waiting actors are woken, a dispatch begins, or the actor being run has a turn in it.

* `Move`, `History`: one move with what was sent in it, and moves one after the other.
* `passed_carryOutAll`: whatever is done to a scheduler consists of moves. What is sent from outside
  in these is what the commands send, and in a dispatch the moves are determined
  (`Move.determined`).
* `Move.everyone`: what holds of all that can run and outlasts a message holds of everybody after a
  move if it did before.
* `Valid`: at every moment the books are in order, and an actor that waits for a message has none
  left to look at. Every move preserves this (`Move.valid`).
* `Move.takes`: what a move does to the memory of an actor: at most one message comes behind what
  the next instruction of the actor leaves there.
-/

namespace ActorMachine.Scheduler

open Machine

variable {s s' t : Scheduler} {pid other : Pid} {p q r : Actor} {budget : Nat}

/-! ### Moves -/

/-- A scheduler together with the actor that it is running, if it is running one. -/
structure Moment where
  /-- The scheduler. -/
  scheduler : Scheduler
  /-- The actor that is being run. -/
  hand : Option Actor

namespace Moment

/-- The actor of a pid, unless it has ended, be it being run or not. -/
def actor? (m : Moment) (pid : Pid) : Option Actor :=
  match m.hand with
  | some p => if p.pid = pid then some p else m.scheduler.actor? pid
  | none => m.scheduler.actor? pid

/-- The moment when the actor being run has executed its next instruction and nothing was done about
the outcome yet. -/
def executed (m : Moment) : Moment :=
  { m with hand := m.hand.map fun p => (advance m.scheduler.loader m.scheduler.clock.now p).2 }

/-- The buffer that the next instruction of an actor writes to, if that is being run. -/
def writes (m : Moment) (pid : Pid) : Set Handle :=
  match m.hand with
  | some p => if p.pid = pid then Writes m.scheduler.loader p else ∅
  | none => ∅

@[simp]
theorem actor?_idle (s : Scheduler) (pid : Pid) : (⟨s, none⟩ : Moment).actor? pid = s.actor? pid :=
  rfl

theorem actor?_self (s : Scheduler) (p : Actor) : (⟨s, some p⟩ : Moment).actor? p.pid = some p :=
  if_pos rfl

theorem actor?_of_ne (s : Scheduler) (h : p.pid ≠ pid) :
    (⟨s, some p⟩ : Moment).actor? pid = s.actor? pid :=
  if_neg h

/-- If there is no actor of a pid, it is not the one in hand either. -/
theorem actor?_eq_none_iff :
    (⟨s, some p⟩ : Moment).actor? pid = none ↔ p.pid ≠ pid ∧ s.actor? pid = none := by
  rw [actor?]
  dsimp only
  split
  next heq => simp [heq]
  next hne => simp [hne]

end Moment

variable {m m' m'' : Moment} {letter : Option Letter}

/-- What leads from one moment to the next, with what was sent in between. -/
inductive Move : Moment → Option Letter → Moment → Prop
  /-- An actor is started from outside. -/
  | spawn {s s' : Scheduler} {callee : Payload} {args : List Payload} {child : Pid}
      (spawned : spawnCallable callee args s = .ok child s') : Move ⟨s, none⟩ none ⟨s', none⟩
  /-- A message is sent from outside. -/
  | send (s : Scheduler) (receiver : Pid) (payload : Payload) :
      Move ⟨s, none⟩ (some ⟨receiver, payload⟩) ⟨s.send receiver payload, none⟩
  /-- An actor is killed. -/
  | kill (s : Scheduler) (pid : Pid) : Move ⟨s, none⟩ none ⟨(s.kill pid).2, none⟩
  /-- The actors whose time has come are woken. -/
  | wake (s : Scheduler) (now : Time) : Move ⟨s, none⟩ none ⟨s.wakeExpired now, none⟩
  /-- Time goes by, modules are loaded and linked, and observers come, are told and go. -/
  | manage (s : Scheduler) (loader : Loader) (observers : List Observer) (nextObserver : Nat)
      (monitor : Monitor) (clock : Clock) (journal : Array (ObserverId × Event)) :
      Move ⟨s, none⟩ none
        ⟨{ s with loader, observers, nextObserver, monitor, clock, journal }, none⟩
  /-- The first of the ready actors gets its turn. -/
  | begin {s : Scheduler} {pid : Pid} {ready : List Pid} {p : Actor} (first : s.ready = pid :: ready)
      (live : s.actor? pid = some p) :
      Move ⟨s, none⟩ none ⟨{ s with ready, registry := s.registry.lend pid }, some (prepared p)⟩
  /-- The actor being run has executed an instruction and goes on. -/
  | resume {s s' : Scheduler} {p q : Actor} (turn : s.turn p = (s', q, .resume)) :
      Move ⟨s, some p⟩ (letterOf s p) ⟨s', some q⟩
  /-- It gives way or waits. -/
  | suspend {s s' : Scheduler} {p q : Actor} (turn : s.turn p = (s', q, .suspend)) :
      Move ⟨s, some p⟩ (letterOf s p) ⟨s'.park q, none⟩
  /-- It has ended. -/
  | stop {s s' : Scheduler} {p q : Actor} {reason : ExitReason}
      (turn : s.turn p = (s', q, .stop reason)) :
      Move ⟨s, some p⟩ (letterOf s p) ⟨(s'.finish p.pid reason).collectModules.2, none⟩

/-- A move that was made. -/
structure Record where
  /-- The moment before. -/
  before : Moment
  /-- What was sent. -/
  letter : Option Letter
  /-- The moment after. -/
  after : Moment

/-- Moves one after the other, with a record of each. -/
inductive History : Moment → List Record → Moment → Prop
  /-- Nothing has happened yet. -/
  | nil (m : Moment) : History m [] m
  /-- A move comes first. -/
  | cons {m m' m'' : Moment} {letter : Option Letter} {records : List Record}
      (move : Move m letter m') (rest : History m' records m'') :
      History m (⟨m, letter, m'⟩ :: records) m''

variable {records records' : List Record} {record : Record}

theorem Move.history (h : Move m letter m') : History m [⟨m, letter, m'⟩] m' :=
  .cons h (.nil m')

theorem History.trans (h : History m records m') (h' : History m' records' m'') :
    History m (records ++ records') m'' := by
  induction h with
  | nil => exact h'
  | cons hmove _ ih => exact .cons hmove (ih h')

/-! ### What changes in the tables -/

theorem actor?_kill (s : Scheduler) (pid other : Pid) :
    (s.kill pid).2.actor? other = if other = pid then none else s.actor? other := by
  rw [Scheduler.kill]
  cases hlive : s.actor? pid with
  | none =>
    show s.actor? other = _
    split
    next heq => rw [heq, hlive]
    next => rfl
  | some p =>
    obtain ⟨monitor, journal, hfinish⟩ := finish_spec pid .killed
      { s with
        registry := s.registry.lend pid
        ready := s.ready.filter (· ≠ pid)
        blocked := s.blocked.filter (· ≠ pid) }
    dsimp only
    rw [hfinish]
    exact Table.find?_erase _ _ _

theorem actor?_park (p : Actor) (s : Scheduler) (other : Pid) :
    (s.park p).actor? other = if other = p.pid then some p else s.actor? other := by
  rw [Scheduler.park]
  cases p.state <;> exact Table.find?_insert _ _ _ _

/-- The end of the actor in hand is no matter of those that live. -/
theorem actor?_finish (pid : Pid) (reason : ExitReason) (s : Scheduler) (other : Pid) :
    (s.finish pid reason).collectModules.2.actor? other = s.actor? other := by
  obtain ⟨loader, hcollect⟩ := collectModules_spec (s.finish pid reason)
  obtain ⟨monitor, journal, hfinish⟩ := finish_spec pid reason s
  rw [hcollect, hfinish]
  rfl

/-- An actor is the same, or it was woken. -/
inductive Rouses (p : Actor) : Actor → Prop
  /-- It is the same. -/
  | same : Rouses p p
  /-- It can run. -/
  | woken : Rouses p { p with wait := none, state := .ready }

theorem Rouses.trans (hqr : Rouses q r) (hpq : Rouses p q) : Rouses p r := by
  cases hqr with
  | same => exact hpq
  | woken => cases hpq <;> exact .woken

theorem rouses_makeReady (h : Booked none s) (pid other : Pid) :
    Option.Rel Rouses (s.actor? other) ((s.makeReady pid).actor? other) := by
  -- Nothing is done unless the actor is blocked, and then only to that actor.
  have hsame : Option.Rel Rouses (s.actor? other) (s.actor? other) := by
    cases s.actor? other with
    | none => exact .none
    | some p => exact .some .same
  rw [Scheduler.makeReady]
  split
  next hmem =>
    obtain ⟨p, hlive, -, rfl, -⟩ := h.of_mem_blocked hmem
    have hactor : actor? { s with blocked := s.blocked.filter (· ≠ p.pid) } p.pid = some p := hlive
    simp only [hactor]
    show Option.Rel _ _ ((s.registry.put { p with wait := none, state := .ready }).actor? other)
    rw [actor?_put]
    split
    next heq =>
      rw [heq, hlive]
      exact .some .woken
    next => exact hsame
  next => exact hsame

/-- Waking those whose time has come does nothing else to them, and nothing to the others. -/
theorem rouses_wakeExpired (h : Booked none s) (now : Time) (pid : Pid) :
    Option.Rel Rouses (s.actor? pid) ((s.wakeExpired now).actor? pid) := by
  rw [Scheduler.wakeExpired]
  generalize (s.blocked.filter fun pid => (s.deadlineOf? pid).any (· ≤ now)) = pids
  induction pids generalizing s with
  | nil =>
    show Option.Rel _ (s.actor? pid) (s.actor? pid)
    cases s.actor? pid with
    | none => exact .none
    | some p => exact .some .same
  | cons first pids ih =>
    -- Those that were woken before stay awake, so the steps add up to one.
    have hfirst := rouses_makeReady h first pid
    have hrest := ih (h.makeReady first).booked
    rw [List.foldl_cons]
    generalize (pids.foldl makeReady (s.makeReady first)).actor? pid = a at hrest ⊢
    generalize (s.makeReady first).actor? pid = b at hfirst hrest
    generalize s.actor? pid = c at hfirst
    cases hfirst with
    | none =>
      cases hrest
      exact .none
    | some hpq =>
      cases hrest with
      | some hqr => exact .some (hqr.trans hpq)

/-! ### What holds of everybody -/

/-- Something holds of every actor but the one in hand. -/
def Everyone (P : Actor → Prop) (s : Scheduler) : Prop :=
  ∀ pid p, s.actor? pid = some p → P p

/-- Something holds of every actor that can run, and a message does not put an end to it. -/
structure Lasting (P : Actor → Prop) : Prop where
  /-- It holds of those that can run. -/
  ready : ∀ p, p.state = .ready → p.wait = none → P p
  /-- Where it holds, it does so after a message. -/
  meets : ∀ {p payload? q}, Meets p payload? q → P p → P q

section

variable {P : Actor → Prop}

/-- Only the actor that is killed is missing afterwards. -/
theorem Everyone.kill (h : Everyone P s) (pid : Pid) : Everyone P (s.kill pid).2 := by
  intro other q hq
  rw [actor?_kill] at hq
  split at hq
  next => cases hq
  next => exact h other q hq

/-- Those that are woken can run, and the others are as before. -/
theorem Everyone.wakeExpired (h : Everyone P s) (hP : Lasting P) (hbooked : Booked none s)
    (now : Time) : Everyone P (s.wakeExpired now) := by
  intro other q hq
  have hrouses := rouses_wakeExpired hbooked now other
  rw [hq] at hrouses
  generalize hp : s.actor? other = a at hrouses
  cases hrouses with
  | some hpq =>
    cases hpq with
    | same => exact h other q hp
    | woken => exact hP.ready _ rfl rfl

theorem Everyone.lend (h : Everyone P s) (pid : Pid) (ready : List Pid) :
    Everyone P { s with ready, registry := s.registry.lend pid } := by
  intro other q hq
  change (s.registry.lend pid).actor? other = some q at hq
  rw [Registry.actor?, Registry.lend, Table.find?_erase] at hq
  split at hq
  next => cases hq
  next => exact h other q hq

theorem Everyone.park (h : Everyone P s) (hp : P p) : Everyone P (s.park p) := by
  intro other q hq
  rw [actor?_park] at hq
  split at hq
  next =>
    obtain rfl := Option.some.inj hq
    exact hp
  next => exact h other q hq

theorem Everyone.finish (h : Everyone P s) (pid : Pid) (reason : ExitReason) :
    Everyone P (s.finish pid reason).collectModules.2 := by
  intro other q hq
  rw [actor?_finish] at hq
  exact h other q hq

/-- The others meet what is sent, and newcomers can run. -/
theorem Passes.everyone {hand hand' : Option Pid} (h : Passes hand letter s s') (hP : Lasting P)
    (hs : Everyone P s) (hs' : Booked hand' s')
    (hhand : ∀ pid, hand = some pid → s'.actor? pid = none) : Everyone P s' := by
  intro pid q hq
  cases hlive : s.actor? pid with
  | some p =>
    obtain ⟨q', hq', hmeets⟩ := h.meets hlive
    obtain rfl := Option.some.inj (hq.symm.trans hq')
    exact hP.meets hmeets (hs pid p hlive)
  | none =>
    have hother : hand ≠ some pid := by
      intro heq
      rw [hhand pid heq] at hq
      cases hq
    have hready := (h.newcomers hother hlive hq).1
    obtain ⟨-, -, -, ⟨-, hnone, -⟩ | ⟨hblocked, -⟩⟩ := hs'.of_live hq
    · exact hP.ready q hready hnone
    · cases hready.symm.trans hblocked

end

/-! ### What holds at every moment -/

/-- An actor that waits for a message has none left to look at. -/
def AllRead (s : Scheduler) : Prop :=
  ∀ pid p, s.actor? pid = some p → p.awaitsMessage = true → p.mailbox.rest = []

/-- The books are in order, the actor being run is one that can run, and nobody waits for a message
that is there. -/
structure Valid (m : Moment) : Prop where
  /-- The books are in order for all but the actor being run. -/
  booked : Booked (m.hand.map Actor.pid) m.scheduler
  /-- That one has come to where it is by what can happen to actors, and it waits for nothing. -/
  running : ∀ p, m.hand = some p → Reached m.scheduler.config.actor p ∧ p.wait = none
  /-- Nobody else waits for a message that is there. -/
  allRead : AllRead m.scheduler

theorem Valid.inHand (h : Valid ⟨s, some p⟩) : InHand s p.pid s p := by
  obtain ⟨hreached, hwait⟩ := h.running p rfl
  exact ⟨h.booked.refl, rfl, hreached, hwait⟩

/-- At a valid moment every actor is steady, and its bytes in use lie within the capacities. -/
theorem Valid.steady (h : Valid m) (hp : m.actor? pid = some p) : Steady p ∧ p.heap.Fits := by
  have hof : ∀ {p : Actor}, Reached m.scheduler.config.actor p → Steady p ∧ p.heap.Fits :=
    fun hreached => ⟨steady_of_reached hreached, fits_of_reached hreached⟩
  obtain ⟨s, hand⟩ := m
  cases hand with
  | none =>
    obtain ⟨-, -, hreached, -⟩ := h.booked.of_live hp
    exact hof hreached
  | some q =>
    rw [Moment.actor?] at hp
    dsimp only at hp
    split at hp
    next =>
      obtain rfl := Option.some.inj hp
      exact hof (h.running q rfl).1
    next =>
      obtain ⟨-, -, hreached, -⟩ := h.booked.of_live hp
      exact hof hreached

/-- Whoever still waits for a message has not got one, and those that can run wait for none. -/
theorem lasting_allRead :
    Lasting fun p => p.awaitsMessage = true → p.mailbox.rest = [] where
  ready p hready _ hwaits := by
    rw [Actor.awaitsMessage, hready] at hwaits
    cases hwaits
  meets hmeets hp hwaits := by
    obtain ⟨hwaited, hmailbox⟩ := hmeets.mailbox_eq hwaits
    rw [hmailbox]
    exact hp hwaited

/-- The actor being run is the same one when it has executed an instruction. -/
theorem Valid.pid_advance (h : Valid ⟨s, some p⟩) :
    (advance s.loader s.clock.now p).2.pid = p.pid := by
  have hp := (h.steady (Moment.actor?_self s p)).1
  exact ((advance_spec hp _ _).leads.same hp).1

/-- A turn leaves the actor in hand, and the others have met what it has sent. -/
theorem Valid.turn (h : Valid ⟨s, some p⟩) {v : Verdict} (hturn : s.turn p = (s', q, v)) :
    Settles (letterOf s p) { s with clock := s.clock.tick }
      (advance s.loader s.clock.now p).2 s' q v ∧ Booked (some p.pid) s' := by
  obtain ⟨hreached, -⟩ := h.running p rfl
  exact ⟨turn_settles (steady_of_reached hreached) (fits_of_reached hreached) h.booked hturn,
    (h.inHand.turn hturn).1.booked⟩

/-- In a turn the actor in hand remains the same, and the others meet what it sends. -/
theorem Valid.passes_turn (h : Valid ⟨s, some p⟩) {v : Verdict} (hturn : s.turn p = (s', q, v)) :
    Passes (some p.pid) (letterOf s p) s s' ∧ q.pid = p.pid := by
  have hsettles := (h.turn hturn).1
  have hpasses := hsettles.passes
  rw [h.pid_advance] at hpasses
  -- The turn begins with a tick of the clock, which is no matter of the actors and the queues.
  exact ⟨⟨hpasses.meets, hpasses.newcomers, hpasses.ready, hpasses.blocked⟩,
    hsettles.takes.1.trans h.pid_advance⟩

/-- The first of the ready actors is taken in hand, prepared for its turn. -/
theorem Valid.inHand_begin (h : Valid ⟨s, none⟩) {ready : List Pid} (hfirst : s.ready = pid :: ready)
    (hlive : s.actor? pid = some p) :
    InHand { s with ready, registry := s.registry.lend pid } pid
      { s with ready, registry := s.registry.lend pid } (prepared p) := by
  have hmem : pid ∈ s.ready := hfirst ▸ List.mem_cons_self
  obtain ⟨q, hq, -, rfl, hreached, -, hwait, -⟩ := h.booked.of_mem_ready hmem
  obtain rfl := Option.some.inj (hq.symm.trans hlive)
  exact (h.booked.lend hfirst).booked.inHand hreached hwait

/-- Every move keeps the books in order. -/
theorem Move.booked (hmove : Move m letter m') (h : Valid m) :
    Booked (m'.hand.map Actor.pid) m'.scheduler := by
  cases hmove with
  | spawn hspawned => exact (h.booked.spawnCallable hspawned).booked
  | send s receiver payload => exact (h.booked.deliver receiver payload).booked
  | kill s pid => exact (h.booked.kill pid).booked
  | wake s now => exact (h.booked.wakeExpired now).booked
  | manage s loader observers nextObserver monitor clock journal =>
    -- The books are about the registry and the queues, which stay.
    have hkeep : Follows s none { s with loader, observers, nextObserver, monitor, clock, journal } :=
      h.booked.keep rfl rfl rfl rfl
    exact hkeep.booked
  | @begin s pid ready p hfirst hlive =>
    have hin := h.inHand_begin hfirst hlive
    show Booked (some (prepared p).pid) _
    rw [hin.own]
    exact hin.follows.booked
  | @resume s s' p q hturn =>
    show Booked (some q.pid) s'
    rw [(h.passes_turn hturn).2]
    exact (h.turn hturn).2
  | @suspend s s' p q hturn =>
    obtain ⟨-, hpid, hreached, -, hstands⟩ := h.inHand.turn hturn
    exact ((h.turn hturn).2.park hpid hreached (hstands rfl)).booked
  | @stop s s' p q reason hturn =>
    obtain ⟨loader, hcollect⟩ := collectModules_spec (s'.finish p.pid reason)
    show Booked none (s'.finish p.pid reason).collectModules.2
    have hkeep : Follows (s'.finish p.pid reason) none { s'.finish p.pid reason with loader } :=
      ((h.turn hturn).2.finish reason).booked.keep rfl rfl rfl rfl
    rw [hcollect]
    exact hkeep.booked

/-- The actor in hand after a move is one that can run. -/
theorem Move.running (hmove : Move m letter m') (h : Valid m) :
    ∀ p, m'.hand = some p → Reached m'.scheduler.config.actor p ∧ p.wait = none := by
  cases hmove with
  | spawn | send | kill | wake | manage | suspend | stop => nofun
  | begin hfirst hlive =>
    rintro _ ⟨⟩
    have hin := h.inHand_begin hfirst hlive
    exact ⟨hin.reached, hin.wait⟩
  | @resume s s' p q hturn =>
    rintro _ ⟨⟩
    obtain ⟨-, -, hreached, hwait, -⟩ := h.inHand.turn hturn
    exact ⟨hreached, hwait rfl⟩

/-- What lasts goes on to hold of everybody in a move, if it holds of an actor that suspends itself. -/
theorem Move.everyone {P : Actor → Prop} (hmove : Move m letter m') (h : Valid m) (hP : Lasting P)
    (hm : Everyone P m.scheduler)
    (hsuspends : ∀ {s p s' q}, m = ⟨s, some p⟩ → s.turn p = (s', q, .suspend) → P q) :
    Everyone P m'.scheduler := by
  -- The three moves that end a turn begin with the turn, and what they add concerns its actor only.
  have hturn : ∀ {s p s' q v}, m = ⟨s, some p⟩ → s.turn p = (s', q, v) → Everyone P s' := by
    rintro s p s' q v rfl hturn
    have hbooked := (h.turn hturn).2
    refine (h.passes_turn hturn).1.everyone hP hm hbooked ?_
    rintro _ ⟨⟩
    exact hbooked.of_hand.1
  have hbooked := hmove.booked h
  cases hmove with
  | spawn hspawned =>
    exact (passes_spawnCallable h.booked hspawned).everyone hP hm hbooked nofun
  | send s receiver payload =>
    exact (passes_deliver h.booked receiver payload).everyone hP hm hbooked nofun
  | kill s pid => exact hm.kill pid
  | wake s now => exact hm.wakeExpired hP h.booked now
  | manage => exact hm
  | @begin s pid ready => exact hm.lend pid ready
  | resume hresume => exact hturn rfl hresume
  | suspend hsuspend => exact (hturn rfl hsuspend).park (hsuspends rfl hsuspend)
  | @stop s s' p q reason hstop => exact (hturn rfl hstop).finish p.pid reason

/-- Every move preserves what holds at every moment. -/
theorem Move.valid (hmove : Move m letter m') (h : Valid m) : Valid m' where
  booked := hmove.booked h
  running := hmove.running h
  allRead := by
    refine hmove.everyone h lasting_allRead h.allRead ?_
    -- One that suspends itself to wait for a message has seen all that are there.
    rintro s p s' q rfl hturn
    exact (h.turn hturn).1.rest rfl

/-- The moment before anything has happened is valid. -/
theorem valid_create (config : SchedulerConfig) (loader : Loader) (clock : Clock) :
    Valid ⟨create config loader clock, none⟩ :=
  ⟨booked_create config loader clock, nofun, nofun⟩

theorem History.valid (h : History m records m') (hm : Valid m) : Valid m' := by
  induction h with
  | nil => exact hm
  | cons hmove _ ih => exact ih (hmove.valid hm)

/-- Every record is that of a move from a valid moment. -/
theorem History.of_mem (h : History m records m') (hm : Valid m) (hrecord : record ∈ records) :
    Valid record.before ∧ Move record.before record.letter record.after := by
  induction h with
  | nil => cases hrecord
  | cons hmove _ ih =>
    rcases List.mem_cons.1 hrecord with rfl | hrest
    · exact ⟨hm, hmove⟩
    · exact ih (hmove.valid hm) hrest

/-! ### All that is done consists of moves -/

/-- A dispatch is a history of turns of one actor. -/
theorem exists_history_of_dispatch (h : Booked (some p.pid) s) (hreached : Reached s.config.actor p)
    (hwait : p.wait = none) (hdispatch : dispatch budget p s = some s') :
    ∃ records, History ⟨s, some (prepared p)⟩ records ⟨s', none⟩ ∧
      ∀ record ∈ records, record.before.hand.map Actor.pid = some p.pid := by
  obtain ⟨s₁, q, reason, hattend, hend⟩ := dispatch_eq_some hdispatch
  -- One more record for every turn in which the actor goes on.
  let Turns (t : Scheduler) (r : Actor) : Prop := InHand s p.pid t r ∧ ∃ records,
    History ⟨s, some (prepared p)⟩ records ⟨t, some r⟩ ∧
      ∀ record ∈ records, record.before.hand.map Actor.pid = some p.pid
  have hsnoc : ∀ {t r letter m} (_ : Turns t r) (_ : Move ⟨t, some r⟩ letter m), ∃ records,
      History ⟨s, some (prepared p)⟩ records m ∧
        ∀ record ∈ records, record.before.hand.map Actor.pid = some p.pid := by
    rintro t r letter m ⟨hin, records, hhistory, hall⟩ hmove
    refine ⟨_, hhistory.trans hmove.history, fun record hrecord => ?_⟩
    rcases List.mem_append.1 hrecord with hold | hnew
    · exact hall record hold
    · obtain rfl := List.mem_singleton.1 hnew
      exact congrArg some hin.own
  have hturn : ∀ t r t' r', Turns t r → t.turn r = (t', r', .resume) → Turns t' r' := by
    intro t r t' r' hturns hresume
    exact ⟨hturns.1.resume hresume, hsnoc hturns (.resume hresume)⟩
  obtain ⟨t, r, hturns, hlast⟩ :=
    of_attend hturn ⟨h.inHand hreached hwait, [], .nil _, fun _ => nofun⟩ hattend
  rcases hlast with ⟨rfl, hlast⟩ | ⟨reason, rfl, hlast⟩
  · obtain rfl : s' = s₁.park q := by simpa using hend
    exact hsnoc hturns (.suspend hlast)
  · obtain rfl : s' = (s₁.finish p.pid reason).collectModules.2 := by simpa using hend
    have hstopped := hsnoc hturns (.stop hlast)
    rwa [hturns.1.own] at hstopped

/-- What was sent from outside. -/
def Record.outside (record : Record) : Option Letter :=
  match record.before.hand with
  | none => record.letter
  | some _ => none

/-- Moves lead from one state to another, and no actor is being run in either. These letters were
sent from outside, in this order. -/
def Passed (s : Scheduler) (letters : List Letter) (s' : Scheduler) : Prop :=
  ∃ records, History ⟨s, none⟩ records ⟨s', none⟩ ∧ records.filterMap Record.outside = letters

theorem Passed.refl (s : Scheduler) : Passed s [] s :=
  ⟨[], .nil _, rfl⟩

theorem Passed.trans {letters letters' : List Letter} (h : Passed s letters s')
    (h' : Passed s' letters' t) : Passed s (letters ++ letters') t := by
  obtain ⟨records, hrecords, rfl⟩ := h
  obtain ⟨records', hrecords', rfl⟩ := h'
  exact ⟨_, hrecords.trans hrecords', List.filterMap_append⟩

theorem Passed.valid {letters : List Letter} (h : Passed s letters s') (hs : Valid ⟨s, none⟩) :
    Valid ⟨s', none⟩ := by
  obtain ⟨records, hrecords, -⟩ := h
  exact hrecords.valid hs

theorem Move.passed (h : Move ⟨s, none⟩ letter ⟨s', none⟩) : Passed s letter.toList s' :=
  ⟨_, h.history, by cases letter <;> rfl⟩

theorem passed_atClock (s : Scheduler) (clock : Clock) : Passed s [] { s with clock } :=
  (Move.manage s s.loader s.observers s.nextObserver s.monitor clock s.journal).passed

/-- A step wakes those whose time has come, and if a dispatch follows, that is one of the first
ready actor. -/
theorem passed_step (h : Valid ⟨s, none⟩) {outcome : StepOutcome}
    (hstep : s.step budget = some (outcome, s')) : Passed s [] s' := by
  refine @of_step _ _ _ (Passed s []) _
    ((Move.wake s s.clock.now).passed.trans (passed_atClock _ s.clock.tick))
    (fun {t} ht => ht.trans (consult_eq t ▸
      (Move.manage t t.loader _ t.nextObserver _ t.clock _).passed))
    (fun ht hmem => (ht.valid h).booked.exists_live (.inl hmem))
    (fun {t t' pid ready p} ht hready hlive hdispatch => ?_) hstep
  have hmem : pid ∈ t.ready := hready ▸ List.mem_cons_self
  obtain ⟨q, hq, -, rfl, hreached, -, hwait, -⟩ := (ht.valid h).booked.of_mem_ready hmem
  obtain rfl := Option.some.inj (hq.symm.trans hlive)
  have hlent := ((ht.valid h).booked.lend hready).booked
  obtain ⟨turns, hturns, hhand⟩ := exists_history_of_dispatch hlent hreached hwait hdispatch
  refine ht.trans ⟨_, .cons (.begin hready hlive) hturns, ?_⟩
  -- What is sent in a turn is not sent from outside.
  refine List.filterMap_eq_nil_iff.2 fun record hrecord => ?_
  rcases List.mem_cons.1 hrecord with rfl | hturn
  · rfl
  · obtain ⟨r, hr, -⟩ := Option.map_eq_some_iff.1 (hhand record hturn)
    rw [Record.outside, hr]

/-- A run takes steps, and time goes by between them. -/
theorem passed_run (h : Valid ⟨s, none⟩) {outcome : RunOutcome}
    (hrun : run budget s = some (outcome, s')) : Passed s [] s' :=
  @of_run _ _ _ (Passed s []) _ (fun ht hstep => ht.trans (passed_step (ht.valid h) hstep))
    (fun clock ht => ht.trans (passed_atClock _ clock)) (.refl s) hrun

theorem passed_spawnCallable (s : Scheduler) (callee : Payload) (args : List Payload) :
    Passed s [] (after (Scheduler.spawnCallable callee args) s) := by
  rw [after]
  cases hspawn : Scheduler.spawnCallable callee args s with
  | ok child t => exact (Move.spawn hspawn).passed
  | error fault t =>
    obtain rfl := spawnCallable_eq_error hspawn
    exact .refl t

/-- A command from outside is one move. -/
theorem move_carryOut {command : Command} (hfrom : command.FromOutside)
    (h : command.carryOut s = some s') : Move ⟨s, none⟩ command.sent ⟨s', none⟩ := by
  cases Command.does hfrom h with
  | starts hsilent hspawn => exact hsilent ▸ .spawn hspawn
  | sends receiver payload => exact .send s receiver payload
  | kills pid => exact .kill s pid
  | manages hsilent loader observers nextObserver monitor clock journal =>
    exact hsilent ▸ .manage s loader observers nextObserver monitor clock journal

theorem passed_carryOut (h : Valid ⟨s, none⟩) {command : Command}
    (hrun : command.carryOut s = some s') : Passed s command.sent.toList s' := by
  by_cases hfrom : command.FromOutside
  · exact (move_carryOut hfrom hrun).passed
  · cases command with
    | step budget =>
      obtain ⟨⟨outcome, t⟩, hstep, rfl⟩ := Option.map_eq_some_iff.1 hrun
      exact passed_step h hstep
    | run budget =>
      obtain ⟨⟨outcome, t⟩, hruns, rfl⟩ := Option.map_eq_some_iff.1 hrun
      exact passed_run h hruns
    | _ => exact absurd trivial hfrom

/-- Whatever is done to a scheduler consists of moves, and what they send from outside is what the
commands send. -/
theorem passed_carryOutAll {commands : List Command} (h : Valid ⟨s, none⟩)
    (hall : Command.carryOutAll commands s = some s') :
    Passed s (commands.filterMap Command.sent) s' := by
  induction commands generalizing s with
  | nil =>
    obtain rfl := Option.some.inj hall
    exact .refl s
  | cons command commands ih =>
    obtain ⟨t, hfirst, hrest⟩ := Option.bind_eq_some_iff.1 hall
    have hpassed := passed_carryOut h hfirst
    have hletters := hpassed.trans (ih (hpassed.valid h) hrest)
    rw [List.filterMap_eq_flatMap_toList] at hletters ⊢
    exact hletters

/-- What is reached from the beginning is valid. -/
theorem Reaches.valid {config : SchedulerConfig} {loader : Loader} {clock : Clock}
    (h : Reaches (create config loader clock) s) : Valid ⟨s, none⟩ := by
  obtain ⟨commands, hall⟩ := h
  exact (passed_carryOutAll (valid_create config loader clock) hall).valid (valid_create _ _ _)

/-- In a dispatch the state of the scheduler and of the actor decide what happens next. -/
theorem Move.determined {letter' : Option Letter} (h : Move ⟨s, some p⟩ letter m)
    (h' : Move ⟨s, some p⟩ letter' m') : letter = letter' ∧ m = m' := by
  -- A turn has one verdict, and each kind of move stands for one.
  cases h with
  | resume hturn =>
    cases h' with
    | resume hturn' =>
      cases hturn.symm.trans hturn'
      exact ⟨rfl, rfl⟩
    | suspend hturn' | stop hturn' => cases hturn.symm.trans hturn'
  | suspend hturn =>
    cases h' with
    | suspend hturn' =>
      cases hturn.symm.trans hturn'
      exact ⟨rfl, rfl⟩
    | resume hturn' | stop hturn' => cases hturn.symm.trans hturn'
  | stop hturn =>
    cases h' with
    | stop hturn' =>
      cases hturn.symm.trans hturn'
      exact ⟨rfl, rfl⟩
    | resume hturn' | suspend hturn' => cases hturn.symm.trans hturn'

/-! ### What a move means for an actor -/

/-- Taking the actor in hand back is no matter of the others, who stay in front of it. -/
theorem Passes.park (h : Passes (some q.pid) letter s s') (hactor : s.actor? q.pid = none)
    (hblocked : q.pid ∉ s.blocked) : Passes (some q.pid) letter s (s'.park q) where
  meets {pid p} hp := by
    have hne : pid ≠ q.pid := by
      rintro rfl
      cases hactor.symm.trans hp
    rw [actor?_park, if_neg hne]
    exact h.meets hp
  newcomers {pid r} hne hnone hr := by
    rw [actor?_park, if_neg fun heq => hne (congrArg some heq.symm)] at hr
    exact h.newcomers hne hnone hr
  ready := by
    rw [Scheduler.park]
    split
    next => exact h.ready.trans (List.prefix_append _ _)
    next => exact h.ready
  blocked := by
    rw [Scheduler.park]
    split
    next =>
      -- The one that is taken back was not blocked, so it does not matter that it is ready now.
      have hfilter : s.blocked.filter (fun pid => decide (pid ∉ s'.ready ++ [q.pid])) =
          s.blocked.filter (fun pid => decide (pid ∉ s'.ready)) := by
        refine List.filter_congr fun pid hmem => ?_
        have hne : pid ≠ q.pid := fun heq => hblocked (heq ▸ hmem)
        simp [hne]
      exact hfilter ▸ h.blocked
    next => exact h.blocked.trans (List.prefix_append _ _)

theorem Passes.finish {hand : Option Pid} (h : Passes hand letter s s') (pid : Pid)
    (reason : ExitReason) : Passes hand letter s (s'.finish pid reason).collectModules.2 := by
  obtain ⟨loader, hcollect⟩ := collectModules_spec (s'.finish pid reason)
  obtain ⟨monitor, journal, hfinish⟩ := finish_spec pid reason s'
  rw [hcollect, hfinish]
  exact ⟨h.meets, h.newcomers, h.ready, h.blocked⟩

/-- In a move with an actor in hand the others meet what that sends. -/
theorem Move.passes (hmove : Move m letter m') (h : Valid m) (hp : m.hand = some p) :
    Passes (some p.pid) letter m.scheduler m'.scheduler := by
  cases hmove with
  | resume hresume =>
    obtain rfl := Option.some.inj hp
    exact (h.passes_turn hresume).1
  | suspend hsuspend =>
    obtain rfl := Option.some.inj hp
    obtain ⟨hpasses, hpid⟩ := h.passes_turn hsuspend
    obtain ⟨hactor, -, hlisted⟩ := Booked.of_hand h.booked
    rw [← hpid] at hpasses hactor hlisted ⊢
    exact hpasses.park hactor hlisted.blocked.1
  | stop hstop =>
    obtain rfl := Option.some.inj hp
    exact (h.passes_turn hstop).1.finish _ _
  | spawn | send | kill | wake | manage | begin => cases hp

/-- When its turn comes, the garbage of an actor may be collected. -/
theorem takes_prepared (hp : p.Sound) (hfits : p.heap.Fits) :
    (prepared p).pid = p.pid ∧ Takes p none (prepared p) := by
  rw [prepared]
  dsimp only
  split
  next => exact ⟨rfl, .nothing (Heap.ages_collect hp.heap hfits p.roots) rfl⟩
  next => exact ⟨rfl, .of_eq hfits rfl rfl⟩

/-- The memory of an actor that is woken stays as it is. -/
theorem Rouses.takes (h : Rouses p q) (hfits : p.heap.Fits) : Takes p none q := by
  cases h <;> exact .of_eq hfits rfl rfl

/-- What a move leaves of an actor that has executed its instruction, if it had one to execute. It
lives and has taken the message to it, if there was one, or it has ended and there was none. -/
def Leaves (letter : Option Letter) (pid : Pid) (r : Actor) (m' : Moment) : Prop :=
  (∃ q, m'.actor? pid = some q ∧ Takes r (letterTo letter pid) q) ∨
    (m'.actor? pid = none ∧ letterTo letter pid = none)

/-- With no actor in hand nothing is executed, and an actor takes the message to it as it is. -/
theorem Move.leaves_idle (hmove : Move ⟨s, none⟩ letter m') (h : Valid ⟨s, none⟩)
    (hp : s.actor? pid = some p) : Leaves letter pid p m' := by
  obtain ⟨hsteady, hfits⟩ := h.steady hp
  cases hmove with
  | spawn hspawned =>
    obtain ⟨q, hq, hmeets⟩ := (passes_spawnCallable h.booked hspawned).meets hp
    exact .inl ⟨q, hq, hmeets.takes hfits⟩
  | send s receiver payload =>
    obtain ⟨q, hq, hmeets⟩ := (passes_deliver h.booked receiver payload).meets hp
    exact .inl ⟨q, hq, hmeets.takes hfits⟩
  | kill s other =>
    rw [Leaves, Moment.actor?_idle, actor?_kill]
    split
    next => exact .inr ⟨rfl, rfl⟩
    next => exact .inl ⟨p, hp, .of_eq hfits rfl rfl⟩
  | wake s now =>
    have hrouses := rouses_wakeExpired h.booked now pid
    dsimp only at hrouses
    rw [hp] at hrouses
    rw [Leaves, Moment.actor?_idle]
    generalize (s.wakeExpired now).actor? pid = a at hrouses
    cases hrouses with
    | some hpq => exact .inl ⟨_, rfl, hpq.takes hfits⟩
  | manage => exact .inl ⟨p, hp, .of_eq hfits rfl rfl⟩
  | @begin s other ready p₀ hfirst hlive =>
    obtain ⟨-, hown, -⟩ := h.booked.of_live hlive
    refine .inl ?_
    by_cases heq : other = pid
    · subst heq
      obtain rfl := Option.some.inj (hlive.symm.trans hp)
      obtain ⟨hpid, htakes⟩ := takes_prepared hsteady.sound hfits
      exact ⟨prepared p₀, if_pos (hpid.trans hown), htakes⟩
    · -- Those that are not first stay where they are.
      obtain ⟨hsteady₀, hfits₀⟩ := h.steady hlive
      have hpid := (takes_prepared hsteady₀.sound hfits₀).1
      refine ⟨p, ?_, .of_eq hfits rfl rfl⟩
      rw [Moment.actor?_of_ne _ (by rwa [hpid, hown])]
      exact ((Table.find?_erase _ _ _).trans (if_neg (Ne.symm heq))).trans hp

/-- The actor in hand takes what it has sent to itself. It may have ended in its turn, but not if it
has sent something. -/
theorem Valid.leaves_own (h : Valid ⟨s, some p⟩) {v : Verdict} (hturn : s.turn p = (s', q, v))
    (hafter : m'.actor? p.pid = some q ∨ (m'.actor? p.pid = none ∧ v ≠ .resume)) :
    Leaves (letterOf s p) p.pid (advance s.loader s.clock.now p).2 m' := by
  obtain ⟨hsettles, -⟩ := h.turn hturn
  have htakes := hsettles.takes.2
  rw [h.pid_advance] at htakes
  rcases hafter with hsome | ⟨hnone, hends⟩
  · exact .inl ⟨q, hsome, htakes⟩
  · refine .inr ⟨hnone, ?_⟩
    cases hletter : letterOf s p with
    | none => rfl
    | some l => exact absurd (hsettles.sender l hletter).1 hends

/-- In a turn an actor executes its instruction if it is the one in hand, and otherwise it is one of
those that the turn passes by. -/
theorem Valid.takes_turn {p₀ : Actor} (h : Valid ⟨s, some p₀⟩)
    (hp : (⟨s, some p₀⟩ : Moment).actor? pid = some p) {v : Verdict}
    (hturn : s.turn p₀ = (s', q, v)) (hothers : q.pid ≠ pid → m'.actor? pid = s'.actor? pid)
    (hown : q.pid = pid → m'.actor? pid = some q ∨ (m'.actor? pid = none ∧ v ≠ .resume)) :
    ∃ r, (⟨s, some p₀⟩ : Moment).executed.actor? pid = some r ∧
      Actor.Ages 5 ((⟨s, some p₀⟩ : Moment).writes pid) p r ∧ Leaves (letterOf s p₀) pid r m' := by
  obtain ⟨hsteady, hfits⟩ := h.steady hp
  obtain ⟨hpasses, hq⟩ := h.passes_turn hturn
  -- The actor in hand is not among those of the scheduler, so there are two cases.
  by_cases heq : p₀.pid = pid
  · subst heq
    obtain rfl := Option.some.inj ((Moment.actor?_self s p₀).symm.trans hp)
    refine ⟨(advance s.loader s.clock.now p₀).2, if_pos h.pid_advance, ?_,
      h.leaves_own hturn (hown hq)⟩
    rw [Moment.writes]
    dsimp only
    rw [if_pos rfl]
    exact advance_ages hsteady hfits _ _
  · have hlive : s.actor? pid = some p := (Moment.actor?_of_ne s heq).symm.trans hp
    obtain ⟨u, hu, hmeets⟩ := hpasses.meets hlive
    refine ⟨p, ?_, .same hfits, .inl ⟨u, ?_, hmeets.takes hfits⟩⟩
    · exact (if_neg (by rwa [h.pid_advance])).trans hlive
    · rw [hothers (by rwa [hq])]
      exact hu

/-- An actor first executes its instruction, if it is being run. Then it takes the message to it, if
there is one, unless it has ended. -/
theorem Move.takes (hmove : Move m letter m') (h : Valid m) (hp : m.actor? pid = some p) :
    ∃ r, m.executed.actor? pid = some r ∧ Actor.Ages 5 (m.writes pid) p r ∧
      ((∃ q, m'.actor? pid = some q ∧ Takes r (letterTo letter pid) q) ∨
        (m'.actor? pid = none ∧ letterTo letter pid = none)) := by
  obtain ⟨s, hand⟩ := m
  cases hand with
  | none => exact ⟨p, hp, .same (h.steady hp).2, hmove.leaves_idle h hp⟩
  | some p₀ =>
    cases hmove with
    | @resume _ s' _ q hresume =>
      refine h.takes_turn hp hresume (fun hne => Moment.actor?_of_ne s' hne) fun heq => ?_
      subst heq
      exact .inl (Moment.actor?_self s' q)
    | @suspend _ s' _ q hsuspend =>
      refine h.takes_turn hp hsuspend (fun hne => ?_) fun heq => ?_
      · rw [Moment.actor?_idle, actor?_park, if_neg (Ne.symm hne)]
      · rw [Moment.actor?_idle, actor?_park, if_pos heq.symm]
        exact .inl rfl
    | @stop _ s' _ q reason hstop =>
      obtain ⟨-, hbooked⟩ := h.turn hstop
      refine h.takes_turn hp hstop (fun hne => ?_) fun heq => .inr ⟨?_, nofun⟩
      · rw [Moment.actor?_idle, actor?_finish]
      -- One that has ended is in hand no more, and it was not in the registry before.
      · rw [Moment.actor?_idle, actor?_finish, ← heq, (h.passes_turn hstop).2]
        exact hbooked.of_hand.1

/-- The actor in hand is no newcomer, and the others that come up in its turn have no message. -/
theorem Valid.newcomer_turn (h : Valid ⟨s, some p⟩)
    (hnone : (⟨s, some p⟩ : Moment).actor? pid = none) {v : Verdict}
    (hturn : s.turn p = (s', r, v)) :
    r.pid ≠ pid ∧ (s'.actor? pid = some q → q.mailbox.toList = []) := by
  obtain ⟨hpasses, hr⟩ := h.passes_turn hturn
  obtain ⟨hne, hgone⟩ := Moment.actor?_eq_none_iff.1 hnone
  refine ⟨by rwa [hr], fun hq => ?_⟩
  exact (hpasses.newcomers (fun heq => hne (Option.some.inj heq)) hgone hq).2

/-- An actor that was not there before has no message yet. -/
theorem Move.newcomer (hmove : Move m letter m') (h : Valid m) (hnone : m.actor? pid = none)
    (hq : m'.actor? pid = some q) : q.mailbox.toList = [] := by
  cases hmove with
  | spawn hspawned => exact ((passes_spawnCallable h.booked hspawned).newcomers nofun hnone hq).2
  | send s receiver payload =>
    exact ((passes_deliver h.booked receiver payload).newcomers nofun hnone hq).2
  -- Neither a kill nor a wake nor the start of a dispatch brings anybody.
  | kill s other =>
    rw [Moment.actor?_idle, actor?_kill] at hq
    split at hq
    next => cases hq
    next => cases hnone.symm.trans hq
  | wake s now =>
    have hrouses := rouses_wakeExpired h.booked now pid
    change s.actor? pid = none at hnone
    change (s.wakeExpired now).actor? pid = some q at hq
    dsimp only at hrouses
    rw [hnone, hq] at hrouses
    cases hrouses
  | manage => cases hnone.symm.trans hq
  | @begin s other ready p hfirst hlive =>
    obtain ⟨-, hown, -⟩ := h.booked.of_live hlive
    obtain ⟨hsteady, hfits⟩ := h.steady hlive
    have hpid := (takes_prepared hsteady.sound hfits).1
    have hne : other ≠ pid := by
      rintro rfl
      cases hlive.symm.trans hnone
    rw [Moment.actor?_of_ne _ (by rwa [hpid, hown])] at hq
    have hsame : s.actor? pid = some q :=
      ((Table.find?_erase _ _ _).trans (if_neg (Ne.symm hne))).symm.trans hq
    cases hnone.symm.trans hsame
  | @resume s s' p r hresume =>
    obtain ⟨hne, hall⟩ := h.newcomer_turn hnone hresume
    rw [Moment.actor?_of_ne s' hne] at hq
    exact hall hq
  | @suspend s s' p r hsuspend =>
    obtain ⟨hne, hall⟩ := h.newcomer_turn hnone hsuspend
    rw [Moment.actor?_idle, actor?_park, if_neg (Ne.symm hne)] at hq
    exact hall hq
  | @stop s s' p r reason hstop =>
    rw [Moment.actor?_idle, actor?_finish] at hq
    exact (h.newcomer_turn hnone hstop).2 hq

/-- What is executed concerns an actor that is there. -/
theorem Valid.executed_eq_none (h : Valid m) (hnone : m.actor? pid = none) :
    m.executed.actor? pid = none := by
  obtain ⟨s, hand⟩ := m
  cases hand with
  | none => exact hnone
  | some p =>
    rw [Moment.executed, Option.map_some, Moment.actor?_eq_none_iff, h.pid_advance]
    exact Moment.actor?_eq_none_iff.1 hnone

end ActorMachine.Scheduler
