import ActorMachine.Proofs.Scheduler.Happenings

/-!
# What observers are told

* `Deals`: what a scheduler does in a turn is that somebody is started, that the observers are told
  of a breakpoint, or nothing that would concern them.
* `Watches`: what becomes of the observers, the monitor and the journal in one move
  (`Happens.watches`). All that happens to actors is told, and nothing else is.
* `Logs`: a logging observer that stays attached has written down all of it, in this order.
* `Counts`: the only monitoring observer has made the monitor count all of it, however often the
  counters were read.
-/

namespace ActorMachine

/-- The actor that an event is about. -/
def Event.pid? : Event → Option Pid
  | started pid | threw pid _ | ended pid _ | breakpoint pid _ => some pid
  | consulted => none

/-- How often one kind of occurrence was counted. -/
def Counters.of (c : Counters) : Occurrence → Nat
  | .started => c.spawned
  | .ended => c.exited
  | .failed => c.errors
  | .breakpoint => c.breaks
  | .linked => c.links

/-- Every occurrence is counted once, under its kind. -/
theorem Counters.of_foldl_count (c : Counters) (occurrences : List Occurrence) (k : Occurrence) :
    (occurrences.foldl Counters.count c).of k = c.of k + occurrences.count k := by
  induction occurrences generalizing c with
  | nil => rfl
  | cons o occurrences ih =>
    have hone : (c.count o).of k = c.of k + if o = k then 1 else 0 := by
      cases o <;> cases k <;> rfl
    rw [List.foldl_cons, ih, hone, List.count_cons]
    simp only [beq_iff_eq]
    omega

/-- What queues up is counted when the counters are read. -/
theorem Monitor.read_append (m : Monitor) (occurrences : List Occurrence) :
    ({ m with queue := m.queue ++ occurrences } : Monitor).read.1 =
      occurrences.foldl Counters.count m.read.1 :=
  List.foldl_append

namespace Scheduler

open Machine

variable {s s' t : Scheduler} {pid : Pid} {p q : Actor} {m m' : Moment} {id : ObserverId}
  {hs since : List Happening}

/-! ### Changes that concern no observer -/

/-- What observers are there, and what they have said, is the same. -/
structure SameWatch (s s' : Scheduler) : Prop where
  /-- The observers are the same. -/
  observers : s'.observers = s.observers
  /-- None was attached. -/
  nextObserver : s'.nextObserver = s.nextObserver
  /-- The monitor is the same. -/
  monitor : s'.monitor = s.monitor
  /-- The journal is the same. -/
  journal : s'.journal = s.journal

namespace SameWatch

theorem refl (s : Scheduler) : SameWatch s s :=
  ⟨rfl, rfl, rfl, rfl⟩

theorem trans (h' : SameWatch s' t) (h : SameWatch s s') : SameWatch s t :=
  ⟨h'.observers.trans h.observers, h'.nextObserver.trans h.nextObserver,
    h'.monitor.trans h.monitor, h'.journal.trans h.journal⟩

/-- The same observers take the same events in the same way. -/
theorem told (h : SameWatch s s') (events : List Event) :
    SameWatch (s.told events) (s'.told events) := by
  refine ⟨h.observers, h.nextObserver, ?_, ?_⟩
  · simp only [Scheduler.told, h.observers, h.monitor]
  · simp only [Scheduler.told, h.observers, h.journal]

end SameWatch

/-- Nobody is started, nobody ends, and nobody is told anything. -/
structure Quiet (s s' : Scheduler) : Prop extends SameWatch s s' where
  /-- The same actors live. -/
  living : ∀ pid, (s'.actor? pid).isSome = (s.actor? pid).isSome
  /-- The same ones have ended. -/
  exitReason? : ∀ pid, s'.exitReason? pid = s.exitReason? pid

theorem quiet_of_eq (hregistry : s'.registry = s.registry) (hwatch : SameWatch s s') :
    Quiet s s' := by
  refine { hwatch with living := fun pid => ?_, exitReason? := fun pid => ?_ }
  · rw [actor?, actor?, hregistry]
  · rw [exitReason?, Scheduler.exitReason?, hregistry]

/-- A message is a matter between its sender and its receiver. -/
theorem quiet_deliver {hand : Option Pid} (h : Booked hand s) (receiver : Pid) (payload : Payload) :
    Quiet s (s.deliver receiver payload) := by
  cases hlive : s.actor? receiver with
  | none =>
    rw [Scheduler.deliver, hlive]
    exact quiet_of_eq rfl (.refl s)
  | some p =>
    obtain ⟨q, hmeets, hcases⟩ := deliver_spec h hlive payload
    obtain ⟨-, hown, -⟩ := h.of_live hlive
    have hpid : q.pid = receiver := hmeets.pid_eq.trans hown
    -- The receiver lives before and after.
    have hliving : ∀ pid, ((s.registry.put q).actor? pid).isSome = (s.actor? pid).isSome := by
      intro pid
      rw [actor?_put]
      split
      next heq => rw [heq, hpid, hlive, Option.isSome_some, Option.isSome_some]
      next => rfl
    rcases hcases with ⟨-, hdeliver⟩ | ⟨-, -, hdeliver⟩
    · rw [hdeliver]
      exact ⟨⟨rfl, rfl, rfl, rfl⟩, hliving, fun _ => rfl⟩
    · rw [hdeliver]
      exact ⟨⟨rfl, rfl, rfl, rfl⟩, hliving, fun _ => rfl⟩

theorem sameWatch_makeReady (s : Scheduler) (pid : Pid) :
    SameWatch s (s.makeReady pid) ∧ (s.makeReady pid).registry.exits = s.registry.exits := by
  rw [Scheduler.makeReady]
  split
  next =>
    dsimp only
    split
    next => exact ⟨⟨rfl, rfl, rfl, rfl⟩, rfl⟩
    next => exact ⟨⟨rfl, rfl, rfl, rfl⟩, rfl⟩
  next => exact ⟨.refl s, rfl⟩

theorem sameWatch_wakeExpired (s : Scheduler) (now : Time) : SameWatch s (s.wakeExpired now) ∧
    (s.wakeExpired now).registry.exits = s.registry.exits := by
  have hfold : ∀ (pids : List Pid) (s : Scheduler), SameWatch s (pids.foldl makeReady s) ∧
      (pids.foldl makeReady s).registry.exits = s.registry.exits := by
    intro pids
    induction pids with
    | nil => exact fun s => ⟨.refl s, rfl⟩
    | cons pid pids ih =>
      intro s
      obtain ⟨hwatch, hexits⟩ := sameWatch_makeReady s pid
      obtain ⟨hwatch', hexits'⟩ := ih (s.makeReady pid)
      exact ⟨hwatch'.trans hwatch, hexits'.trans hexits⟩
  exact hfold (s.blocked.filter fun pid => (s.deadlineOf? pid).any (· ≤ now)) s

/-- Nor is anybody else concerned when actors wake up. -/
theorem quiet_wakeExpired (h : Booked none s) (now : Time) : Quiet s (s.wakeExpired now) := by
  obtain ⟨hwatch, hexits⟩ := sameWatch_wakeExpired s now
  refine { hwatch with living := fun pid => ?_, exitReason? := fun pid => ?_ }
  · have hrouses := rouses_wakeExpired h now pid
    generalize (s.wakeExpired now).actor? pid = a at hrouses
    generalize s.actor? pid = b at hrouses
    cases hrouses <;> rfl
  · exact congrArg (fun exits : Table ExitReason => exits.find? pid) hexits

/-! ### Turns -/

/-- What a scheduler does for the actor being run, with what happens then. -/
inductive Deals (s : Scheduler) : List Happening → Scheduler → Prop
  /-- It concerns no observer. -/
  | quiet {s' : Scheduler} (quiet : Quiet s s') : Deals s [] s'
  /-- Another actor is started. -/
  | starts {callee : Payload} {args : List Payload} {child : Pid} {s' : Scheduler}
      (spawned : spawnCallable callee args s = .ok child s') : Deals s [.started child] s'
  /-- The actor has executed a breakpoint. -/
  | breaks (pid : Pid) (ip : Nat) : Deals s [.broke pid ip] (s.notify (.breakpoint pid ip))

/-- Of a start that an actor asks for, the scheduler sees what it sees of any other. -/
theorem startRequested_fst (callee : Payload) (args : List Payload) (guarded : Bool)
    (s : Scheduler) (p : Actor) :
    (s.startRequested callee args guarded p).1 = after (spawnCallable callee args) s := by
  -- Whether there is room for the pid and what becomes of a fault is a matter of the actor.
  rw [startRequested, after]
  cases spawnCallable callee args s with
  | ok child t =>
    dsimp only
    cases Actor.onStack (Stack.setAt (-1) (.pid child)) p with
    | ok => rfl
    | error =>
      dsimp only
      split <;> rfl
  | error fault t =>
    dsimp only
    split <;> rfl

theorem deals_after (callee : Payload) (args : List Payload) (s : Scheduler) :
    Deals s (starts callee args s) (after (spawnCallable callee args) s) := by
  rw [Scheduler.starts, after]
  cases hspawn : spawnCallable callee args s with
  | ok child t => exact .starts hspawn
  | error fault t =>
    obtain rfl := spawnCallable_eq_error hspawn
    exact .quiet (quiet_of_eq rfl (.refl t))

/-- In a turn, what happens is read off the instruction. -/
theorem Valid.deals (h : Valid ⟨s, some p⟩) {v : Verdict} (hturn : s.turn p = (s', q, v)) :
    Deals { s with clock := s.clock.tick } (inTurn s p) s' := by
  have hpid := h.pid_advance
  have htick : Booked (some p.pid) { s with clock := s.clock.tick } :=
    (h.booked.atClock s.clock.tick).booked
  have hquiet : ∀ t : Scheduler, Deals t [] t := fun t => .quiet (quiet_of_eq rfl (.refl t))
  have hbreak : ∀ ip, breaksAt? p = some ip ↔
      (advance s.loader s.clock.now p).1 = some (.breakpoint ip) := fun _ =>
    advance_breakpoint_iff.symm
  obtain rfl : (s.turn p).1 = s' := congrArg Prod.fst hturn
  rw [Scheduler.turn, inTurn]
  generalize advance s.loader s.clock.now p = a at hpid hbreak
  obtain ⟨o, r⟩ := a
  cases hat : breaksAt? p with
  | some ip =>
    obtain rfl : o = some (.breakpoint ip) := (hbreak ip).1 hat
    rw [← hpid]
    exact .breaks r.pid ip
  | none =>
    cases o with
    | none => exact hquiet _
    | some o =>
      cases o with
      | send receiver payload =>
        dsimp only
        rw [settle]
        -- A message to itself does not leave the actor that has the turn.
        split
        next =>
          cases Actor.deliver payload r with
          | ok => exact hquiet _
          | error => exact hquiet _
        next => exact .quiet (quiet_deliver htick receiver payload)
      | newActor callee args guarded =>
        dsimp only
        rw [settle, startRequested_fst]
        exact deals_after callee args _
      | breakpoint ip => cases hat.symm.trans ((hbreak ip).2 rfl)
      | giveWay | block | sleep | trap => exact hquiet _
      | exit result =>
        -- The end is recorded after the turn, be the result fit for it or not.
        dsimp only
        rw [settle]
        cases Payload.capture r.heap result with
        | ok => exact hquiet _
        | error => exact hquiet _

/-! ### What is told in a move -/

namespace Happening

/-- The actor to which something happens. -/
def pid? : Happening → Option Pid
  | started pid | broke pid _ | ended pid _ => some pid
  | _ => none

/-- What the observers are told of it. -/
def events : Happening → List Event
  | started pid => [.started pid]
  | broke pid ip => [.breakpoint pid ip]
  | ended pid reason => closing pid reason
  | asked => [.consulted]
  | _ => []

/-- What was in the journal when it was handed over. -/
def entries : Happening → List (ObserverId × Event)
  | handedOver journal => journal.toList
  | _ => []

end Happening

/-- What becomes of the observers, the monitor and the journal when something happens. -/
inductive Watches (s : Scheduler) : List Happening → Scheduler → Prop
  /-- The observers are told what happens to actors. -/
  | told {hs : List Happening} {s' : Scheduler} (actors : ∀ h ∈ hs, h.pid?.isSome)
      (same : SameWatch (s.told (hs.flatMap Happening.events)) s') : Watches s hs s'
  /-- They are asked for a dispatch. -/
  | asked : Watches s [.asked] s.consult.2
  /-- One of them is attached. -/
  | attached (role : ObserverRole) :
      Watches s [.attached ⟨(s.attach role).1, role⟩] (s.attach role).2
  /-- One is detached. -/
  | detached (id : ObserverId) : Watches s [.detached id] (s.detach id).2
  /-- The journal is handed over. -/
  | handedOver : Watches s [.handedOver s.takeJournal.1] s.takeJournal.2
  /-- The monitor is paused or read, or told of a link. -/
  | monitored {s' : Scheduler} (n : Nat) (observers : s'.observers = s.observers)
      (nextObserver : s'.nextObserver = s.nextObserver) (journal : s'.journal = s.journal)
      (counters : s'.monitor.read.1 =
        (List.replicate n Occurrence.linked).foldl Counters.count s.monitor.read.1) :
      Watches s [] s'

theorem SameWatch.watches (h : SameWatch s s') : Watches s [] s' :=
  .told (fun _ => nofun) (by simpa using h)

theorem Deals.told (h : Deals s hs s') :
    (∀ h ∈ hs, h.pid?.isSome) ∧ SameWatch (s.told (hs.flatMap Happening.events)) s' := by
  cases h with
  | quiet hquiet =>
    refine ⟨fun _ => nofun, ?_⟩
    rw [List.flatMap_nil, told_nil]
    exact hquiet.toSameWatch
  | starts hspawn =>
    obtain ⟨rfl, p, -, rfl⟩ := spawnCallable_eq_ok hspawn
    refine ⟨List.forall_mem_singleton.2 rfl, ?_⟩
    have henrolled : SameWatch s { s with
        registry := s.registry.enroll p, ready := s.ready ++ [s.registry.nextPid] } :=
      ⟨rfl, rfl, rfl, rfl⟩
    rw [notify_eq, List.flatMap_singleton]
    exact henrolled.told [.started s.registry.nextPid]
  | breaks pid ip =>
    refine ⟨List.forall_mem_singleton.2 rfl, ?_⟩
    rw [notify_eq]
    exact .refl _

/-- The end of an actor is told as it is recorded. -/
theorem sameWatch_finish (pid : Pid) (reason : ExitReason) (s : Scheduler) :
    SameWatch (s.told (closing pid reason)) (s.finish pid reason) := by
  rw [finish_eq]
  exact ⟨rfl, rfl, rfl, rfl⟩

theorem sameWatch_park (p : Actor) (s : Scheduler) : SameWatch s (s.park p) := by
  rw [park]
  cases p.state <;> exact ⟨rfl, rfl, rfl, rfl⟩

/-- In every move the observers are told what happens to actors. -/
theorem Happens.watches (hhappens : Happens m hs m') (h : Valid m) :
    Watches m.scheduler hs m'.scheduler := by
  have htick : ∀ s : Scheduler, SameWatch s { s with clock := s.clock.tick } := fun _ =>
    ⟨rfl, rfl, rfl, rfl⟩
  cases hhappens with
  | spawn s callee args =>
    obtain ⟨hactors, hsame⟩ := (deals_after callee args s).told
    exact .told hactors hsame
  | send s receiver payload => exact (quiet_deliver h.booked receiver payload).toSameWatch.watches
  | kill s pid =>
    rw [kills, Scheduler.kill]
    cases s.actor? pid with
    | none => exact (SameWatch.refl s).watches
    | some p =>
      -- By then the actor is in no queue any more.
      have hgone : SameWatch s { s with
          registry := s.registry.lend pid
          ready := s.ready.filter (· ≠ pid)
          blocked := s.blocked.filter (· ≠ pid) } := ⟨rfl, rfl, rfl, rfl⟩
      refine .told (List.forall_mem_singleton.2 rfl) ?_
      show SameWatch (s.told (closing pid .killed)) (finish pid .killed _)
      exact (sameWatch_finish pid .killed _).trans (hgone.told _)
  | wake s now => exact (quiet_wakeExpired h.booked now).toSameWatch.watches
  | provide => exact SameWatch.watches ⟨rfl, rfl, rfl, rfl⟩
  | link s =>
    obtain ⟨loader, n, -, hlink⟩ := after_link s
    rw [hlink]
    exact .monitored n rfl rfl rfl (Monitor.read_append s.monitor _)
  | attach s role => exact .attached role
  | detach s id => exact .detached id
  | takeJournal s => exact .handedOver
  | consult s => exact .asked
  | pause | read => exact .monitored 0 rfl rfl rfl rfl
  | begin => exact SameWatch.watches ⟨rfl, rfl, rfl, rfl⟩
  | @resume s s' p q hturn =>
    obtain ⟨hactors, hsame⟩ := (h.deals hturn).told
    exact .told hactors (hsame.trans ((htick s).told _))
  | @suspend s s' p q hturn =>
    obtain ⟨hactors, hsame⟩ := (h.deals hturn).told
    exact .told hactors ((sameWatch_park q s').trans (hsame.trans ((htick s).told _)))
  | @stop s s' p q reason hturn =>
    obtain ⟨hactors, hsame⟩ := (h.deals hturn).told
    obtain ⟨loader, hcollect⟩ := collectModules_spec (s'.finish p.pid reason)
    refine .told (List.forall_mem_append.2 ⟨hactors, List.forall_mem_singleton.2 rfl⟩) ?_
    have hcollected : SameWatch (s'.finish p.pid reason) { s'.finish p.pid reason with loader } :=
      ⟨rfl, rfl, rfl, rfl⟩
    rw [List.flatMap_append, List.flatMap_singleton, ← told_told, hcollect]
    -- First the turn is told, and then the end.
    have hended := (hsame.trans ((htick s).told _)).told (closing p.pid reason)
    exact hcollected.trans ((sameWatch_finish p.pid reason s').trans hended)

/-! ### Logging observers -/

/-- The events in a journal that one observer was told of. -/
def heard (id : ObserverId) (journal : List (ObserverId × Event)) : List Event :=
  journal.filterMap fun entry => if entry.1 = id then some entry.2 else none

theorem heard_append (id : ObserverId) (journal journal' : List (ObserverId × Event)) :
    heard id (journal ++ journal') = heard id journal ++ heard id journal' :=
  List.filterMap_append

/-- All that an observer was told of, be the journal handed over or not. -/
def logged (id : ObserverId) (hs : List Happening) (s : Scheduler) : List Event :=
  heard id (hs.flatMap Happening.entries ++ s.journal.toList)

/-- What the observers write down of an event, those of a number do. -/
theorem heard_flatMap_entries (id : ObserverId) (event : Event) (observers : List Observer) :
    heard id (observers.flatMap (·.entries event)) =
      (observers.filter (·.id = id)).flatMap fun o => (o.entries event).map Prod.snd := by
  induction observers with
  | nil => rfl
  | cons o observers ih =>
    have hone : heard id (o.entries event) =
        if o.id = id then (o.entries event).map Prod.snd else [] := by
      rw [Observer.entries]
      cases o.role with
      | logging => by_cases heq : o.id = id <;> simp [heard, heq]
      | silent | monitoring => simp [heard]
    rw [List.flatMap_cons, heard_append, ih, hone, List.filter_cons]
    by_cases heq : o.id = id
    · simp [heq]
    · simp [heq]

/-- A logging observer writes down all it is told. -/
theorem heard_told {allowance : Option Nat}
    (hattached : s.observers.filter (·.id = id) = [⟨id, .logging allowance⟩]) (events : List Event) :
    heard id (s.told events).journal.toList = heard id s.journal.toList ++ events := by
  have hevents : heard id (events.flatMap fun e => s.observers.flatMap (·.entries e)) = events := by
    induction events with
    | nil => rfl
    | cons e events ih =>
      rw [List.flatMap_cons, heard_append, ih, heard_flatMap_entries, hattached]
      rfl
  rw [told]
  simp only [Array.toList_append]
  rw [heard_append, hevents]

/-- A logging observer writes down all that is told in a move, and that is all there is of it in the
journal, be that handed over or not. -/
theorem Watches.heard (h : Watches s hs s') {allowance : Option Nat}
    (hattached : s.observers.filter (·.id = id) = [⟨id, .logging allowance⟩]) :
    heard id (hs.flatMap Happening.entries ++ s'.journal.toList) =
      heard id s.journal.toList ++ hs.flatMap Happening.events := by
  have hnothing : ∀ journal, Scheduler.heard id journal = Scheduler.heard id journal ++ [] :=
    fun _ => (List.append_nil _).symm
  cases h with
  | told hactors hsame =>
    -- While actors act nobody takes the journal.
    have hentries : hs.flatMap Happening.entries = [] := by
      refine List.flatMap_eq_nil_iff.2 fun h hmem => ?_
      have hpid := hactors h hmem
      cases h <;> first | rfl | cases hpid
    rw [hentries, List.nil_append, hsame.journal]
    exact heard_told hattached _
  | asked =>
    rw [consult_eq]
    exact heard_told hattached [.consulted]
  | attached | detached => exact hnothing _
  | handedOver =>
    refine Eq.trans ?_ (hnothing _)
    simp [Happening.entries, takeJournal]
  | monitored n _ _ hjournal =>
    rw [hjournal]
    exact hnothing _

/-- The numbers of observers count up and do not come back. -/
structure Numbered (s : Scheduler) : Prop where
  /-- The next number is that of no observer. -/
  observers : ∀ o ∈ s.observers, o.id.number < s.nextObserver
  /-- Nor is there one of that number in the journal. -/
  journal : ∀ entry ∈ s.journal.toList, entry.1.number < s.nextObserver

theorem numbered_create (config : SchedulerConfig) (loader : Loader) (clock : Clock) :
    Numbered (create config loader clock) :=
  ⟨fun _ => nofun, fun _ => nofun⟩

theorem asked_id (o : Observer) : (Observer.asked o).id = o.id := by
  rw [Observer.asked]
  cases o.role <;> rfl

/-- Observers that are told apart by what does not change when they are asked can be picked out
before or after. -/
theorem filter_asked {P : Observer → Bool} (hP : ∀ o, P (Observer.asked o) = P o)
    (observers : List Observer) :
    (observers.map Observer.asked).filter P = (observers.filter P).map Observer.asked := by
  rw [List.filter_map]
  exact congrArg (fun Q => (observers.filter Q).map Observer.asked) (funext hP)

/-- Only observers that are attached write into the journal. -/
theorem Numbered.told (h : Numbered s) (events : List Event) {entry : ObserverId × Event}
    (hmem : entry ∈ (s.told events).journal.toList) : entry.1.number < s.nextObserver := by
  simp only [Scheduler.told, Array.toList_append, List.mem_append, List.mem_flatMap] at hmem
  rcases hmem with hold | ⟨event, -, o, ho, hnew⟩
  · exact h.journal entry hold
  · rw [Observer.entries] at hnew
    split at hnew
    next =>
      obtain rfl := List.mem_singleton.1 hnew
      exact h.observers o ho
    next => cases hnew

theorem Watches.numbered (h : Watches s hs s') (hnumbered : Numbered s) : Numbered s' := by
  cases h with
  | told _ hsame =>
    refine ⟨?_, ?_⟩
    · rw [hsame.observers, hsame.nextObserver]
      exact hnumbered.observers
    · rw [hsame.journal, hsame.nextObserver]
      exact fun _ => hnumbered.told _
  | asked =>
    rw [consult_eq]
    refine ⟨fun o ho => ?_, fun _ => hnumbered.told [.consulted]⟩
    obtain ⟨o', ho', rfl⟩ := List.mem_map.1 ho
    rw [asked_id]
    exact hnumbered.observers o' ho'
  -- The new observer gets the next number, and the journal is not concerned.
  | attached role =>
    refine ⟨fun o ho => ?_, fun entry hmem => Nat.lt_succ_of_lt (hnumbered.journal entry hmem)⟩
    rcases List.mem_append.1 ho with hold | hnew
    · exact Nat.lt_succ_of_lt (hnumbered.observers o hold)
    · obtain rfl := List.mem_singleton.1 hnew
      exact Nat.lt_succ_self _
  | detached id =>
    exact ⟨fun o ho => hnumbered.observers o (List.mem_filter.1 ho).1, hnumbered.journal⟩
  | handedOver => exact ⟨hnumbered.observers, fun _ => nofun⟩
  | monitored n hobservers hnext hjournal =>
    refine ⟨?_, ?_⟩
    · rw [hobservers, hnext]
      exact hnumbered.observers
    · rw [hjournal, hnext]
      exact hnumbered.journal

/-- A logging observer has been attached since something began to happen, and has written down all
events. -/
structure Logs (id : ObserverId) (since : List Happening) (s : Scheduler) : Prop where
  /-- Its number was given out. -/
  own : id.number < s.nextObserver
  /-- It is attached. -/
  attached : ∃ allowance, s.observers.filter (·.id = id) = [⟨id, .logging allowance⟩]
  /-- It has written down what it was told. -/
  logged : logged id since s = since.flatMap Happening.events

/-- A new logging observer has not written anything yet. -/
theorem Numbered.logs (h : Numbered s) (allowance : Option Nat) :
    Logs ⟨s.nextObserver⟩ [] (s.attach (.logging allowance)).2 where
  own := Nat.lt_succ_self _
  attached := by
    refine ⟨allowance, ?_⟩
    have hnone : s.observers.filter (fun o => decide (o.id = ⟨s.nextObserver⟩)) = [] := by
      refine List.filter_eq_nil_iff.2 fun o ho heq => ?_
      have hlt := h.observers o ho
      rw [decide_eq_true_eq] at heq
      rw [heq] at hlt
      exact Nat.lt_irrefl _ hlt
    simp [attach, List.filter_append, hnone]
  logged := by
    refine List.filterMap_eq_nil_iff.2 fun entry hmem => if_neg fun heq => ?_
    have hlt := h.journal entry hmem
    rw [heq] at hlt
    exact Nat.lt_irrefl _ hlt

/-- As long as it is not detached, a logging observer goes on logging. -/
theorem Watches.logs (h : Watches s hs s') (hstays : .detached id ∉ hs) (hlogs : Logs id since s) :
    Logs id (since ++ hs) s' := by
  obtain ⟨allowance, hattached⟩ := hlogs.attached
  -- What was handed over, before and now, comes before what is in the journal.
  have hlogged : Scheduler.logged id (since ++ hs) s' =
      (since ++ hs).flatMap Happening.events := by
    rw [List.flatMap_append, ← hlogs.logged, Scheduler.logged, List.flatMap_append,
      List.append_assoc, heard_append, h.heard hattached, ← List.append_assoc, ← heard_append,
      Scheduler.logged]
  cases h with
  | told _ hsame =>
    exact ⟨hsame.nextObserver ▸ hlogs.own, ⟨allowance, hsame.observers ▸ hattached⟩, hlogged⟩
  | asked =>
    rw [consult_eq] at hlogged ⊢
    refine ⟨hlogs.own, ⟨allowance.map (· - 1), ?_⟩, hlogged⟩
    -- To be asked changes the allowance and not the number.
    rw [filter_asked fun o => by rw [asked_id], hattached]
    rfl
  | attached role =>
    refine ⟨Nat.lt_succ_of_lt hlogs.own, ⟨allowance, ?_⟩, hlogged⟩
    -- The new observer has a number of its own.
    have hne : (⟨s.nextObserver⟩ : ObserverId) ≠ id := by
      rintro rfl
      exact Nat.lt_irrefl _ hlogs.own
    simp [attach, List.filter_append, hattached, hne]
  | detached other =>
    have hne : id ≠ other := by
      rintro rfl
      exact hstays List.mem_cons_self
    refine ⟨hlogs.own, ⟨allowance, ?_⟩, hlogged⟩
    rw [detach, List.filter_comm, hattached]
    simp [hne]
  | handedOver => exact ⟨hlogs.own, hlogs.attached, hlogged⟩
  | monitored n hobservers hnext _ =>
    exact ⟨hnext ▸ hlogs.own, ⟨allowance, hobservers ▸ hattached⟩, hlogged⟩

/-! ### The monitor -/

/-- What the monitor is told of something that happens. -/
def Happening.occurrences (h : Happening) : List Occurrence :=
  h.events.filterMap Event.occurrence?

/-- What the observers tell the monitor of an event, those do that forward to it. -/
theorem flatMap_occurrences (event : Event) (observers : List Observer) :
    observers.flatMap (·.occurrences event) =
      (observers.filter (·.role = .monitoring)).flatMap fun _ => event.occurrence?.toList := by
  induction observers with
  | nil => rfl
  | cons o observers ih =>
    rw [List.flatMap_cons, ih, List.filter_cons]
    cases hrole : o.role <;> simp [Observer.occurrences, hrole]

/-- What the observers are told is counted when the counters are read. -/
theorem of_read_told (events : List Event) (s : Scheduler) (k : Occurrence) :
    (s.told events).monitor.read.1.of k = s.monitor.read.1.of k +
      (events.flatMap fun e => s.observers.flatMap (·.occurrences e)).count k := by
  rw [told, Monitor.read_append, Counters.of_foldl_count]

/-- But for links, a move makes the monitor count what the observers tell it. -/
theorem Watches.of_read (h : Watches s hs s') {k : Occurrence} (hk : k ≠ .linked) :
    s'.monitor.read.1.of k = s.monitor.read.1.of k +
      ((hs.flatMap Happening.events).flatMap fun e =>
        s.observers.flatMap (·.occurrences e)).count k := by
  cases h with
  | told _ hsame =>
    rw [hsame.monitor]
    exact of_read_told _ s k
  | asked =>
    rw [consult_eq]
    exact of_read_told [.consulted] s k
  | attached | detached | handedOver => rfl
  | monitored n _ _ _ hcounters =>
    rw [hcounters, Counters.of_foldl_count, List.count_replicate, if_neg (by simpa using hk.symm)]
    rfl

/-- The monitor hears of actors only. -/
theorem flatMap_occurrences_eq_nil (hnobody : ∀ h ∈ hs, h.pid? = none) (observers : List Observer) :
    ((hs.flatMap Happening.events).flatMap fun e => observers.flatMap (·.occurrences e)) = [] := by
  refine List.flatMap_eq_nil_iff.2 fun event hevent => ?_
  obtain ⟨h, hmem, hevent⟩ := List.mem_flatMap.1 hevent
  have hpid := hnobody h hmem
  have hnone : event.occurrence? = none := by
    cases h with
    | asked =>
      obtain rfl := List.mem_singleton.1 hevent
      rfl
    | started | broke | ended => cases hpid
    | attached | detached | handedOver => cases hevent
  rw [flatMap_occurrences, hnone]
  exact List.flatMap_eq_nil_iff.2 fun _ _ => rfl

/-- Only one observer has told the monitor what happens, and that has been attached since something
began to happen. -/
structure Counts (id : ObserverId) (since : List Happening) (s : Scheduler) : Prop where
  /-- It is attached, and it is the only one. -/
  only : s.observers.filter (·.role = .monitoring) = [⟨id, .monitoring⟩]
  /-- But for links, the counters say how often each kind has occurred. -/
  counters : ∀ k, k ≠ .linked →
    s.monitor.read.1.of k = (since.flatMap Happening.occurrences).count k

theorem asked_role_iff (o : Observer) :
    (Observer.asked o).role = .monitoring ↔ o.role = .monitoring := by
  rw [Observer.asked]
  cases hrole : o.role <;> simp [hrole]

/-- As long as it is not detached and no other one comes, it does so. -/
theorem Watches.counts (h : Watches s hs s') (hstays : .detached id ∉ hs)
    (honly : ∀ o, .attached o ∈ hs → o.role ≠ .monitoring) (hcounts : Counts id since s) :
    Counts id (since ++ hs) s' := by
  have hcounters : ∀ k, k ≠ .linked →
      s'.monitor.read.1.of k = ((since ++ hs).flatMap Happening.occurrences).count k := by
    intro k hk
    -- With one observer that forwards, what is told reaches the monitor once.
    have hone : ((hs.flatMap Happening.events).flatMap fun e => s.observers.flatMap (·.occurrences e)) =
        hs.flatMap Happening.occurrences := by
      simp only [flatMap_occurrences, hcounts.only, List.flatMap_singleton]
      rw [← List.filterMap_eq_flatMap_toList, List.filterMap_flatMap]
      rfl
    rw [h.of_read hk, hone, hcounts.counters k hk, List.flatMap_append, List.count_append]
  refine ⟨?_, hcounters⟩
  cases h with
  | told _ hsame => exact hsame.observers ▸ hcounts.only
  | asked =>
    rw [consult_eq]
    rw [filter_asked fun o => decide_eq_decide.2 (asked_role_iff o), hcounts.only]
    rfl
  | attached role =>
    have hrole : role ≠ .monitoring := honly _ List.mem_cons_self
    -- The new observer is picked out by its role, and that is another one.
    simp [attach, List.filter_append, hcounts.only, hrole]
  | detached other =>
    have hne : id ≠ other := by
      rintro rfl
      exact hstays List.mem_cons_self
    rw [detach, List.filter_comm, hcounts.only]
    simp [hne]
  | handedOver => exact hcounts.only
  | monitored n hobservers => exact hobservers ▸ hcounts.only

end Scheduler

end ActorMachine
