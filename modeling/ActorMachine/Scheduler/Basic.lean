import ActorMachine.Loader.Garbage
import ActorMachine.Loader.Link
import ActorMachine.Scheduler.Monitor
import ActorMachine.Scheduler.Registry

/-!
# The scheduler

A scheduler keeps its actors in a registry, those that can run in a queue, and those that
wait in a list. It runs one actor at a time, until that actor hands control back for good.

Observers are told what happens. They are asked before every dispatch, and each of them can
hold it up. What logging observers are told is written into a journal.
-/

namespace ActorMachine

/-- The number of an observer. -/
structure ObserverId where
  /-- Position in the order of attachment. -/
  number : Nat
deriving DecidableEq, Repr, Inhabited

/-- What an observer does. -/
inductive ObserverRole
  /-- Writes all it is told into the journal. With an allowance it agrees to so many
  dispatches and to none after that. -/
  | logging (allowance : Option Nat)
  /-- Ignores everything and agrees to everything. -/
  | silent
  /-- Forwards to the monitor and agrees unless that is paused. -/
  | monitoring
deriving DecidableEq, Repr, Inhabited

/-- An attached observer. -/
structure Observer where
  /-- Its number. -/
  id : ObserverId
  /-- What it does. -/
  role : ObserverRole
deriving DecidableEq, Repr, Inhabited

/-- What observers are told. -/
inductive Event
  /-- An actor was started. -/
  | started (pid : Pid)
  /-- An actor is ended by a fault. -/
  | threw (pid : Pid) (fault : Fault)
  /-- An actor has ended. -/
  | ended (pid : Pid) (reason : ExitReason)
  /-- An actor has executed a breakpoint. -/
  | breakpoint (pid : Pid) (ip : Nat)
  /-- An actor is about to be dispatched, unless an observer objects. -/
  | consulted
deriving Inhabited

/-- What the monitor is told when an event happens. -/
def Event.occurrence? : Event → Option Occurrence
  | started _ => some .started
  | threw .. => some .failed
  | ended .. => some .ended
  | breakpoint .. => some .breakpoint
  | consulted => none

/-- A scheduler. -/
structure Scheduler where
  /-- Its settings. -/
  config : SchedulerConfig
  /-- The modules and libraries. -/
  loader : Loader
  /-- The actors. -/
  registry : Registry
  /-- The actors that can run, the next one first. -/
  ready : List Pid
  /-- The actors that wait, in the order in which they began to. -/
  blocked : List Pid
  /-- The observers in the order of attachment. -/
  observers : List Observer
  /-- Number of observers ever attached. -/
  nextObserver : Nat
  /-- The monitor. -/
  monitor : Monitor
  /-- The clock. -/
  clock : Clock
  /-- What logging observers were told, oldest first. -/
  journal : Array (ObserverId × Event)
deriving Inhabited

namespace Scheduler

/-- Operations on a scheduler. A failing operation still says what the scheduler is
afterwards. -/
abbrev Action := EStateM Fault Scheduler

/-- A scheduler without actors. -/
def create (config : SchedulerConfig) (loader : Loader) (clock : Clock) : Scheduler :=
  { config, loader, registry := .empty, ready := [], blocked := [], observers := [],
    nextObserver := 0, monitor := {}, clock, journal := #[] }

/-- Number of actors that have not ended. -/
def live (s : Scheduler) : Nat :=
  s.registry.liveCount

/-- Number of actors that can run. -/
def readyCount (s : Scheduler) : Nat :=
  s.ready.length

/-- The actor of a pid, unless it has ended. -/
def actor? (s : Scheduler) (pid : Pid) : Option Actor :=
  s.registry.actor? pid

/-- The reason why the actor of a pid has ended. -/
def exitReason? (s : Scheduler) (pid : Pid) : Option ExitReason :=
  s.registry.exitReason? pid

/-- The state of an actor; none if there never was one with this pid. -/
def state? (s : Scheduler) (pid : Pid) : Option ActorState :=
  match s.actor? pid with
  | some p => some p.state
  | none => (s.exitReason? pid).map fun _ => .exited

/-- The text that sums up a scheduler under an identifier. -/
def summary (s : Scheduler) (identifier : String) : String :=
  s!"Scheduler \x7b id: {identifier}, processes: {s.live}, ready: {s.readyCount}, " ++
    s!"blocked: {s.blocked.length}, observers: {s.observers.length} \x7d"

/-! ### Observers -/

/-- Attaches an observer behind those there are. -/
def attach (role : ObserverRole) (s : Scheduler) : ObserverId × Scheduler :=
  let id : ObserverId := ⟨s.nextObserver⟩
  (id, { s with
    nextObserver := s.nextObserver + 1
    observers := s.observers ++ [{ id, role }] })

/-- Detaches an observer; says whether it was attached. -/
def detach (id : ObserverId) (s : Scheduler) : Bool × Scheduler :=
  (s.observers.any fun o => o.id = id,
    { s with observers := s.observers.filter fun o => o.id ≠ id })

/-- Tells one observer of an event. -/
def tell (event : Event) (s : Scheduler) (o : Observer) : Scheduler :=
  match o.role with
  | .logging _ => { s with journal := s.journal.push (o.id, event) }
  | .silent => s
  | .monitoring =>
    match event.occurrence? with
    | some occurrence => { s with monitor := s.monitor.record occurrence }
    | none => s

/-- Tells every observer of an event. -/
def notify (event : Event) (s : Scheduler) : Scheduler :=
  s.observers.foldl (tell event) s

/-- An observer agrees to a dispatch. -/
def agrees (s : Scheduler) (o : Observer) : Bool :=
  match o.role with
  | .logging allowance => allowance ≠ some 0
  | .silent => true
  | .monitoring => !s.monitor.paused

/-- An observer after having been asked. -/
def Observer.asked (o : Observer) : Observer :=
  match o.role with
  | .logging allowance => { o with role := .logging (allowance.map (· - 1)) }
  | _ => o

/-- Asks every observer, also after one has objected; says whether all agree. -/
def consult (s : Scheduler) : Bool × Scheduler :=
  let s := s.notify .consulted
  (s.observers.all s.agrees, { s with observers := s.observers.map Observer.asked })

/-- Hands over the journal and starts a new one. -/
def takeJournal (s : Scheduler) : Array (ObserverId × Event) × Scheduler :=
  (s.journal, { s with journal := #[] })

/-! ### The loader -/

/-- Does something with the loader. -/
def onLoader {α : Type} (act : Loader.Action α) : Action α := fun s =>
  let loader := s.loader
  let s := { s with loader := .empty }
  match act loader with
  | .ok a loader => .ok a { s with loader }
  | .error fault loader => .error fault { s with loader }

/-- Links all pending modules and tells the monitor as often as it listens. -/
def link : Action LinkReport := do
  let linking ← onLoader Loader.link
  linking.told.forM fun (listener, _) =>
    match listener with
    | .monitor => modify fun s => { s with monitor := s.monitor.record .linked }
    | .numbered _ => pure ()
  return linking.report

/-- Drops the replaced modules that neither an actor, nor a kept result, nor a hold wants
any more; answers how many. -/
def collectModules (s : Scheduler) : Nat × Scheduler :=
  if s.loader.garbage.isEmpty then
    (0, s)
  else
    let (count, loader) := s.loader.collectGarbage s.registry.routines
    (count, { s with loader })

end Scheduler

end ActorMachine
