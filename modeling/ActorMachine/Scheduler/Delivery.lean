import ActorMachine.Actor.Call
import ActorMachine.Scheduler.Basic

/-!
# Actors come, wake up and go

Starting actors, delivering messages, waking those that wait and ending actors. An actor
that becomes able to run, for whatever reason, goes to the end of the ready queue.
-/

namespace ActorMachine.Scheduler

/-! ### Starting -/

/-- Starts an actor that calls `callee`. If that fails nothing has happened. -/
def spawnCallable (callee : Payload) (args : List Payload) : Action Pid := do
  let s ← get
  let pid := s.registry.nextPid
  match Actor.start callee args (.create pid s.config.actor) with
  | .error fault _ => throw fault
  | .ok _ p =>
    modify fun s =>
      { s with registry := s.registry.enroll p, ready := s.ready ++ [pid] }.notify
        (.started pid)
    return pid

/-- Starts an actor that runs a routine. -/
def spawn (entry : Routine) (args : List Payload) : Action Pid :=
  spawnCallable (.closure entry []) args

/-- Starts an actor that runs an exported function. -/
def spawnExport (module name : String) (args : List Payload) : Action Pid := do
  match ← ofExcept ((← get).loader.resolve module name) with
  | .function routine => spawn routine args
  | .native _ => throw (.notCallable "native")

/-! ### Waking -/

/-- Puts a waiting actor at the end of the ready queue. -/
def makeReady (s : Scheduler) (pid : Pid) : Scheduler :=
  if pid ∈ s.blocked then
    let s := { s with blocked := s.blocked.filter (· ≠ pid) }
    match s.actor? pid with
    | some p =>
      { s with
        registry := s.registry.put { p with wait := none, state := .ready }
        ready := s.ready ++ [pid] }
    | none => s
  else
    s

/-- The time at which the waiting of an actor ends by itself. -/
def deadlineOf? (s : Scheduler) (pid : Pid) : Option Time := do
  (← (← s.actor? pid).wait).deadline?

/-- Wakes every actor whose deadline has come. -/
def wakeExpired (now : Time) (s : Scheduler) : Scheduler :=
  (s.blocked.filter fun pid => (s.deadlineOf? pid).any (· ≤ now)).foldl makeReady s

/-- The earliest deadline of a waiting actor. -/
def nextDeadline? (s : Scheduler) : Option Time :=
  (s.blocked.filterMap s.deadlineOf?).min?

/-- Delivers a message. It is lost if there is no such actor or its heap has no room; it
wakes the actor if that waits in a receive. -/
def deliver (receiver : Pid) (payload : Payload) (s : Scheduler) : Scheduler :=
  match s.actor? receiver with
  | none => s
  | some p =>
    -- The registry lets go of the actor meanwhile, so that it can be changed in place.
    let s := { s with registry := s.registry.lend receiver }
    match Actor.deliver payload p with
    | .error _ p => { s with registry := s.registry.put p }
    | .ok _ p =>
      let wake := p.awaitsMessage
      let s := { s with registry := s.registry.put p }
      if wake then s.makeReady receiver else s

/-- Delivers a message from outside. -/
def send (receiver : Pid) (payload : Payload) (s : Scheduler) : Scheduler :=
  s.deliver receiver payload

/-! ### Ending -/

/-- Records the end of an actor and tells the observers, first of the fault if there was
one. -/
def finish (pid : Pid) (reason : ExitReason) (s : Scheduler) : Scheduler :=
  let s :=
    match reason with
    | .error fault => s.notify (.threw pid fault)
    | _ => s
  let s := s.notify (.ended pid reason)
  { s with registry := s.registry.retire pid reason }

/-- Ends an actor from outside; says whether there was one. -/
def kill (pid : Pid) (s : Scheduler) : Bool × Scheduler :=
  match s.actor? pid with
  | none => (false, s)
  | some _ =>
    let s := { s with
      registry := s.registry.lend pid
      ready := s.ready.filter (· ≠ pid)
      blocked := s.blocked.filter (· ≠ pid) }
    (true, s.finish pid .killed)

end ActorMachine.Scheduler
