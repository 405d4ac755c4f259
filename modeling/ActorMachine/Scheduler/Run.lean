import ActorMachine.Machine.Run
import ActorMachine.Scheduler.Delivery

/-!
# Dispatching actors

A step wakes the actors whose time has come, asks the observers and runs the first ready
actor until it gives way, waits or ends. `run` takes steps until no actor can go on, sleeping
toward the next deadline when there is one.

Programs need not come to an end, so dispatching is given a budget of instructions, and
running one of rounds as well. No answer means that the budget was too small.
-/

namespace ActorMachine

/-- The result of one step. -/
inductive StepOutcome
  /-- An actor was run until it gave way, waited or ended. -/
  | ran (pid : Pid)
  /-- An observer has objected. -/
  | interrupted
  /-- No actor can run. -/
  | nothingReady
deriving DecidableEq, Repr, Inhabited

/-- Why running has stopped. -/
inductive RunOutcome
  /-- Every actor has ended. -/
  | idle
  /-- The actors that are left wait for messages that nobody will send. -/
  | stalled
  /-- An observer has objected. -/
  | interrupted
deriving DecidableEq, Repr, Inhabited

namespace Scheduler

/-- How the scheduler goes on after an outcome of the actor being run. -/
inductive Verdict
  /-- The actor goes on. -/
  | resume
  /-- The actor gives way or waits. -/
  | suspend
  /-- The actor has ended. -/
  | stop (reason : ExitReason)
deriving Inhabited

/-- Starts the actor that a running one asks for, and puts its pid on the top of the stack.
A failure is handled as a fault of the running actor. -/
def startRequested (callee : Payload) (args : List Payload) (guarded : Bool) (s : Scheduler)
    (p : Actor) : Scheduler × Actor × Verdict :=
  let (result, s, p) :=
    match spawnCallable callee args s with
    | .error fault s => (Except.error fault, s, p)
    | .ok child s =>
      -- The native has left nil where the pid belongs.
      match Actor.onStack (Stack.setAt (-1) (.pid child)) p with
      | .ok _ p => (.ok (), s, p)
      | .error fault p => (.error fault, s, p)
  match result with
  | .ok _ => (s, p, .resume)
  | .error fault =>
    match (if guarded then Actor.failProtectedCall fault else Actor.unwind fault) p with
    | .ok _ p => (s, p, .resume)
    | .error fault p => (s, p, .stop (.error fault))

/-- Does what an outcome of the actor being run asks for. -/
def settle (outcome : Outcome) (s : Scheduler) (p : Actor) :
    Scheduler × Actor × Verdict :=
  match outcome with
  | .send receiver payload =>
    if receiver = p.pid then
      match Actor.deliver payload p with
      | .ok _ p | .error _ p => (s, p, .resume)
    else
      (s.deliver receiver payload, p, .resume)
  | .newActor callee args guarded => s.startRequested callee args guarded p
  | .breakpoint ip => (s.notify (.breakpoint p.pid ip), p, .resume)
  | .giveWay => (s, { p with state := .ready }, .suspend)
  | .block deadline =>
    (s, { p with wait := some (.message deadline), state := .blocked }, .suspend)
  | .sleep deadline =>
    (s, { p with wait := some (.timer deadline), state := .blocked }, .suspend)
  | .exit result =>
    match Payload.capture p.heap result with
    | .ok payload => (s, p, .stop (.normal payload))
    | .error fault => (s, p, .stop (.error fault))
  | .trap fault => (s, p, .stop (.error fault))

/-- Runs an actor until it gives way, waits or ends; then the reason is answered. -/
def attend : Nat → Scheduler → Actor → Option (Scheduler × Actor × Option ExitReason)
  | 0, _, _ => none
  | budget + 1, s, p =>
    let now := s.clock.now
    let s := { s with clock := s.clock.tick }
    match Machine.advance s.loader now p with
    | (none, p) => attend budget s p
    | (some outcome, p) =>
      match s.settle outcome p with
      | (s, p, .resume) => attend budget s p
      | (s, p, .suspend) => some (s, p, none)
      | (s, p, .stop reason) => some (s, p, some reason)

/-- An actor as it is when its turn comes: running, after a collection if one is due. -/
def prepared (p : Actor) : Actor :=
  let p := { p with state := .running }
  if p.heap.shouldCollect then
    match Actor.collectGarbage p with
    | .ok _ p | .error _ p => p
  else
    p

/-- Takes back an actor that has given way or waits. -/
def park (p : Actor) (s : Scheduler) : Scheduler :=
  let pid := p.pid
  let s :=
    match p.state with
    | .ready => { s with ready := s.ready ++ [pid] }
    | _ => { s with blocked := s.blocked ++ [pid] }
  { s with registry := s.registry.put p }

/-- Runs an actor and deals with what becomes of it. When an actor ends, replaced modules
may have become free. -/
def dispatch (budget : Nat) (p : Actor) (s : Scheduler) : Option Scheduler := do
  let pid := p.pid
  let (s, p, reason) ← attend budget s (prepared p)
  match reason with
  | some reason => return (s.finish pid reason).collectModules.2
  | none => return s.park p

/-- Wakes whose time has come and dispatches the first ready actor, unless an observer
objects. -/
def step (budget : Nat) (s : Scheduler) : Option (StepOutcome × Scheduler) := do
  let s := { s.wakeExpired s.clock.now with clock := s.clock.tick }
  match s.ready with
  | [] => return (.nothingReady, s)
  | pid :: ready =>
    let (agreed, s) := s.consult
    if !agreed then
      return (.interrupted, s)
    let s := { s with ready }
    match s.actor? pid with
    | some p =>
      return (.ran pid, ← dispatch budget p { s with registry := s.registry.lend pid })
    | none => return (.ran pid, s)

/-- Takes steps until no actor can go on or an observer objects. -/
def run : Nat → Scheduler → Option (RunOutcome × Scheduler)
  | 0, _ => none
  | budget + 1, s =>
    match s.step budget with
    | none => none
    | some (.ran _, s) => run budget s
    | some (.interrupted, s) => some (.interrupted, s)
    | some (.nothingReady, s) =>
      if s.live = 0 then
        some (.idle, s)
      else
        match s.nextDeadline? with
        -- Something will be due: sleep until then and look again.
        | some deadline => run budget { s with clock := s.clock.sleepUntil deadline }
        | none => some (.stalled, s)

end Scheduler

end ActorMachine
