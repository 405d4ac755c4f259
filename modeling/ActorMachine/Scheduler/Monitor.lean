/-!
# The monitor

The monitor counts what happens in a scheduler and its loader, and can pause the run loop.
Occurrences queue up until the counters are read.
-/

namespace ActorMachine

/-- What the monitor is told of. -/
inductive Occurrence
  /-- An actor was started. -/
  | started
  /-- An actor has ended. -/
  | ended
  /-- A fault has ended an actor. -/
  | failed
  /-- A breakpoint was executed. -/
  | breakpoint
  /-- Modules were linked. -/
  | linked
deriving DecidableEq, Repr, Inhabited

/-- How often each kind of occurrence was counted. -/
structure Counters where
  /-- Actors started. -/
  spawned : Nat := 0
  /-- Actors ended. -/
  exited : Nat := 0
  /-- Actors ended by a fault. -/
  errors : Nat := 0
  /-- Breakpoints executed. -/
  breaks : Nat := 0
  /-- Successful links. -/
  links : Nat := 0
deriving DecidableEq, Repr, Inhabited

namespace Counters

/-- Counts one occurrence. -/
def count (c : Counters) : Occurrence → Counters
  | .started => { c with spawned := c.spawned + 1 }
  | .ended => { c with exited := c.exited + 1 }
  | .failed => { c with errors := c.errors + 1 }
  | .breakpoint => { c with breaks := c.breaks + 1 }
  | .linked => { c with links := c.links + 1 }

end Counters

/-- The monitor. -/
structure Monitor where
  /-- The run loop is to stop before the next actor. -/
  paused : Bool := false
  /-- Occurrences not counted yet, oldest first. -/
  queue : List Occurrence := []
  /-- What was counted so far. -/
  counters : Counters := {}
deriving DecidableEq, Repr, Inhabited

namespace Monitor

/-- Tells the monitor of an occurrence. -/
def record (o : Occurrence) (m : Monitor) : Monitor :=
  { m with queue := m.queue ++ [o] }

/-- Counts what has queued up and reads the counters. -/
def read (m : Monitor) : Counters × Monitor :=
  let counters := m.queue.foldl Counters.count m.counters
  (counters, { m with queue := [], counters })

end Monitor

end ActorMachine
