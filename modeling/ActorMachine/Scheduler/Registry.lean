import ActorMachine.Actor.Basic
import ActorMachine.Scheduler.Table

/-!
# The registry of actors

Two tables, one of the actors that live and one of the reasons why the others have ended. Pids
count up from one and never come back. While an actor is being run it is in neither table but in
the hands of the scheduler.
-/

namespace ActorMachine

/-- The registry. -/
structure Registry where
  /-- The actors that live and are not being run. -/
  living : Table Actor
  /-- The reasons why actors have ended. -/
  exits : Table ExitReason
  /-- The pid that the next actor gets. -/
  nextPid : Pid
deriving Inhabited

namespace Registry

/-- The registry before there is an actor. -/
def empty : Registry :=
  { living := .empty, exits := .empty, nextPid := ⟨1⟩ }

/-- The actor of a pid, unless it has ended or is being run. -/
def actor? (r : Registry) (pid : Pid) : Option Actor :=
  r.living.find? pid

/-- The reason why the actor of a pid has ended. -/
def exitReason? (r : Registry) (pid : Pid) : Option ExitReason :=
  r.exits.find? pid

/-- Takes in a new actor under the next pid. -/
def enroll (p : Actor) (r : Registry) : Registry :=
  { r with living := r.living.insert r.nextPid p, nextPid := ⟨r.nextPid.number + 1⟩ }

/-- Hands out the actor of a pid. -/
def lend (pid : Pid) (r : Registry) : Registry :=
  { r with living := r.living.erase pid }

/-- Takes an actor back. -/
def put (p : Actor) (r : Registry) : Registry :=
  { r with living := r.living.insert p.pid p }

/-- Records that an actor has ended. -/
def retire (pid : Pid) (reason : ExitReason) (r : Registry) : Registry :=
  { r with exits := r.exits.insert pid reason }

/-- Number of actors that live and are not being run. -/
def liveCount (r : Registry) : Nat :=
  r.living.size

/-- The routines whose code the actors and the reasons of their ends keep. -/
def routines (r : Registry) : List Routine :=
  r.living.values.flatMap Actor.routines ++ r.exits.values.flatMap ExitReason.routines

end Registry

end ActorMachine
