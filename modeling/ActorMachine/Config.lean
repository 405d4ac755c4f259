/-!
# Configuration

Limits and settings, with their defaults. Every field can be left out where a
configuration is read (`ActorMachine.Config.Document`).
-/

namespace ActorMachine

/-- Settings of a heap. -/
structure HeapConfig where
  /-- Most bytes the heap may hold. -/
  heapLimit : Nat := 64 * 1024 * 1024
  /-- Bytes allocated before a collection is due. -/
  gcThreshold : Nat := 1024 * 1024
deriving DecidableEq, Repr, Inhabited

/-- Settings of an actor. -/
structure ActorConfig where
  /-- Stack slots set aside when the actor starts. -/
  initialStack : Nat := 64
  /-- Most values on the stack. -/
  maxStack : Nat := 1024 * 1024
  /-- Most frames at once. -/
  maxFrames : Nat := 4096
  /-- Settings of the heap. -/
  heap : HeapConfig := {}
deriving DecidableEq, Repr, Inhabited

/-- A length of time. -/
structure Duration where
  /-- Whole seconds. -/
  seconds : Nat
  /-- The rest, in nanoseconds, which make up less than a second. -/
  nanoseconds : Nat
deriving DecidableEq, Repr, Inhabited

/-- The nanoseconds of a second. -/
def Duration.second : Nat := 1000000000

/-- Settings of a scheduler. -/
structure SchedulerConfig where
  /-- Settings of every actor it starts. -/
  actor : ActorConfig := {}
  /-- Longest single sleep while waiting for a timer. -/
  idleSleepLimit : Duration := { seconds := 0, nanoseconds := 10000000 }
deriving DecidableEq, Repr, Inhabited

/-- Settings of the inspection endpoint. -/
structure EndpointConfig where
  /-- The address to listen on. -/
  address : String := "127.0.0.1:9432"
  /-- Seconds for which a preflight answer may be kept. -/
  corsMaxAge : Nat := 600
deriving DecidableEq, Repr, Inhabited

end ActorMachine
