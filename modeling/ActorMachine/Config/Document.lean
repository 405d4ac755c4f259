import ActorMachine.Config
import ActorMachine.Document

/-!
# Configurations as documents

A configuration is read from a record, in which every field can be left out and unknown
fields are ignored, or from a list of the values of its first fields. A value of the wrong
type, or a list that is too long, makes the whole configuration unreadable. The view of a
configuration shows every field.
-/

namespace ActorMachine

namespace Document

/-- The natural number of 64 bits in a document. -/
def word? : Document → Option Nat
  | int i => if 0 ≤ i ∧ i.toNat < UInt64.size then some i.toNat else none
  | _ => none

/-- The text in a document. -/
def text? : Document → Option String
  | text s => some s
  | _ => none

/-- The fields of a structure with these field names, in order; a field that is left out
has none. -/
def fields? (names : List String) : Document → Option (List (Option Document))
  | record fields => some (names.map fun name => fields.lookup name)
  | list items =>
    if items.length ≤ names.length then
      some ((items.map some) ++ List.replicate (names.length - items.length) none)
    else
      none
  | _ => none

end Document

/-- The value of a field, or its default if it was left out. -/
def fieldOr {α : Type} (read : Document → Option α) (default : α) :
    Option Document → Option α
  | some d => read d
  | none => some default

/-- Reads the settings of a heap. -/
def HeapConfig.read? (d : Document) : Option HeapConfig := do
  let [limit, threshold] ← d.fields? ["heap_limit", "gc_threshold"] | none
  let defaults : HeapConfig := {}
  return {
    heapLimit := ← fieldOr Document.word? defaults.heapLimit limit
    gcThreshold := ← fieldOr Document.word? defaults.gcThreshold threshold }

/-- Reads the settings of an actor. -/
def ActorConfig.read? (d : Document) : Option ActorConfig := do
  let [initialStack, maxStack, maxFrames, heap] ←
    d.fields? ["initial_stack", "max_stack", "max_frames", "gc"] | none
  let defaults : ActorConfig := {}
  return {
    initialStack := ← fieldOr Document.word? defaults.initialStack initialStack
    maxStack := ← fieldOr Document.word? defaults.maxStack maxStack
    maxFrames := ← fieldOr Document.word? defaults.maxFrames maxFrames
    heap := ← fieldOr HeapConfig.read? defaults.heap heap }

/-- The length of time of these seconds and nanoseconds, if 64 bits can hold its seconds. -/
def Duration.ofParts? (seconds nanoseconds : Nat) : Option Duration :=
  let seconds := seconds + nanoseconds / Duration.second
  if seconds < UInt64.size then
    some { seconds, nanoseconds := nanoseconds % Duration.second }
  else
    none

/-- The natural number of 32 bits in a document. -/
def Document.halfWord? (d : Document) : Option Nat := do
  let n ← d.word?
  if n < UInt32.size then some n else none

/-- Reads a length of time. Both fields are needed, and there may be no others. -/
def Duration.read? (d : Document) : Option Duration := do
  if let .record fields := d then
    if !(fields.all fun f => f.1 = "secs" || f.1 = "nanos") then
      none
  let [some seconds, some nanoseconds] ← d.fields? ["secs", "nanos"] | none
  Duration.ofParts? (← seconds.word?) (← nanoseconds.halfWord?)

/-- Reads the settings of a scheduler. -/
def SchedulerConfig.read? (d : Document) : Option SchedulerConfig := do
  let [actor, idleSleepLimit] ← d.fields? ["process", "idle_sleep_limit"] | none
  let defaults : SchedulerConfig := {}
  return {
    actor := ← fieldOr ActorConfig.read? defaults.actor actor
    idleSleepLimit := ← fieldOr Duration.read? defaults.idleSleepLimit idleSleepLimit }

/-- Reads the settings of the inspection endpoint. -/
def EndpointConfig.read? (d : Document) : Option EndpointConfig := do
  let [address, corsMaxAge] ← d.fields? ["address", "cors_max_age"] | none
  let defaults : EndpointConfig := {}
  return {
    address := ← fieldOr Document.text? defaults.address address
    corsMaxAge := ← fieldOr Document.word? defaults.corsMaxAge corsMaxAge }

/-- The view of the settings of a heap. -/
def HeapConfig.view (c : HeapConfig) : Document :=
  .record [("heap_limit", .nat c.heapLimit), ("gc_threshold", .nat c.gcThreshold)]

/-- The view of the settings of an actor. -/
def ActorConfig.view (c : ActorConfig) : Document :=
  .record
    [("initial_stack", .nat c.initialStack),
      ("max_stack", .nat c.maxStack),
      ("max_frames", .nat c.maxFrames),
      ("gc", c.heap.view)]

/-- The view of a length of time: its seconds and its nanoseconds. -/
def Duration.view (d : Duration) : Document :=
  .list [.nat d.seconds, .nat d.nanoseconds]

/-- The view of the settings of a scheduler. -/
def SchedulerConfig.view (c : SchedulerConfig) : Document :=
  .record [("process", c.actor.view), ("idle_sleep_limit", c.idleSleepLimit.view)]

/-- The view of the settings of the inspection endpoint. -/
def EndpointConfig.view (c : EndpointConfig) : Document :=
  .record [("address", .text c.address), ("cors_max_age", .nat c.corsMaxAge)]

end ActorMachine
