import ActorMachine.Clock
import ActorMachine.Heap.Collect
import ActorMachine.Mailbox
import ActorMachine.Payload
import ActorMachine.Stack

/-!
# Actors

An actor has a stack, a heap and a mailbox of its own and a chain of frames. Nothing it
holds is shared: whatever comes in is a payload that is rebuilt in its heap.

The values on the stack and in the mailbox are the roots of its heap. Every operation that
needs room makes it first with `prepareHeap`, which collects when a collection is due or
the room is short.
-/

namespace ActorMachine

/-- Where an actor stands. -/
inductive ActorState
  /-- In the ready queue. -/
  | ready
  /-- Being run. -/
  | running
  /-- Waiting for a message or a timer. -/
  | blocked
  /-- Ended. -/
  | exited
deriving DecidableEq, Repr, Inhabited

/-- The name of a state. -/
def ActorState.name : ActorState → String
  | ready => "Ready"
  | running => "Running"
  | blocked => "Blocked"
  | exited => "Exited"

/-- What a blocked actor waits for. -/
inductive Wait
  /-- A message, until a deadline if there is one. -/
  | message (deadline : Option Time)
  /-- A point in time. -/
  | timer (deadline : Time)
deriving DecidableEq, Repr, Inhabited

/-- The time at which waiting ends by itself. -/
def Wait.deadline? : Wait → Option Time
  | message deadline => deadline
  | timer deadline => some deadline

/-- What a native asks of the scheduler once it has returned. -/
inductive Request
  /-- Let the others run. -/
  | giveWay
  /-- Sleep for this long. -/
  | sleep (delay : Time)
  /-- Start a new actor; its pid becomes the result of the native. -/
  | newActor (callee : Payload) (args : List Payload)
deriving Inhabited

/-- Why an actor ended. -/
inductive ExitReason
  /-- Its first function returned. -/
  | normal (result : Payload)
  /-- A fault was not caught. -/
  | error (fault : Fault)
  /-- It was killed. -/
  | killed
deriving Inhabited

/-- The routines whose code an exit reason keeps. -/
def ExitReason.routines : ExitReason → List Routine
  | normal result => result.routines
  | _ => []

/-- A function call in progress. The callee's slot takes the result; the locals begin in the
slot above it. -/
structure Frame where
  /-- The code being run. -/
  routine : Routine
  /-- Position of the next instruction. -/
  ip : Nat
  /-- Stack slot of the callee. -/
  calleeSlot : Nat
  /-- A fault inside this call is turned into a result. -/
  guarded : Bool
deriving Repr, Inhabited

/-- Stack slot of the first local. -/
def Frame.base (f : Frame) : Nat :=
  f.calleeSlot + 1

/-- An actor. -/
structure Actor where
  /-- Its number. -/
  pid : Pid
  /-- Where it stands. -/
  state : ActorState
  /-- Its settings. -/
  config : ActorConfig
  /-- Its operand stack. -/
  stack : Stack
  /-- Its heap. -/
  heap : Heap
  /-- Its mailbox. -/
  mailbox : Mailbox
  /-- The calls in progress, the innermost first. -/
  frames : List Frame
  /-- What it waits for while blocked. -/
  wait : Option Wait
  /-- When the receive in progress times out; fixed by its first attempt. -/
  receiveDeadline : Option Time
  /-- What the last native has asked for. -/
  request : Option Request
deriving Inhabited

namespace Actor

/-- Operations on an actor. A failing operation still says what the actor is afterwards. -/
abbrev Action := EStateM Fault Actor

/-- An actor that has not been started: ready, without frames and values. -/
def create (pid : Pid) (config : ActorConfig) : Actor :=
  { pid, state := .ready, config, stack := .empty config.maxStack, heap := .empty config.heap,
    mailbox := .empty, frames := [], wait := none, receiveDeadline := none, request := none }

/-- Position of the next instruction of the innermost frame. -/
def ip? (p : Actor) : Option Nat :=
  p.frames.head?.map Frame.ip

/-- Blocked in a receive, so that a message would wake it. -/
def awaitsMessage (p : Actor) : Bool :=
  match p.state, p.wait with
  | .blocked, some (.message _) => true
  | _, _ => false

/-- The text that sums up an actor. -/
def summary (p : Actor) : String :=
  s!"Process \x7b pid: Pid({p.pid.number}), state: {p.state.name}, " ++
    s!"frames: {p.frames.length}, stack: {p.stack.size}, mailbox: {p.mailbox.size} \x7d"

/-- The routines whose code an actor keeps. -/
def routines (p : Actor) : List Routine :=
  p.frames.map Frame.routine ++ p.heap.routines

/-- The values that keep objects of the heap alive. -/
def roots (p : Actor) : List Value :=
  p.stack.toList ++ p.mailbox.toList

/-- Does something on the stack. -/
def onStack {α : Type} (act : Stack.Action α) : Action α := fun p =>
  -- The actor lets go of the stack meanwhile, so that it can be changed in place.
  let stack := p.stack
  let p := { p with stack := .empty 0 }
  match act stack with
  | .ok a stack => .ok a { p with stack }
  | .error fault stack => .error fault { p with stack }

/-- Does something on the heap. -/
def onHeap {α : Type} (act : Heap.Action α) : Action α := fun p =>
  let heap := p.heap
  let p := { p with heap := .empty {} }
  match act heap with
  | .ok a heap => .ok a { p with heap }
  | .error fault heap => .error fault { p with heap }

/-- Does something on the mailbox. -/
def onMailbox {α : Type} (act : EStateM Fault Mailbox α) : Action α := fun p =>
  let mailbox := p.mailbox
  let p := { p with mailbox := .empty }
  match act mailbox with
  | .ok a mailbox => .ok a { p with mailbox }
  | .error fault mailbox => .error fault { p with mailbox }

/-- Does something and answers its result or its fault; never fails. What a failing
operation has changed stays changed. -/
def attempt {α : Type} (act : Action α) : Action (Except Fault α) := fun p =>
  match act p with
  | .ok a p => .ok (.ok a) p
  | .error fault p => .ok (.error fault) p

/-- Puts a value on the stack. -/
def push (v : Value) : Action Unit :=
  onStack (Stack.push v)

/-- Releases what neither the stack nor the mailbox reaches; answers how many objects. -/
def collectGarbage : Action Nat := fun p =>
  let roots := p.roots
  let heap := p.heap
  let p := { p with heap := .empty {} }
  let (freed, heap) := heap.collect roots
  .ok freed { p with heap }

/-- Makes room for this many bytes, collecting first if a collection is due or the room is
short. -/
def prepareHeap (bytes : Nat) : Action Unit := do
  let heap := (← get).heap
  if heap.shouldCollect || decide (heap.available < bytes) then
    discard collectGarbage
  onHeap (Heap.reserve bytes)

/-- Allocates a string and puts it on the stack. -/
def pushString (text : String) : Action Unit := do
  prepareHeap text.utf8ByteSize
  push (.ref (← onHeap (Heap.allocString text)))

/-- Allocates a closure and puts it on the stack. -/
def pushClosure (routine : Routine) (upvalues : Array Value) : Action Unit := do
  prepareHeap (HeapObject.closureBytes upvalues.size)
  push (.ref (← onHeap (Heap.allocClosure routine upvalues)))

/-- Rebuilds a payload in the heap and puts it on the stack. -/
def pushPayload (payload : Payload) : Action Unit := do
  push (← onHeap payload.materialize)

/-- Rebuilds a message in the heap and appends it to the mailbox. -/
def deliver (payload : Payload) : Action Unit := do
  prepareHeap payload.heapBytes
  let v ← onHeap payload.materialize
  modify fun p => { p with mailbox := p.mailbox.push v }

/-- Leaves a request to the scheduler. -/
def ask (request : Request) : Action Unit :=
  modify fun p => { p with request := some request }

/-- Takes the request back. -/
def takeRequest : Action (Option Request) :=
  modifyGet fun p => (p.request, { p with request := none })

/-- Gives everything back and ends the actor. -/
def cleanup (p : Actor) : Actor :=
  { p with
    frames := []
    stack := p.stack.release
    mailbox := p.mailbox.clear
    heap := p.heap.clear
    wait := none
    receiveDeadline := none
    request := none
    state := .exited }

end Actor

end ActorMachine
