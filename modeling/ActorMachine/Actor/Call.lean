import ActorMachine.Actor.Basic

/-!
# Calls

Entering a function lays out its locals above the arguments: the upvalues of the closure,
cut or padded with nil to the number that the prototype declares, and then the local
variables, all nil. Everything that can fail is checked before the first of them is pushed.
-/

namespace ActorMachine.Actor

/-- The closure in a stack slot, if it can be called with this many arguments now. -/
def enterable (p : Actor) (calleeSlot nargs : Nat) :
    Except Fault (Routine × Array Value) := do
  match ← p.stack.slot calleeSlot with
  | .ref r =>
    if r.kind ≠ .closure then
      throw (.notCallable r.kind.name)
    let (routine, upvalues) ← p.heap.closure r
    let arguments := routine.prototype.arguments.toNat
    if nargs ≠ arguments then
      throw (.arityMismatch arguments nargs)
    if p.config.maxFrames ≤ p.frames.length then
      throw (.stackOverflow p.config.maxFrames)
    return (routine, upvalues)
  | v => throw (.notCallable v.typeName)

/-- What is pushed above the arguments of a call: upvalues and local variables. -/
def frameExtension (prototype : Prototype) (upvalues : Array Value) : List Value :=
  (List.range prototype.upvalues.toNat).map (fun i => upvalues[i]?.getD .nil) ++
    List.replicate prototype.locals.toNat .nil

/-- Calls the closure in a stack slot with the `nargs` values above it. -/
def enter (calleeSlot nargs : Nat) (guarded : Bool) : Action Unit := do
  let (routine, upvalues) ← ofExcept ((← get).enterable calleeSlot nargs)
  let values := frameExtension routine.prototype upvalues
  onStack (Stack.reserve values.length)
  values.forM push
  modify fun p => { p with frames := ⟨routine, 0, calleeSlot, guarded⟩ :: p.frames }

/-- Starts an actor: rebuilds the callee and the arguments on a fresh stack and calls. -/
def start (callee : Payload) (args : List Payload) : Action Unit := do
  let config := (← get).config
  let stack ← ofExcept (Stack.withCapacity config.initialStack config.maxStack)
  modify fun p => { p with stack, frames := [] }
  prepareHeap (Payload.heapBytesAll (callee :: args))
  (callee :: args).forM pushPayload
  enter 0 args.length false

end ActorMachine.Actor
