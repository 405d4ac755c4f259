import ActorMachine.Actor.Basic

/-!
# Recovery from faults

A guarded call turns a fault into two results: false and the description of the fault. The
description is a string, or nil when the heap has no room for it.
-/

namespace ActorMachine.Actor

/-- Puts the description of a fault on the stack, or nil if it finds no room in the heap. -/
def pushError (fault : Fault) : Action Unit := do
  match ← attempt (pushString fault.message) with
  | .ok _ => return ()
  | .error _ => discard <| attempt (push .nil)

/-- Puts false and the description of a fault on the stack. -/
def pushFailure (fault : Fault) : Action Unit := do
  push (.bool false)
  pushError fault

/-- Cuts the stack down to its lowest `n` values. -/
def truncateStack (n : Nat) : Action Unit :=
  modify fun p => { p with stack := p.stack.truncate n }

/-- Runs an action. If it fails, the frames and the height of the stack are brought back,
the description of the fault is put on the stack, and the fault is passed on. -/
def protect {α : Type} (act : Action α) : Action α := do
  let height := (← get).stack.size
  let depth := (← get).frames.length
  match ← attempt act with
  | .ok a => return a
  | .error fault =>
    truncateStack height
    modify fun p => { p with frames := p.frames.drop (p.frames.length - depth) }
    pushError fault
    throw fault

/-- Ends all calls up to the innermost guarded one and leaves false and the description of
the fault in its place. Without a guarded call the fault is passed on. -/
def unwind (fault : Fault) : Action Unit := do
  match (← get).frames.dropWhile fun f => !f.guarded with
  | [] => throw fault
  | f :: outer =>
    truncateStack f.calleeSlot
    modify fun p => { p with frames := outer, receiveDeadline := none }
    pushFailure fault

/-- Replaces the two results of a guarded native by false and the description of a fault. -/
def failProtectedCall (fault : Fault) : Action Unit := do
  onStack (Stack.pop 2)
  pushFailure fault

end ActorMachine.Actor
