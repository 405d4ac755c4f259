import ActorMachine.Builtin.Buffers
import ActorMachine.Builtin.Values
import ActorMachine.Library

/-!
# Running built-in functions

What each built-in function does to the actor that calls it. Functions that concern the
scheduler leave a request and answer nil for the time being.
-/

namespace ActorMachine.Builtin

open Actor (Action)

/-- Asks to sleep; a negative time counts as none. -/
def askSleep (args : Array Value) : Action Value := do
  let milliseconds ← ofExcept (intArg args 0)
  Actor.ask (.sleep milliseconds.toInt.toNat)
  return .nil

/-- Asks for a new actor that calls the first argument with the others. -/
def askNewActor (args : Array Value) : Action Value := do
  match args.toList with
  | [] => throw (.arityMismatch 1 0)
  | callee :: rest =>
    let callee ← ofExcept (Payload.capture (← get).heap callee)
    let rest ← rest.mapM fun v => do ofExcept (Payload.capture (← get).heap v)
    Actor.ask (.newActor callee rest)
    return .nil

/-- Runs a built-in function. -/
def run (builtin : Builtin) (args : Array Value) : Action Value := do
  match builtin with
  | .constantNil => return .nil
  | .bufferNew => makeBuffer args
  | .bufferReserve => raiseCapacity args
  | .bufferShrinkToFit => cutCapacity args
  | .bufferResize => setSize args
  | .bufferGet => readByte args
  | .bufferSet => writeByte args
  | .bufferSize => readSize args
  | .bufferCapacity => readCapacity args
  | .self => return .pid (← get).pid
  | .yieldNow => do
    Actor.ask .giveWay
    return .nil
  | .sleep => askSleep args
  | .spawnActor => askNewActor args
  | .isNil => return .bool (valueArg args 0 matches .nil)
  | .isBool => return .bool (valueArg args 0 matches .bool _)
  | .isInteger => return .bool (valueArg args 0 matches .int _)
  | .isReal => return .bool (valueArg args 0 matches .real _)
  | .isPid => return .bool (valueArg args 0 matches .pid _)
  | .eq => return .bool (equal (← get).heap (valueArg args 0) (valueArg args 1))
  | .lt => .bool <$> ofExcept (less (valueArg args 0) (valueArg args 1))
  | .add => ofExcept (sum args)
  | .sub => ofExcept (difference args)

end ActorMachine.Builtin
