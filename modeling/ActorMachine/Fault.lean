import ActorMachine.Value

/-!
# Faults

Why an operation of the machine failed. A fault is a cause with the data that its message
needs; the wording is in `Fault.message` and nowhere else. A fault raised while an actor
runs unwinds its frames up to the innermost protected call and, when there is none, ends
that actor alone.
-/

namespace ActorMachine

/-- The causes of failure. -/
inductive Fault
  /-- The heap limit does not admit the bytes asked for. -/
  | outOfMemory (requested available : Nat)
  /-- The stack, or the chain of frames, has reached its limit. -/
  | stackOverflow (limit : Nat)
  /-- More values were taken than the stack holds. -/
  | stackUnderflow (requested size : Nat)
  /-- An index addresses nothing. -/
  | badIndex (index : Int)
  /-- A value has another type than the operation takes. -/
  | typeMismatch (expected found : String)
  /-- A call has another number of arguments than its callee takes. -/
  | arityMismatch (expected found : Nat)
  /-- A value of this type was called. -/
  | notCallable (typeName : String)
  /-- An operand of an instruction addresses nothing. -/
  | badOperand (what : String) (index : Nat)
  /-- A jump leaves the code. -/
  | badJump (target : Int)
  /-- No module or library exports this name. -/
  | unresolvedImport (module name : String)
  /-- A removal was not preceded by a receive. -/
  | noBoundMessage
  /-- The object of a reference is gone. -/
  | staleHandle
  /-- A program threw this code. -/
  | thrown (code : Int)
  /-- Any other failure, described in words. -/
  | runtime (text : String)
  /-- A failure of the outside world, described in words. -/
  | io (text : String)
deriving DecidableEq, Repr, Inhabited

/-- The three classes that faults are sorted into. -/
inductive Fault.Kind
  | outOfMemory
  | runtime
  | ioFailure
deriving DecidableEq, Repr

/-- The short name of a class of faults. -/
def Fault.Kind.label : Fault.Kind → String
  | outOfMemory => "OutOfMemory"
  | runtime => "Runtime"
  | ioFailure => "IoFailure"

namespace Fault

/-- Running out of heap or of stack is one class, failures of the outside world another. -/
def kind : Fault → Kind
  | outOfMemory .. | stackOverflow .. => .outOfMemory
  | io _ => .ioFailure
  | _ => .runtime

/-- The short name of a cause, under which it is reported. -/
def label : Fault → String
  | outOfMemory .. => "OutOfMemory"
  | stackOverflow _ => "StackOverflow"
  | stackUnderflow .. => "StackUnderflow"
  | badIndex _ => "BadIndex"
  | typeMismatch .. => "TypeMismatch"
  | arityMismatch .. => "ArityMismatch"
  | notCallable _ => "NotCallable"
  | badOperand .. => "BadOperand"
  | badJump _ => "BadJump"
  | unresolvedImport .. => "UnresolvedImport"
  | noBoundMessage => "NoBoundMessage"
  | staleHandle => "StaleHandle"
  | thrown _ => "Thrown"
  | runtime _ => "Runtime"
  | io _ => "Io"

/-- The text shown for a fault. -/
def message : Fault → String
  | outOfMemory requested available =>
    s!"out of memory: requested {requested} bytes, {available} available"
  | stackOverflow limit => s!"stack overflow (limit {limit})"
  | stackUnderflow requested size => s!"stack underflow: cannot pop {requested} of {size}"
  | badIndex index => s!"bad index {index}"
  | typeMismatch expected found => s!"type mismatch: expected {expected}, got {found}"
  | arityMismatch expected found => s!"arity mismatch: expected {expected}, got {found}"
  | notCallable typeName => s!"value of type {typeName} is not callable"
  | badOperand what index => s!"bad {what} index {index}"
  | badJump target => s!"jump target {target} out of range"
  | unresolvedImport module name => s!"unresolved import {module}.{name}"
  | noBoundMessage => "no message bound by a previous receive"
  | staleHandle => "stale heap reference"
  | thrown code => s!"thrown error code {code}"
  | runtime text => text
  | io text => s!"I/O failure: {text}"

end Fault

/-- A value of type `v` stands where one of type `expected` is needed. -/
def Value.mismatch (v : Value) (expected : String) : Fault :=
  .typeMismatch expected v.typeName

end ActorMachine
