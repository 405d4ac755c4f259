import ActorMachine.Actor.Basic

/-!
# Arguments of built-in functions

A built-in function gets the values above its callee, lowest first, and picks what it needs
with the accessors of this module. An argument that is missing is reported as a wrong
number of arguments, one of the wrong type as a type mismatch.
-/

namespace ActorMachine.Builtin

/-- The fault for a missing argument. -/
private def missing (args : Array Value) (position : Nat) : Fault :=
  .arityMismatch (position + 1) args.size

/-- The integer at a position. -/
def intArg (args : Array Value) (position : Nat) : Except Fault Int64 :=
  match args[position]? with
  | some (.int i) => .ok i
  | some v => .error (v.mismatch "integer")
  | none => .error (missing args position)

/-- The reference to an object of a kind at a position. -/
def objectArg (kind : ObjectKind) (args : Array Value) (position : Nat) :
    Except Fault HeapRef :=
  match args[position]? with
  | some (.ref r) => if r.kind = kind then .ok r else .error ((Value.ref r).mismatch kind.name)
  | some v => .error (v.mismatch kind.name)
  | none => .error (missing args position)

/-- The value at a position; nil if there is none. -/
def valueArg (args : Array Value) (position : Nat) : Value :=
  args[position]?.getD .nil

/-- A size that must not be negative; `what` names it in the message. -/
def sizeOf (i : Int64) (what : String) : Except Fault Nat :=
  if i.toInt < 0 then .error (.runtime s!"bad {what} {i.toInt}") else .ok i.toInt.toNat

end ActorMachine.Builtin
