import ActorMachine.Builtin.Basic

/-!
# Built-in functions on values

Numbers are compared across integers and reals, an integer being rounded to a real first.
Objects are equal if they are the same object or strings of the same text. Integer sums and
differences that leave 64 bits are faults.
-/

namespace ActorMachine.Builtin

/-- The real nearest to an integer. -/
def toDouble (i : Int64) : Double :=
  ⟨i.toFloat.toBits⟩

/-- Two values of a heap are equal. -/
def equal (h : Heap) : Value → Value → Bool
  | .int i, .real x => (toDouble i).numEq x
  | .real x, .int i => (toDouble i).numEq x
  | .real x, .real y => x.numEq y
  | .ref r, .ref s =>
    decide (r = s) ||
      match h.string r, h.string s with
      | .ok a, .ok b => a == b
      | _, _ => false
  | v, w => decide (v = w)

/-- A number is less than another; other values cannot be compared. -/
def less : Value → Value → Except Fault Bool
  | .int i, .int j => .ok (decide (i < j))
  | .real x, .real y => .ok (x.numLt y)
  | .int i, .real y => .ok ((toDouble i).numLt y)
  | .real x, .int j => .ok (x.numLt (toDouble j))
  | v, w => .error (.runtime s!"cannot compare {v.typeName} with {w.typeName}")

/-- An integer as a value, if 64 bits can hold it. -/
def intResult (i : Int) : Except Fault Value :=
  if (Int64.ofInt i).toInt = i then .ok (.int (Int64.ofInt i))
  else .error (.runtime "integer overflow")

/-- The sum of the first two arguments. -/
def sum (args : Array Value) : Except Fault Value := do
  let i ← intArg args 0
  let j ← intArg args 1
  intResult (i.toInt + j.toInt)

/-- The difference of the first two arguments. -/
def difference (args : Array Value) : Except Fault Value := do
  let i ← intArg args 0
  let j ← intArg args 1
  intResult (i.toInt - j.toInt)

end ActorMachine.Builtin
