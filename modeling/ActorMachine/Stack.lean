import ActorMachine.Capacity
import ActorMachine.Fault

/-!
# The operand stack

A bounded list of values, bottom first. Programs address it from outside by signed
indices: `1` is the bottom value, `-1` the top one, and `0` is never valid. The machine
itself addresses it by slots counted from zero.

The capacity is the room set aside so far. It starts at zero, grows by doubling from
`Stack.minCapacity`, is cut to the limit and never shrinks until the stack is released.
-/

namespace ActorMachine

/-- The operand stack of an actor. -/
structure Stack where
  /-- The values, bottom first. -/
  values : Array Value
  /-- Number of slots set aside. -/
  capacity : Nat
  /-- Largest number of slots that may ever be set aside. -/
  limit : Nat
deriving DecidableEq, Repr, Inhabited

namespace Stack

/-- Operations on a stack. A failing operation still says what the stack is afterwards. -/
abbrev Action := EStateM Fault Stack

/-- Fewest slots that are set aside at once. -/
def minCapacity : Nat := 16

/-- Bytes taken by one slot. -/
def slotBytes : Nat := 16

/-- No allocation of this many slots, which is 2^45, or of more can be satisfied. -/
def allocatable : Nat := 0x200000000000

/-- The stack without values and without room. -/
def empty (limit : Nat) : Stack :=
  { values := #[], capacity := 0, limit }

/-- Number of values on the stack. -/
def size (s : Stack) : Nat :=
  s.values.size

/-- The values, bottom first. -/
def toList (s : Stack) : List Value :=
  s.values.toList

/-- No value is on the stack. -/
def isEmpty (s : Stack) : Bool :=
  s.values.isEmpty

/-- The value on top, if there is one. -/
def top? (s : Stack) : Option Value :=
  s.values.back?

/-- The capacity after making room for `needed` slots. -/
def grownCapacity (s : Stack) (needed : Nat) : Nat :=
  min (Capacity.grow (max s.capacity minCapacity) needed) s.limit

/-- Makes room for `more` values above those present. -/
def reserve (more : Nat) : Action Unit := do
  let s ← get
  let needed := Capacity.add s.size more
  if s.limit < needed then
    throw (.stackOverflow s.limit)
  if s.capacity < needed then
    let capacity := s.grownCapacity needed
    if allocatable ≤ capacity then
      throw (.outOfMemory (capacity * slotBytes) 0)
    modify fun s => { s with capacity }

/-- A stack with room for `capacity` values. -/
def withCapacity (capacity limit : Nat) : Except Fault Stack :=
  match reserve capacity (empty limit) with
  | .ok _ s => .ok s
  | .error fault _ => .error fault

/-- Puts a value on top. The limit matters only when the room is used up. -/
def push (v : Value) : Action Unit := do
  let s ← get
  if s.size = s.capacity then
    reserve 1
  modify fun s => { s with values := s.values.push v }

/-- Cuts the stack down to its lowest `n` values; keeps all of them if there are fewer. -/
def truncate (n : Nat) (s : Stack) : Stack :=
  { s with values := s.values.shrink n }

/-- Discards the top `n` values. -/
def pop (n : Nat) : Action Unit := do
  let s ← get
  if s.size < n then
    throw (.stackUnderflow n s.size)
  modify fun s => s.truncate (s.size - n)

/-- Takes the top value. -/
def popValue : Action Value := do
  match (← get).top? with
  | some v =>
    modify fun s => { s with values := s.values.pop }
    return v
  | none => throw (.stackUnderflow 1 0)

/-- The slot that a signed index addresses. -/
def slotOf (s : Stack) (index : Int64) : Except Fault Nat :=
  let slot := if index.toInt < 0 then (s.size : Int) + index.toInt else index.toInt - 1
  if slot < 0 ∨ (s.size : Int) ≤ slot then .error (.badIndex index.toInt) else .ok slot.toNat

/-- The value in a slot. -/
def slot (s : Stack) (n : Nat) : Except Fault Value :=
  match s.values[n]? with
  | some v => .ok v
  | none => .error (.badIndex (n + 1))

/-- The value at a signed index. -/
def valueAt (s : Stack) (index : Int64) : Except Fault Value :=
  s.slotOf index >>= s.slot

/-- Overwrites a slot. -/
def setSlot (n : Nat) (v : Value) : Action Unit := do
  if n < (← get).size then
    modify fun s => { s with values := s.values.setIfInBounds n v }
  else
    throw (.badIndex (n + 1))

/-- Overwrites the value at a signed index. -/
def setAt (index : Int64) (v : Value) : Action Unit := do
  let n ← ofExcept ((← get).slotOf index)
  setSlot n v

/-- Takes a value out of the middle; those above move down. -/
def removeSlot (n : Nat) : Action Value := do
  let v ← ofExcept ((← get).slot n)
  modify fun s => { s with values := s.values.eraseIdxIfInBounds n }
  return v

/-- The boolean at a signed index. -/
def boolAt (s : Stack) (index : Int64) : Except Fault Bool := do
  match ← s.valueAt index with
  | .bool b => return b
  | v => throw (v.mismatch "bool")

/-- The integer at a signed index. -/
def intAt (s : Stack) (index : Int64) : Except Fault Int64 := do
  match ← s.valueAt index with
  | .int i => return i
  | v => throw (v.mismatch "integer")

/-- The real at a signed index. -/
def realAt (s : Stack) (index : Int64) : Except Fault Double := do
  match ← s.valueAt index with
  | .real x => return x
  | v => throw (v.mismatch "real")

/-- Drops all values and gives the room back. -/
def release (s : Stack) : Stack :=
  empty s.limit

/-! ### The view of a stack -/

@[simp]
theorem toList_empty (limit : Nat) : (empty limit).toList = [] := rfl

@[simp]
theorem toList_truncate (n : Nat) (s : Stack) : (s.truncate n).toList = s.toList.take n := by
  simp [toList, truncate]

@[simp]
theorem size_truncate (n : Nat) (s : Stack) : (s.truncate n).size = min n s.size := by
  simp [size, truncate]

@[simp]
theorem toList_release (s : Stack) : s.release.toList = [] := rfl

end Stack

end ActorMachine
