/-!
# Values

What an actor can hold in one stack slot, one mailbox entry or one captured variable.
Scalars are stored in place; everything larger lives in the actor's heap and is reached
through a `HeapRef`, which carries the kind of the object and a handle whose generation
tells a reused slot from the one that was meant.
-/

namespace ActorMachine

/-- The number of an actor. Numbers count up from one and are never given twice. -/
structure Pid where
  /-- The position of the actor in the order of creation. -/
  number : Nat
deriving DecidableEq, Repr, Inhabited

/-- A pid is written between angle brackets. -/
def Pid.text (pid : Pid) : String :=
  s!"<{pid.number}>"

/-- The number of a built-in function in the loader's registration order. -/
structure NativeId where
  /-- The position of the function in the order of registration. -/
  index : Nat
deriving DecidableEq, Repr, Inhabited

/-- A binary64 number, kept as its bits so that a NaN never loses its payload. -/
structure Double where
  /-- Sign, exponent and fraction, from the highest bit down. -/
  bits : UInt64
deriving DecidableEq, Repr, Inhabited

namespace Double

/-- The number that the bits stand for. -/
def toFloat (x : Double) : Float :=
  Float.ofBits x.bits

/-- Numeric equality: a NaN differs from itself and the two zeros are equal. -/
def numEq (x y : Double) : Bool :=
  x.toFloat == y.toFloat

/-- Numeric order; false as soon as one side is a NaN. -/
def numLt (x y : Double) : Bool :=
  decide (x.toFloat < y.toFloat)

/-- The bits say that the number is neither infinite nor a NaN. -/
def isFinite (x : Double) : Bool :=
  x.bits >>> 52 &&& 0x7ff != 0x7ff

/-- The bits say that the number is a NaN: all exponent bits set and a fraction. -/
def isNaN (x : Double) : Bool :=
  !x.isFinite && x.bits &&& 0xfffffffffffff != 0

end Double

/-- The kinds of objects that live in a heap. -/
inductive ObjectKind
  | fixedBuffer
  | buffer
  | closure
  | string
deriving DecidableEq, Repr, Inhabited

/-- The name of an object kind, as it appears in messages. -/
def ObjectKind.name : ObjectKind → String
  | .fixedBuffer => "fixed-buffer"
  | .buffer => "buffer"
  | .closure => "closure"
  | .string => "string"

/-- A heap slot together with the generation of the occupant that is meant. -/
structure Handle where
  /-- Position of the slot. -/
  index : Nat
  /-- Number of occupants the slot had before the one that is meant, modulo 2^32. -/
  generation : UInt32
deriving DecidableEq, Repr, Inhabited

/-- A handle tagged with the kind of object it is expected to reach. -/
structure HeapRef where
  /-- The kind of the object. -/
  kind : ObjectKind
  /-- Where the object is. -/
  handle : Handle
deriving DecidableEq, Repr, Inhabited

/-- A value of the machine. -/
inductive Value
  | nil
  | bool (b : Bool)
  | int (i : Int64)
  | real (x : Double)
  | pid (p : Pid)
  | native (id : NativeId)
  | ref (r : HeapRef)
deriving DecidableEq, Repr

namespace Value

instance : Inhabited Value := ⟨nil⟩

/-- The name of the type of a value, as it appears in messages. -/
def typeName : Value → String
  | nil => "nil"
  | bool _ => "bool"
  | int _ => "integer"
  | real _ => "real"
  | pid _ => "pid"
  | native _ => "native"
  | ref r => r.kind.name

/-- Only nil and false count as false. -/
def isTruthy : Value → Bool
  | nil => false
  | bool b => b
  | _ => true

/-- The heap reference of a value, if it is one. -/
def heapRef? : Value → Option HeapRef
  | ref r => some r
  | _ => none

/-- The handle of a value that lives in the heap. -/
def handle? (v : Value) : Option Handle :=
  v.heapRef?.map HeapRef.handle

/-- A value is immediate when it needs no heap. -/
def isImmediate (v : Value) : Bool :=
  v.heapRef?.isNone

end Value

end ActorMachine
