import ActorMachine.Fault

/-!
# Libraries of built-in functions

A library is a named set of functions that programs import by name. What the functions do
is defined where actors are (`ActorMachine.Builtin`); here are their names and the standard
libraries that hold them.
-/

namespace ActorMachine

/-- The built-in functions. -/
inductive Builtin
  /-- Answers nil, whatever it is given. -/
  | constantNil
  /-- Makes a growable buffer. -/
  | bufferNew
  /-- Raises the capacity of a buffer. -/
  | bufferReserve
  /-- Cuts the capacity of a buffer to its size. -/
  | bufferShrinkToFit
  /-- Sets the size of a buffer. -/
  | bufferResize
  /-- Reads a byte of a buffer. -/
  | bufferGet
  /-- Writes a byte of a buffer. -/
  | bufferSet
  /-- The size of a buffer. -/
  | bufferSize
  /-- The capacity of a buffer. -/
  | bufferCapacity
  /-- The pid of the calling actor. -/
  | self
  /-- Gives way to the other actors. -/
  | yieldNow
  /-- Sleeps for a number of milliseconds. -/
  | sleep
  /-- Starts a new actor. -/
  | spawnActor
  /-- The value is nil. -/
  | isNil
  /-- The value is a boolean. -/
  | isBool
  /-- The value is an integer. -/
  | isInteger
  /-- The value is a real. -/
  | isReal
  /-- The value is a pid. -/
  | isPid
  /-- Two values are equal. -/
  | eq
  /-- A number is less than another. -/
  | lt
  /-- The sum of two integers. -/
  | add
  /-- The difference of two integers. -/
  | sub
deriving DecidableEq, Repr, Inhabited

/-- What a native is to the machine. -/
inductive NativeBody
  /-- An ordinary function. -/
  | function (builtin : Builtin)
  /-- Calls its first argument with the others and turns a fault into a result. -/
  | protectedCall
deriving DecidableEq, Repr, Inhabited

/-- A registered native. -/
structure Native where
  /-- The library it belongs to. -/
  library : String
  /-- Its name there. -/
  name : String
  /-- Number of arguments it takes; none if it takes any number. -/
  arity : Option Nat
  /-- What it does. -/
  body : NativeBody
deriving DecidableEq, Repr, Inhabited

/-- A library to be registered. An entry is a name, which may end in a slash and the number
of arguments, with what it stands for. -/
structure Library where
  /-- The name of the library. -/
  name : String
  /-- The entries in order. -/
  entries : List (String × NativeBody)
deriving DecidableEq, Repr, Inhabited

namespace Library

/-- Reads a number of arguments: decimal digits, after a plus sign if there is one, that
denote a number of 64 bits. -/
def readArity? (s : List Char) : Option Nat :=
  let digits := match s with
    | '+' :: digits => digits
    | digits => digits
  if digits ≠ [] ∧ digits.all Char.isDigit then
    let n := digits.foldl (fun n c => 10 * n + (c.toNat - '0'.toNat)) 0
    if n < UInt64.size then some n else none
  else
    none

/-- Splits an entry at its last slash into the name and the number of arguments. -/
def readEntry (entry : String) : Except Fault (String × Option Nat) :=
  -- Reversed, the last slash comes first.
  let reversed := entry.toList.reverse
  match reversed.dropWhile (· ≠ '/') with
  | [] => .ok (entry, none)
  | _ :: name =>
    match readArity? (reversed.takeWhile (· ≠ '/')).reverse with
    | some arity => .ok (String.ofList name.reverse, some arity)
    | none => .error (.runtime s!"bad native arity in \x60{entry}\x60")

/-- Growable byte buffers. -/
def stdBuffer : Library where
  name := "std-buffer"
  entries :=
    [("new/1", .function .bufferNew),
      ("reserve/2", .function .bufferReserve),
      ("shrink_to_fit/1", .function .bufferShrinkToFit),
      ("resize/2", .function .bufferResize),
      ("get/2", .function .bufferGet),
      ("set/3", .function .bufferSet),
      ("size/1", .function .bufferSize),
      ("capacity/1", .function .bufferCapacity)]

/-- The calling actor, its suspension, new actors and protected calls. -/
def stdProcess : Library where
  name := "std-process"
  entries :=
    [("self/0", .function .self),
      ("yield/0", .function .yieldNow),
      ("sleep/1", .function .sleep),
      ("spawn", .function .spawnActor),
      ("pcall", .protectedCall)]

/-- Tests of types, comparison and integer arithmetic. -/
def stdValue : Library where
  name := "std-value"
  entries :=
    [("is_nil/1", .function .isNil),
      ("is_bool/1", .function .isBool),
      ("is_integer/1", .function .isInteger),
      ("is_real/1", .function .isReal),
      ("is_pid/1", .function .isPid),
      ("eq/2", .function .eq),
      ("lt/2", .function .lt),
      ("add/2", .function .add),
      ("sub/2", .function .sub)]

/-- The standard libraries in the order of their registration. -/
def standard : List Library :=
  [stdBuffer, stdProcess, stdValue]

end Library

end ActorMachine
