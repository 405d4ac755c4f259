import ActorMachine.Builtin.Basic

/-!
# Built-in functions on growable buffers

Every function but `bufferNew` takes the buffer first. Positions count from zero and have
to lie within the size.
-/

namespace ActorMachine.Builtin

open Actor (Action onHeap prepareHeap)

/-- The header of a buffer of the running actor. -/
def headerOf (r : HeapRef) : Action BufferHeader := do
  ofExcept ((← get).heap.header r)

/-- Checks a position against the size of a buffer. -/
def positionIn (r : HeapRef) (i : Int64) : Action Nat := do
  let header ← headerOf r
  if 0 ≤ i.toInt ∧ i.toInt < header.size then
    return i.toInt.toNat
  else
    throw (.badIndex i.toInt)

/-- Makes an empty buffer with a capacity. -/
def makeBuffer (args : Array Value) : Action Value := do
  let capacity ← ofExcept (do sizeOf (← intArg args 0) "capacity")
  prepareHeap (capacity + HeapObject.headerBytes)
  return .ref (← onHeap (Heap.allocBuffer capacity))

/-- Raises the capacity to at least what is asked for. -/
def raiseCapacity (args : Array Value) : Action Value := do
  let r ← ofExcept (objectArg .buffer args 0)
  let capacity ← ofExcept (do sizeOf (← intArg args 1) "capacity")
  if (← headerOf r).capacity < capacity then
    prepareHeap capacity
  onHeap (Heap.reserveBuffer r capacity)
  return .nil

/-- Cuts the capacity down to the size. -/
def cutCapacity (args : Array Value) : Action Value := do
  let r ← ofExcept (objectArg .buffer args 0)
  prepareHeap (← headerOf r).size
  onHeap (Heap.shrinkBuffer r)
  return .nil

/-- Sets the size. Room is made for the size asked for, not for the capacity it leads to. -/
def setSize (args : Array Value) : Action Value := do
  let r ← ofExcept (objectArg .buffer args 0)
  let size ← ofExcept (do sizeOf (← intArg args 1) "size")
  if (← headerOf r).capacity < size then
    prepareHeap size
  onHeap (Heap.resizeBuffer r size)
  return .nil

/-- Reads a byte as an integer. -/
def readByte (args : Array Value) : Action Value := do
  let r ← ofExcept (objectArg .buffer args 0)
  let position ← positionIn r (← ofExcept (intArg args 1))
  let byte ← ofExcept ((← get).heap.bufferByte r position)
  return .int (Int64.ofNat byte.toNat)

/-- Writes the lowest eight bits of an integer. -/
def writeByte (args : Array Value) : Action Value := do
  let r ← ofExcept (objectArg .buffer args 0)
  let position ← positionIn r (← ofExcept (intArg args 1))
  let i ← ofExcept (intArg args 2)
  onHeap (Heap.writeBuffer r position ⟨#[i.toUInt64.toUInt8]⟩)
  return .nil

/-- The size. -/
def readSize (args : Array Value) : Action Value := do
  let r ← ofExcept (objectArg .buffer args 0)
  return .int (Int64.ofNat (← headerOf r).size)

/-- The capacity. -/
def readCapacity (args : Array Value) : Action Value := do
  let r ← ofExcept (objectArg .buffer args 0)
  return .int (Int64.ofNat (← headerOf r).capacity)

end ActorMachine.Builtin
