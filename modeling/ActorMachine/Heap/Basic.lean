import ActorMachine.Config
import ActorMachine.Fault
import ActorMachine.Prototype

/-!
# The heap of an actor

Objects live in numbered slots. A slot that loses its object goes onto a free list, gets
the next generation and is the first to be reused, so a handle, which names a slot and a
generation, never reaches a later occupant.

Every allocation is checked against the byte limit before anything changes. Allocation
never collects: whoever owns the heap decides when to (`ActorMachine.Heap.Collect`).
-/

namespace ActorMachine

/-- The part of a growable buffer that does not move when it grows. -/
structure BufferHeader where
  /-- Number of bytes in use. -/
  size : Nat
  /-- Number of bytes that the storage holds. -/
  capacity : Nat
  /-- The fixed buffer that holds the bytes. -/
  storage : Handle
deriving DecidableEq, Repr, Inhabited

/-- The zero-filled byte array of a size. -/
def zeroBytes (size : Nat) : ByteArray :=
  ⟨Array.replicate size 0⟩

@[simp]
theorem size_zeroBytes (size : Nat) : (zeroBytes size).size = size :=
  Array.size_replicate

/-- An object of the heap. -/
inductive HeapObject
  | fixedBuffer (bytes : ByteArray)
  | buffer (header : BufferHeader)
  | closure (routine : Routine) (upvalues : Array Value)
  | string (text : String)
deriving Inhabited

namespace HeapObject

/-- The kind of an object. -/
def kind : HeapObject → ObjectKind
  | fixedBuffer _ => .fixedBuffer
  | buffer _ => .buffer
  | closure _ _ => .closure
  | string _ => .string

/-- Bytes charged for the header of a growable buffer. -/
def headerBytes : Nat := 24

/-- Bytes charged for a closure with this many upvalues. -/
def closureBytes (upvalues : Nat) : Nat :=
  88 + upvalues * 16

/-- Bytes charged for an object. -/
def charge : HeapObject → Nat
  | fixedBuffer bytes => bytes.size
  | buffer _ => headerBytes
  | closure _ upvalues => closureBytes upvalues.size
  | string text => text.utf8ByteSize

/-- The handles that an object holds. -/
def references : HeapObject → List Handle
  | fixedBuffer _ | string _ => []
  | buffer header => [header.storage]
  | closure _ upvalues => upvalues.toList.filterMap Value.handle?

/-- The routine whose code an object keeps. -/
def routine? : HeapObject → Option Routine
  | closure routine _ => some routine
  | _ => none

/-- The fault for finding this object where one of another kind was expected. -/
def mismatch (object : HeapObject) (expected : ObjectKind) : Fault :=
  .typeMismatch expected.name object.kind.name

end HeapObject

/-- One slot of a heap. -/
structure Slot where
  /-- Number of occupants before the present or next one, modulo 2^32. -/
  generation : UInt32
  /-- The present occupant. -/
  object : Option HeapObject
deriving Inhabited

/-- What a heap has done so far. -/
structure HeapStats where
  /-- Number of collections. -/
  collections : Nat := 0
  /-- Number of objects ever allocated. -/
  allocated : Nat := 0
  /-- Number of objects ever freed. -/
  freed : Nat := 0
  /-- Bytes charged for all objects ever allocated. -/
  bytesAllocated : Nat := 0
  /-- Bytes charged for all objects ever freed. -/
  bytesFreed : Nat := 0
  /-- Most bytes ever held. -/
  peakBytes : Nat := 0
deriving DecidableEq, Repr, Inhabited

/-- A heap. -/
structure Heap where
  /-- Its settings. -/
  config : HeapConfig
  /-- The slots. -/
  slots : Array Slot
  /-- The slots without an object, the one freed last first. -/
  free : List Nat
  /-- Bytes charged for the objects present. -/
  used : Nat
  /-- Bytes charged since the last collection. -/
  sinceCollection : Nat
  /-- What was done so far. -/
  stats : HeapStats
deriving Inhabited

namespace Heap

/-- Operations on a heap. A failing operation still says what the heap is afterwards. -/
abbrev Action := EStateM Fault Heap

/-- The heap without objects. -/
def empty (config : HeapConfig) : Heap :=
  { config, slots := #[], free := [], used := 0, sinceCollection := 0, stats := {} }

/-- Bytes that can still be charged. -/
def available (h : Heap) : Nat :=
  h.config.heapLimit - h.used

/-- Number of objects present. -/
def liveObjects (h : Heap) : Nat :=
  h.slots.countP fun slot => slot.object.isSome

/-- Enough was allocated since the last collection to make the next one due. -/
def shouldCollect (h : Heap) : Bool :=
  decide (h.config.gcThreshold ≤ h.sinceCollection)

/-- The text that sums up a heap. -/
def summary (h : Heap) : String :=
  s!"Heap \x7b live_objects: {h.liveObjects}, used: {h.used}, limit: {h.config.heapLimit} \x7d"

/-- Checks that this many more bytes can be charged. -/
def room (h : Heap) (bytes : Nat) : Except Fault Unit :=
  if h.available < bytes then .error (.outOfMemory bytes h.available) else .ok ()

/-- The action that checks that this many more bytes can be charged. -/
def reserve (bytes : Nat) : Action Unit := do
  ofExcept ((← get).room bytes)

/-! ### Looking objects up -/

/-- The object of a handle, if it is still the occupant of its slot. -/
def lookup? (h : Heap) (handle : Handle) : Option HeapObject :=
  match h.slots[handle.index]? with
  | some slot => if slot.generation = handle.generation then slot.object else none
  | none => none

/-- The object of a handle. -/
def lookup (h : Heap) (handle : Handle) : Except Fault HeapObject :=
  match h.lookup? handle with
  | some object => .ok object
  | none => .error .staleHandle

/-- The object of a reference, which must be of the kind that the reference says. -/
def deref (h : Heap) (r : HeapRef) : Except Fault HeapObject := do
  let object ← h.lookup r.handle
  if object.kind = r.kind then
    return object
  else
    throw (object.mismatch r.kind)

/-- The text of a string. -/
def string (h : Heap) (r : HeapRef) : Except Fault String := do
  match ← h.deref r with
  | .string text => return text
  | object => throw (object.mismatch .string)

/-- The routine and the upvalues of a closure. -/
def closure (h : Heap) (r : HeapRef) : Except Fault (Routine × Array Value) := do
  match ← h.deref r with
  | .closure routine upvalues => return (routine, upvalues)
  | object => throw (object.mismatch .closure)

/-- The bytes of a fixed buffer. -/
def fixedBytes (h : Heap) (r : HeapRef) : Except Fault ByteArray := do
  match ← h.deref r with
  | .fixedBuffer bytes => return bytes
  | object => throw (object.mismatch .fixedBuffer)

/-- The header of a growable buffer. -/
def header (h : Heap) (r : HeapRef) : Except Fault BufferHeader := do
  match ← h.deref r with
  | .buffer header => return header
  | object => throw (object.mismatch .buffer)

/-- The bytes of the fixed buffer behind a handle. -/
def region (h : Heap) (handle : Handle) : Except Fault ByteArray := do
  match ← h.lookup handle with
  | .fixedBuffer bytes => return bytes
  | object => throw (object.mismatch .fixedBuffer)

/-! ### Storing and releasing objects -/

/-- The slot that the next object goes to, with its generation. -/
def nextHandle (h : Heap) : Handle :=
  match h.free with
  | index :: _ => ⟨index, (h.slots[index]?.map Slot.generation).getD 0⟩
  | [] => ⟨h.slots.size, 0⟩

/-- The counters after storing `bytes` more bytes of a new object. -/
private def countStored (stats : HeapStats) (bytes used : Nat) : HeapStats :=
  { stats with
    allocated := stats.allocated + 1
    bytesAllocated := stats.bytesAllocated + bytes
    peakBytes := max stats.peakBytes used }

/-- Stores an object whose bytes were reserved: in the slot that was freed last, or else in
a new one. -/
def store (object : HeapObject) (h : Heap) : Handle × Heap :=
  let handle := h.nextHandle
  let bytes := object.charge
  let { config, slots, free, used, sinceCollection, stats } := h
  let used := used + bytes
  let slot : Slot := { generation := handle.generation, object := some object }
  let (slots, free) :=
    match free with
    | index :: free => (slots.setIfInBounds index slot, free)
    | [] => (slots.push slot, [])
  (handle,
    { config, slots, free, used, sinceCollection := sinceCollection + bytes,
      stats := countStored stats bytes used })

/-- Stores an object as an action, and answers its reference. -/
def insert (object : HeapObject) : Action HeapRef :=
  modifyGet fun h =>
    let (handle, h) := h.store object
    (⟨object.kind, handle⟩, h)

/-- Releases the object of a handle; does nothing if it is gone already. -/
def release (handle : Handle) (h : Heap) : Heap :=
  match h.lookup? handle with
  | none => h
  | some object =>
    let bytes := object.charge
    let slot : Slot := { generation := handle.generation + 1, object := none }
    { h with
      slots := h.slots.setIfInBounds handle.index slot
      free := handle.index :: h.free
      used := h.used - bytes
      stats :=
        { h.stats with
          freed := h.stats.freed + 1
          bytesFreed := h.stats.bytesFreed + bytes } }

/-- Changes the object in the slot of a handle. The change must keep its charge. -/
def update (handle : Handle) (change : HeapObject → HeapObject) (h : Heap) : Heap :=
  { h with
    slots := h.slots.modify handle.index fun slot =>
      { slot with object := slot.object.map change } }

/-- Drops every object. The slots start over from generation zero; the counters stay. -/
def clear (h : Heap) : Heap :=
  { h with slots := #[], free := [], used := 0, sinceCollection := 0 }

/-! ### Allocation -/

/-- Allocates a string. -/
def allocString (text : String) : Action HeapRef := do
  reserve text.utf8ByteSize
  insert (.string text)

/-- Allocates a zero-filled fixed buffer. -/
def allocFixed (size : Nat) : Action HeapRef := do
  reserve size
  insert (.fixedBuffer (zeroBytes size))

/-- Allocates an empty growable buffer. Header and storage are reserved together, so that
neither is made when the pair does not fit. -/
def allocBuffer (capacity : Nat) : Action HeapRef := do
  reserve (capacity + HeapObject.headerBytes)
  let storage ← insert (.fixedBuffer (zeroBytes capacity))
  insert (.buffer { size := 0, capacity, storage := storage.handle })

/-- Allocates a closure. -/
def allocClosure (routine : Routine) (upvalues : Array Value) : Action HeapRef := do
  reserve (HeapObject.closureBytes upvalues.size)
  insert (.closure routine upvalues)

/-- Allocates an object of a kind with room for `size` bytes. A string starts empty, and
only its text is charged; closures need a prototype and are refused. -/
def allocate (kind : ObjectKind) (size : Nat) : Action HeapRef := do
  match kind with
  | .fixedBuffer => allocFixed size
  | .buffer => allocBuffer size
  | .string =>
    reserve size
    insert (.string "")
  | .closure => throw (.runtime "closures must be allocated with a prototype")

/-- The routines whose code the objects of a heap keep. -/
def routines (h : Heap) : List Routine :=
  h.slots.toList.filterMap fun slot => slot.object.bind HeapObject.routine?

end Heap

end ActorMachine
