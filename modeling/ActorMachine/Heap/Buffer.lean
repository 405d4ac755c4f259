import ActorMachine.Capacity
import ActorMachine.Heap.Basic

/-!
# Growable buffers

A growable buffer is a header that points at a fixed buffer, its storage. Growing moves the
bytes to a new storage, points the header at it and releases the old one, so references to
the buffer stay good. Bytes beyond the size read as zero when the size grows over them.
-/

namespace ActorMachine.Heap

/-- Smallest capacity that growing by doubling leads to. -/
def minBufferCapacity : Nat := 64

/-- Writes `source` over the bytes from a position on. What would reach beyond the last byte
is dropped, so their number stays. -/
def overwriteBytes (bytes : ByteArray) (position : Nat) (source : ByteArray) : ByteArray :=
  source.copySlice 0 bytes position (min source.size (bytes.size - position))

theorem size_overwriteBytes (bytes : ByteArray) (position : Nat) (source : ByteArray) :
    (overwriteBytes bytes position source).size = bytes.size := by
  simp only [overwriteBytes, ByteArray.size, ByteArray.copySlice, Array.size_append,
    Array.size_extract]
  omega

/-- Writes zero bytes from position `start` up to position `stop`. -/
def zeroFill (bytes : ByteArray) (start stop : Nat) : ByteArray :=
  overwriteBytes bytes start (zeroBytes (stop - start))

theorem size_zeroFill (bytes : ByteArray) (start stop : Nat) :
    (zeroFill bytes start stop).size = bytes.size :=
  size_overwriteBytes _ _ _

/-- The first `size` bytes, followed by zeros up to `capacity`. -/
def movedBytes (bytes : ByteArray) (size capacity : Nat) : ByteArray :=
  overwriteBytes (zeroBytes capacity) 0 (bytes.extract 0 size)

theorem size_movedBytes (bytes : ByteArray) (size capacity : Nat) :
    (movedBytes bytes size capacity).size = capacity := by
  rw [movedBytes, size_overwriteBytes, size_zeroBytes]

/-- The bytes in use of a growable buffer. -/
def bufferBytes (h : Heap) (r : HeapRef) : Except Fault ByteArray := do
  let header ← h.header r
  let bytes ← h.region header.storage
  return bytes.extract 0 header.size

/-- The byte in use at a position of a growable buffer; zero beyond the storage. -/
def bufferByte (h : Heap) (r : HeapRef) (position : Nat) : Except Fault UInt8 := do
  let header ← h.header r
  let bytes ← h.region header.storage
  return bytes[position]?.getD 0

/-- Fails unless the reference is tagged with this kind. -/
private def requireTag (r : HeapRef) (kind : ObjectKind) : Except Fault Unit :=
  if r.kind = kind then .ok () else .error (.typeMismatch kind.name r.kind.name)

/-- The action that looks something up. -/
def observe (look : Heap → Except Fault α) : Action α := do
  ofExcept (look (← get))

/-- Changes the bytes of the fixed buffer behind a handle. The change must keep their
number. -/
def changeRegion (handle : Handle) (change : ByteArray → ByteArray) : Action Unit := do
  discard <| observe (·.region handle)
  modify (·.update handle fun
    | .fixedBuffer bytes => .fixedBuffer (change bytes)
    | object => object)

/-- Changes the header of a growable buffer. -/
def changeHeader (r : HeapRef) (change : BufferHeader → BufferHeader) : Action Unit := do
  discard <| observe (·.header r)
  modify (·.update r.handle fun
    | .buffer header => .buffer (change header)
    | object => object)

/-- Writes bytes into a fixed buffer at a position. The reference has to be tagged as one,
which is checked before whether the object is there. -/
def writeFixed (r : HeapRef) (position : Nat) (source : ByteArray) : Action Unit := do
  ofExcept (requireTag r .fixedBuffer)
  changeRegion r.handle (overwriteBytes · position source)

/-- Writes bytes over bytes in use of a growable buffer. -/
def writeBuffer (r : HeapRef) (position : Nat) (source : ByteArray) : Action Unit := do
  let header ← observe (·.header r)
  changeRegion header.storage (overwriteBytes · position source)

/-- Moves the bytes of a buffer to a new storage. The room for it is checked before
anything changes. -/
def setCapacity (r : HeapRef) (capacity : Nat) : Action Unit := do
  let header ← observe (·.header r)
  reserve capacity
  let bytes ← observe (·.region header.storage)
  let storage ← insert (.fixedBuffer (movedBytes bytes header.size capacity))
  changeHeader r fun header => { header with storage := storage.handle, capacity }
  -- For a moment both storages were charged: the old one is no room for the new one.
  modify (·.release header.storage)

/-- Makes the capacity at least this large; never makes it smaller. -/
def reserveBuffer (r : HeapRef) (capacity : Nat) : Action Unit := do
  let header ← observe (·.header r)
  if header.capacity < capacity then
    setCapacity r capacity

/-- The capacity that a buffer grows to for a size that exceeds it. -/
def grownBufferCapacity (capacity size : Nat) : Nat :=
  Capacity.grow (max capacity minBufferCapacity) size

/-- Sets the size. The capacity grows by doubling when it is too small, and new bytes read
as zero, even where bytes were cut off before. -/
def resizeBuffer (r : HeapRef) (size : Nat) : Action Unit := do
  let header ← observe (·.header r)
  if header.capacity < size then
    setCapacity r (grownBufferCapacity header.capacity size)
  -- Growing has moved the storage.
  let header ← observe (·.header r)
  changeHeader r fun header => { header with size }
  if header.size < size then
    changeRegion header.storage (zeroFill · header.size size)

/-- Makes the capacity equal to the size. -/
def shrinkBuffer (r : HeapRef) : Action Unit := do
  let header ← observe (·.header r)
  setCapacity r header.size

end ActorMachine.Heap
