import ActorMachine.Heap.Buffer

/-!
# Payloads

Heaps are private to their actors. A value that leaves one, as a message, as an argument of
a new actor or as the result of one that ends, is captured into a payload, which owns
everything it consists of, and is materialized in the heap it goes to.
-/

namespace ActorMachine

/-- A value with all of its content. Of a growable buffer only the bytes in use are kept. -/
inductive Payload
  | nil
  | bool (b : Bool)
  | int (i : Int64)
  | real (x : Double)
  | pid (p : Pid)
  | native (id : NativeId)
  | string (text : String)
  | fixedBuffer (bytes : ByteArray)
  | buffer (bytes : ByteArray)
  | closure (routine : Routine) (upvalues : List Payload)
deriving Inhabited

namespace Payload

/-- Captures a value whose content is nested at most `depth` references deep, as long as no
fault is met first; running out of depth is not a fault but no answer at all. -/
def captureWithin (h : Heap) : Nat → Value → ExceptT Fault Option Payload
  | _, .nil => return nil
  | _, .bool b => return bool b
  | _, .int i => return int i
  | _, .real x => return real x
  | _, .pid p => return pid p
  | _, .native id => return native id
  -- Out of depth.
  | 0, .ref _ => .mk none
  | depth + 1, .ref r => do
    match ← liftExcept (h.deref r) with
    | .string text => return string text
    | .fixedBuffer bytes => return fixedBuffer bytes
    | .buffer _ => return buffer (← liftExcept (h.bufferBytes r))
    | .closure routine upvalues =>
      return closure routine (← upvalues.toList.mapM (captureWithin h depth))
where
  /-- A result that is known is an answer. -/
  liftExcept {α : Type} (result : Except Fault α) : ExceptT Fault Option α :=
    .mk (some result)

/-- Captures a value of a heap. References that are nested deeper than there are slots run
in a circle, which no heap of an actor has; they have no content and count as stale. -/
def capture (h : Heap) (v : Value) : Except Fault Payload :=
  (captureWithin h (h.slots.size + 1) v).run.getD (.error .staleHandle)

mutual

/-- Rebuilds a value in a heap, upvalues before the closure that captures them. -/
def materialize : Payload → Heap.Action Value
  | nil => return .nil
  | bool b => return .bool b
  | int i => return .int i
  | real x => return .real x
  | pid p => return .pid p
  | native id => return .native id
  | string text => .ref <$> Heap.allocString text
  | fixedBuffer bytes => do
    let r ← Heap.allocFixed bytes.size
    Heap.writeFixed r 0 bytes
    return .ref r
  | buffer bytes => do
    let r ← Heap.allocBuffer bytes.size
    Heap.resizeBuffer r bytes.size
    Heap.writeBuffer r 0 bytes
    return .ref r
  | closure routine upvalues => do
    let values ← materializeAll upvalues
    .ref <$> Heap.allocClosure routine values.toArray

/-- Rebuilds values in a heap, one after the other. -/
def materializeAll : List Payload → Heap.Action (List Value)
  | [] => return []
  | p :: ps => do
    let v ← p.materialize
    return v :: (← materializeAll ps)

end

mutual

/-- Bytes that materializing a payload charges. -/
def heapBytes : Payload → Nat
  | string text => text.utf8ByteSize
  | fixedBuffer bytes => bytes.size
  | buffer bytes => bytes.size + HeapObject.headerBytes
  | closure _ upvalues => HeapObject.closureBytes upvalues.length + heapBytesAll upvalues
  | _ => 0

/-- Bytes that materializing several payloads charges. -/
def heapBytesAll : List Payload → Nat
  | [] => 0
  | p :: ps => p.heapBytes + heapBytesAll ps

end

mutual

/-- The routines whose code a payload keeps. -/
def routines : Payload → List Routine
  | closure routine upvalues => routine :: routinesAll upvalues
  | _ => []

/-- The routines whose code several payloads keep. -/
def routinesAll : List Payload → List Routine
  | [] => []
  | p :: ps => p.routines ++ routinesAll ps

end

end Payload

end ActorMachine
