import ActorMachine.Proofs.Builtin
import ActorMachine.Proofs.Checked.Actor

/-!
# Built-in functions that can crash

Some built-in functions access their arguments without asking how many there are. They rely on the
number of arguments that they are registered with.

* `Builtin.presumed`: how many arguments a function takes for granted.
* `secure_run`: with that many arguments no built-in function crashes on a firm actor.
-/

namespace ActorMachine.Builtin

open Crashing
open Actor (Firm asksFirm_firm)

variable {args : Array Value} {r : HeapRef}

/-- Number of arguments that a function takes for granted. -/
def presumed : Builtin → Nat
  | isNil | isBool | isInteger | isReal | isPid => 1
  | eq | lt => 2
  | _ => 0

/-! ### What the functions take for granted -/

namespace Checked

open Actor.Checked (onHeap prepareHeap)

/-- Makes an empty buffer with a capacity. -/
def makeBuffer (args : Array Value) : Crashing Actor Value := do
  let capacity ← look (do sizeOf (← intArg args 0) "capacity")
  prepareHeap (capacity + HeapObject.headerBytes)
  return .ref (← onHeap (Heap.Checked.allocBuffer capacity))

/-- Raises the capacity to at least what is asked for. -/
def raiseCapacity (args : Array Value) : Crashing Actor Value := do
  let r ← look (objectArg .buffer args 0)
  let capacity ← look (do sizeOf (← intArg args 1) "capacity")
  if (← sure (headerOf r)).capacity < capacity then
    prepareHeap capacity
  onHeap (Heap.Checked.reserveBuffer r capacity)
  return .nil

/-- Cuts the capacity down to the size. -/
def cutCapacity (args : Array Value) : Crashing Actor Value := do
  let r ← look (objectArg .buffer args 0)
  prepareHeap (← sure (headerOf r)).size
  onHeap (Heap.Checked.shrinkBuffer r)
  return .nil

/-- Sets the size. -/
def setSize (args : Array Value) : Crashing Actor Value := do
  let r ← look (objectArg .buffer args 0)
  let size ← look (do sizeOf (← intArg args 1) "size")
  if (← sure (headerOf r)).capacity < size then
    prepareHeap size
  onHeap (Heap.Checked.resizeBuffer r size)
  return .nil

/-- Reads a byte as an integer. -/
def readByte (args : Array Value) : Crashing Actor Value := do
  let r ← look (objectArg .buffer args 0)
  let position ← sure (positionIn r (← look (intArg args 1)))
  let byte ← ofExcept (Heap.Checked.bufferByte (← get).heap r position)
  return .int (Int64.ofNat byte.toNat)

/-- Writes the lowest eight bits of an integer. -/
def writeByte (args : Array Value) : Crashing Actor Value := do
  let r ← look (objectArg .buffer args 0)
  let position ← sure (positionIn r (← look (intArg args 1)))
  let i ← look (intArg args 2)
  onHeap (Heap.Checked.setByte r position i.toUInt64.toUInt8)
  return .nil

/-- Asks for a new actor that calls the first argument with the others. -/
def askNewActor (args : Array Value) : Crashing Actor Value := do
  match args.toList with
  | [] => fail (.arityMismatch 1 0)
  | callee :: rest =>
    let callee ← ofExcept (Payload.Checked.capture (← get).heap callee)
    let rest ← rest.mapM fun v => do ofExcept (Payload.Checked.capture (← get).heap v)
    sure (Actor.ask (.newActor callee rest))
    return .nil

/-- Runs a built-in function. -/
def run (builtin : Builtin) (args : Array Value) : Crashing Actor Value := do
  match builtin with
  | .bufferNew => makeBuffer args
  | .bufferReserve => raiseCapacity args
  | .bufferShrinkToFit => cutCapacity args
  | .bufferResize => setSize args
  | .bufferGet => readByte args
  | .bufferSet => writeByte args
  | .spawnActor => askNewActor args
  | .isNil => return .bool ((← grant (element args 0)) matches .nil)
  | .isBool => return .bool ((← grant (element args 0)) matches .bool _)
  | .isInteger => return .bool ((← grant (element args 0)) matches .int _)
  | .isReal => return .bool ((← grant (element args 0)) matches .real _)
  | .isPid => return .bool ((← grant (element args 0)) matches .pid _)
  | .eq => do
    let v ← grant (element args 0)
    let w ← grant (element args 1)
    return .bool (equal (← get).heap v w)
  | .lt => do
    let v ← grant (element args 0)
    let w ← grant (element args 1)
    .bool <$> look (less v w)
  | .constantNil | .bufferSize | .bufferCapacity | .self | .yieldNow | .sleep | .add | .sub =>
    sure (builtin.run args)

end Checked

/-! ### None of them crashes -/

theorem secure_headerOf (r : HeapRef) :
    Secure Firm (sure (headerOf r)) (headerOf r) fun _ => True :=
  secure_sure (upholds_get_bind fun _ _ => upholds_ofExcept fun _ _ => trivial)

theorem secure_makeBuffer (args : Array Value) :
    Secure Firm (Checked.makeBuffer args) (makeBuffer args) fun _ => True := by
  refine secure_look fun capacity _ => (Actor.secure_prepareHeap _ asksFirm_firm).bind fun _ _ => ?_
  exact (Actor.secure_onHeap (Heap.secure_allocBuffer capacity) asksFirm_firm).bind fun _ _ =>
    secure_pure trivial

/-- Making room is followed by an action on the heap; neither answers anything. -/
theorem secure_prepared {bytes : Nat} {due : Prop} [Decidable due] {checked : Crashing Heap Unit}
    {act : Heap.Action Unit} (hact : Secure Heap.Firm checked act fun _ => True) :
    Secure Firm (do
      if due then Actor.Checked.prepareHeap bytes
      Actor.Checked.onHeap checked
      return Value.nil) (do
      if due then Actor.prepareHeap bytes
      Actor.onHeap act
      return Value.nil) fun _ => True := by
  have hrest : Secure Firm (do Actor.Checked.onHeap checked; return Value.nil)
      (do Actor.onHeap act; return Value.nil) fun _ => True :=
    (Actor.secure_onHeap hact asksFirm_firm).bind fun _ _ => secure_pure trivial
  dsimp only
  split
  next => exact (Actor.secure_prepareHeap bytes asksFirm_firm).bind fun _ _ => hrest
  next => exact hrest

theorem secure_raiseCapacity (args : Array Value) :
    Secure Firm (Checked.raiseCapacity args) (raiseCapacity args) fun _ => True := by
  refine secure_look fun r _ => secure_look fun capacity _ => ?_
  exact (secure_headerOf r).bind fun header _ =>
    secure_prepared (Heap.secure_reserveBuffer r capacity)

theorem secure_cutCapacity (args : Array Value) :
    Secure Firm (Checked.cutCapacity args) (cutCapacity args) fun _ => True := by
  refine secure_look fun r _ => (secure_headerOf r).bind fun header _ => ?_
  refine (Actor.secure_prepareHeap _ asksFirm_firm).bind fun _ _ => ?_
  exact (Actor.secure_onHeap (Heap.secure_shrinkBuffer r) asksFirm_firm).bind fun _ _ =>
    secure_pure trivial

theorem secure_setSize (args : Array Value) :
    Secure Firm (Checked.setSize args) (setSize args) fun _ => True := by
  refine secure_look fun r _ => secure_look fun size hsize => ?_
  exact (secure_headerOf r).bind fun header _ =>
    secure_prepared (Heap.secure_resizeBuffer r (le_maxWord_of_sizeOf hsize))

/-- A position that is accepted is that of a byte in use. -/
theorem ensures_positionIn (r : HeapRef) (i : Int64) (p : Actor) :
    Ensures (positionIn r i) p
      (fun position q => q = p ∧ ∀ header, p.heap.header r = .ok header → position < header.size)
      (fun _ _ => True) := by
  rw [positionIn, ensures_bind, headerOf, ensures_bind, ensures_get, ensures_ofExcept]
  refine ⟨fun header hheader => ?_, fun _ _ => trivial⟩
  split
  next hin =>
    refine ⟨rfl, fun header' hheader' => ?_⟩
    obtain rfl := Except.ok.inj (hheader.symm.trans hheader')
    omega
  next => trivial

theorem firm_positionIn (r : HeapRef) (i : Int64) :
    Upholds Firm (positionIn r i) fun _ => True := by
  refine (secure_headerOf r).upholds.bind fun header _ => ?_
  split
  next => exact upholds_pure trivial
  next => exact upholds_throw _

theorem secure_readByte (args : Array Value) :
    Secure Firm (Checked.readByte args) (readByte args) fun _ => True where
  runs p hp := by
    refine runs_look fun r _ => runs_look fun i _ => (runs_sure _ p).bind ?_
    refine (ensures_positionIn r i p).mono ?_ fun _ _ _ => trivial
    rintro position _ ⟨rfl, hposition⟩
    refine runs_get ?_
    rw [Heap.bufferByte_eq hp.heap.housed hposition]
    exact runs_look fun byte _ => rfl
  upholds := by
    refine upholds_look fun r _ => upholds_look fun i _ => ?_
    refine (firm_positionIn r i).bind fun position _ => upholds_get_bind fun p _ => ?_
    exact upholds_look fun byte _ => upholds_pure trivial

theorem secure_writeByte (args : Array Value) :
    Secure Firm (Checked.writeByte args) (writeByte args) fun _ => True where
  runs p hp := by
    refine runs_look fun r _ => runs_look fun i _ => (runs_sure _ p).bind ?_
    refine (ensures_positionIn r i p).mono ?_ fun _ _ _ => trivial
    rintro position _ ⟨rfl, hposition⟩
    refine runs_look fun j _ => ?_
    have hset := Heap.runs_setByte hp.heap.housed hposition j.toUInt64.toUInt8
    exact (Actor.runs_onHeap hset).bind_sure fun _ => pure _
  upholds := by
    refine upholds_look fun r _ => upholds_look fun i _ => ?_
    refine (firm_positionIn r i).bind fun position _ => upholds_look fun j _ => ?_
    refine (Actor.secure_onHeap (secure_sure (Heap.firm_writeBuffer r position _))
      asksFirm_firm).upholds.bind fun _ _ => upholds_pure trivial

/-! ### New actors -/

theorem secure_capture (v : Value) :
    Secure Firm (do ofExcept (Payload.Checked.capture (← get).heap v) : Crashing Actor Payload)
      (do ofExcept (Payload.capture (← get).heap v)) fun _ => True := by
  refine secure_get_bind fun p hp => ?_
  rw [Payload.capture_eq hp.heap.housed]
  exact secure_ofExcept fun _ _ => trivial

theorem secure_askNewActor (args : Array Value) :
    Secure Firm (Checked.askNewActor args) (askNewActor args) fun _ => True := by
  rw [Checked.askNewActor, askNewActor]
  cases args.toList with
  | nil => exact secure_fail _
  | cons callee rest =>
    refine secure_get_bind fun p hp => ?_
    rw [Payload.capture_eq hp.heap.housed]
    refine secure_look fun payload _ => (secure_mapM secure_capture).bind fun payloads _ => ?_
    refine (secure_modify fun p hp => ?_).bind fun _ _ => secure_pure trivial
    exact ⟨hp.stack, hp.heap, hp.frames⟩

/-! ### All of them -/

theorem element_valueArg {position : Nat} (hposition : position < args.size) :
    element args position = .ok (valueArg args position) := by
  have hget := Array.getElem?_eq_getElem hposition
  rw [element_eq_ok hget, valueArg, hget]
  rfl

/-- With the arguments that it takes for granted a built-in function does not crash. -/
theorem secure_run (builtin : Builtin) {args : Array Value} (hargs : builtin.presumed ≤ args.size) :
    Secure Firm (Checked.run builtin args) (builtin.run args) fun _ => True := by
  cases builtin with
  | bufferNew => exact secure_makeBuffer args
  | bufferReserve => exact secure_raiseCapacity args
  | bufferShrinkToFit => exact secure_cutCapacity args
  | bufferResize => exact secure_setSize args
  | bufferGet => exact secure_readByte args
  | bufferSet => exact secure_writeByte args
  | spawnActor => exact secure_askNewActor args
  | isNil | isBool | isInteger | isReal | isPid =>
    exact secure_grant (element_valueArg hargs) (secure_pure trivial)
  | eq =>
    refine secure_grant (element_valueArg (Nat.le_of_succ_le hargs)) ?_
    refine secure_grant (element_valueArg hargs) ?_
    exact secure_get_bind fun _ _ => secure_pure trivial
  | lt =>
    refine secure_grant (element_valueArg (Nat.le_of_succ_le hargs)) ?_
    refine secure_grant (element_valueArg hargs) ?_
    exact (secure_ofExcept fun _ _ => trivial).map fun _ _ => trivial
  | constantNil => exact secure_pure trivial
  | bufferSize | bufferCapacity =>
    refine secure_sure (upholds_look fun r _ => ?_)
    exact (secure_headerOf r).upholds.bind fun header _ => upholds_pure trivial
  | self => exact secure_sure (upholds_get_bind fun _ _ => upholds_pure trivial)
  | yieldNow =>
    refine secure_sure ((upholds_modify fun p hp => ?_).bind fun _ _ => upholds_pure trivial)
    exact ⟨hp.stack, hp.heap, hp.frames⟩
  | sleep =>
    refine secure_sure (upholds_look fun milliseconds _ => ?_)
    refine (upholds_modify fun p hp => ?_).bind fun _ _ => upholds_pure trivial
    exact ⟨hp.stack, hp.heap, hp.frames⟩
  | add | sub => exact secure_sure (upholds_ofExcept fun _ _ => trivial)

/-- With one argument less the test for equality crashes. -/
example (v : Value) (p : Actor) :
    Checked.run .eq #[v] p = .error (.crash (.index 1 1)) p := rfl

end ActorMachine.Builtin
