import ActorMachine.Builtin.Run
import ActorMachine.Actor.Recovery
import ActorMachine.Proofs.Actor.Call
import ActorMachine.Proofs.Builtin
import ActorMachine.Proofs.Heap.Routines

/-!
# The code that an actor keeps

Code is kept by the frames of an actor and by the closures in its heap, and for a moment by what a
native has asked for. Calls take it from closures, requests from values of the heap.

* `Actor.Knows`: all of this code is among what is known.
* `upholds_enter`, `upholds_start`, `upholds_deliver` and so on: whatever actors do and whatever is
  done to them, their code stays known.
* `Builtin.upholds_run`: so it does with every built-in function.
-/

namespace ActorMachine

variable {known : Set Routine} {α : Type} {post : α → Prop}

/-- The code that a request hands over is known. -/
def Request.Knows (known : Set Routine) : Request → Prop
  | newActor callee args => callee.Knows known ∧ ∀ payload ∈ args, payload.Knows known
  | _ => True

/-- The code that a reason keeps is known. -/
def ExitReason.Knows (known : Set Routine) (reason : ExitReason) : Prop :=
  ∀ r ∈ reason.routines, r ∈ known

namespace Actor

variable {p : Actor} {routine : Routine}

/-- The code of an actor is known. -/
structure Knows (known : Set Routine) (p : Actor) : Prop where
  /-- In its heap. -/
  heap : p.heap.Knows known
  /-- In its frames. -/
  frames : ∀ f ∈ p.frames, f.routine ∈ known
  /-- In what it asks for. -/
  request : ∀ request, p.request = some request → request.Knows known

theorem knows_create (pid : Pid) (config : ActorConfig) : Knows known (create pid config) where
  heap := Heap.knows_empty config.heap
  frames := List.forall_mem_nil _
  request := by simp [create]

theorem Knows.routines (hp : p.Knows known) : ∀ r ∈ p.routines, r ∈ known := by
  intro r hr
  rcases List.mem_append.1 hr with hframe | hheap
  · obtain ⟨f, hf, rfl⟩ := List.mem_map.1 hframe
    exact hp.frames f hf
  · exact hp.heap.routines r hheap

/-- An actor that asks for nothing knows what its frames and its heap are made of. -/
theorem Knows.of_routines {other : Set Routine} (hp : p.Knows other) (hrequest : p.request = none)
    (hroutines : ∀ r ∈ p.routines, r ∈ known) : p.Knows known where
  heap :=
    { freeList := hp.heap.freeList
      code := fun hlook =>
        hroutines _ (List.mem_append_right _ (Heap.mem_routines.2 ⟨_, _, hlook⟩)) }
  frames f hf := hroutines _ (List.mem_append_left _ (List.mem_map_of_mem hf))
  request request hsome := by rw [hrequest] at hsome; cases hsome

/-! ### Parts of an actor -/

theorem upholds_onHeap {act : Heap.Action α} (hact : Upholds (Heap.Knows known) act post) :
    Upholds (Knows known) (onHeap act) post := by
  intro p hp
  rw [ensures_onHeap]
  exact (hact p.heap hp.heap).mono (fun _ _ h => ⟨⟨h.1, hp.frames, hp.request⟩, h.2⟩)
    fun _ _ h => ⟨h, hp.frames, hp.request⟩

/-- There is no code on the stack. -/
theorem upholds_onStack (act : Stack.Action α) :
    Upholds (Knows known) (onStack act) fun _ => True := by
  intro p hp
  rw [ensures_onStack, Ensures]
  cases act p.stack with
  | ok a stack => exact ⟨⟨hp.heap, hp.frames, hp.request⟩, trivial⟩
  | error fault stack => exact ⟨hp.heap, hp.frames, hp.request⟩

/-- Nor is there any in the mailbox. -/
theorem upholds_onMailbox (act : EStateM Fault Mailbox α) :
    Upholds (Knows known) (onMailbox act) fun _ => True := by
  intro p hp
  rw [ensures_onMailbox, Ensures]
  cases act p.mailbox with
  | ok a mailbox => exact ⟨⟨hp.heap, hp.frames, hp.request⟩, trivial⟩
  | error fault mailbox => exact ⟨hp.heap, hp.frames, hp.request⟩

theorem upholds_push (v : Value) : Upholds (Knows known) (push v) fun _ => True :=
  upholds_onStack _

theorem upholds_collectGarbage : Upholds (Knows known) collectGarbage fun _ => True :=
  fun p hp => ⟨⟨hp.heap.collect p.roots, hp.frames, hp.request⟩, trivial⟩

theorem upholds_prepareHeap (bytes : Nat) :
    Upholds (Knows known) (prepareHeap bytes) fun _ => True := by
  refine upholds_get_bind fun p _ => ?_
  have hreserve : Upholds (Knows known) (onHeap (Heap.reserve bytes)) fun _ => True :=
    upholds_onHeap (Heap.upholds_reserve bytes)
  dsimp only
  split
  next => exact upholds_collectGarbage.discard.bind fun _ _ => hreserve
  next => exact hreserve

theorem upholds_pushString (text : String) :
    Upholds (Knows known) (pushString text) fun _ => True :=
  (upholds_prepareHeap _).bind fun _ _ =>
    (upholds_onHeap (Heap.upholds_allocString text)).bind fun _ _ => upholds_push _

theorem upholds_pushClosure (hroutine : routine ∈ known) (upvalues : Array Value) :
    Upholds (Knows known) (pushClosure routine upvalues) fun _ => True :=
  (upholds_prepareHeap _).bind fun _ _ =>
    (upholds_onHeap (Heap.upholds_allocClosure hroutine upvalues)).bind fun _ _ => upholds_push _

theorem upholds_pushPayload {payload : Payload} (hpayload : payload.Knows known) :
    Upholds (Knows known) (pushPayload payload) fun _ => True :=
  (upholds_onHeap (Payload.upholds_materialize hpayload)).bind fun _ _ => upholds_push _

theorem upholds_deliver {payload : Payload} (hpayload : payload.Knows known) :
    Upholds (Knows known) (deliver payload) fun _ => True := by
  refine (upholds_prepareHeap _).bind fun _ _ => ?_
  refine (upholds_onHeap (Payload.upholds_materialize hpayload)).bind fun _ _ => ?_
  exact upholds_modify fun p hp => ⟨hp.heap, hp.frames, hp.request⟩

theorem upholds_ask {request : Request} (hrequest : request.Knows known) :
    Upholds (Knows known) (ask request) fun _ => True := by
  refine upholds_modify fun p hp => ⟨hp.heap, hp.frames, ?_⟩
  rintro _ ⟨⟩
  exact hrequest

/-- What is taken back was asked for. -/
theorem upholds_takeRequest : Upholds (Knows known) takeRequest
    fun answer => ∀ request, answer = some request → request.Knows known :=
  upholds_modifyGet fun _ hp => ⟨⟨hp.heap, hp.frames, by simp⟩, hp.request⟩

/-! ### Calls -/

/-- What is called is a closure of the heap. -/
theorem Knows.of_enterable (hp : p.Knows known) {calleeSlot nargs : Nat} {upvalues : Array Value}
    (h : p.enterable calleeSlot nargs = .ok (routine, upvalues)) : routine ∈ known := by
  obtain ⟨r, -, hclosure, -⟩ := enterable_eq_ok h
  exact hp.heap.code (Heap.closure_eq_ok_iff.1 hclosure).1

theorem upholds_enter (calleeSlot nargs : Nat) (guarded : Bool) :
    Upholds (Knows known) (enter calleeSlot nargs guarded) fun _ => True := by
  refine upholds_get_bind fun p hp => upholds_look fun found hfound => ?_
  have hroutine := hp.of_enterable hfound
  refine (upholds_onStack _).bind fun _ _ => ?_
  refine (upholds_forM fun v _ => upholds_push v).bind fun _ _ => ?_
  refine upholds_modify fun q hq => ⟨hq.heap, ?_, hq.request⟩
  exact List.forall_mem_cons.2 ⟨hroutine, hq.frames⟩

theorem upholds_start {callee : Payload} {args : List Payload} (hcallee : callee.Knows known)
    (hargs : ∀ payload ∈ args, payload.Knows known) :
    Upholds (Knows known) (start callee args) fun _ => True := by
  refine upholds_get_bind fun p _ => upholds_look fun stack _ => ?_
  have hcleared : Upholds (Knows known) (modify fun p => { p with stack, frames := [] })
      fun _ => True :=
    upholds_modify fun p hp => ⟨hp.heap, List.forall_mem_nil _, hp.request⟩
  refine hcleared.bind fun _ _ => (upholds_prepareHeap _).bind fun _ _ => ?_
  have hall : ∀ payload ∈ callee :: args, payload.Knows known :=
    List.forall_mem_cons.2 ⟨hcallee, hargs⟩
  exact (upholds_forM fun payload hmem => upholds_pushPayload (hall payload hmem)).bind fun _ _ =>
    upholds_enter 0 args.length false

/-! ### Recovery -/

theorem upholds_truncateStack (n : Nat) :
    Upholds (Knows known) (truncateStack n) fun _ => True :=
  upholds_modify fun _ hp => ⟨hp.heap, hp.frames, hp.request⟩

theorem upholds_pushError (fault : Fault) :
    Upholds (Knows known) (pushError fault) fun _ => True := by
  refine (upholds_attempt (upholds_pushString _)).bind fun result _ => ?_
  cases result with
  | ok _ => exact upholds_pure trivial
  | error _ => exact (upholds_attempt (upholds_push .nil)).discard

theorem upholds_pushFailure (fault : Fault) :
    Upholds (Knows known) (pushFailure fault) fun _ => True :=
  (upholds_push _).bind fun _ _ => upholds_pushError fault

/-- Unwinding only leaves frames out. -/
theorem upholds_unwind (fault : Fault) : Upholds (Knows known) (unwind fault) fun _ => True := by
  refine upholds_get_bind fun p hp => ?_
  split
  next => exact upholds_throw fault
  next f outer hframes =>
    have houter : ∀ g ∈ outer, g.routine ∈ known := by
      intro g hg
      have hdrop : g ∈ p.frames.dropWhile fun f => !f.guarded := hframes ▸ List.mem_cons_of_mem f hg
      exact hp.frames g ((List.dropWhile_suffix _).mem hdrop)
    refine (upholds_truncateStack _).bind fun _ _ => ?_
    refine (upholds_modify fun q hq => ⟨hq.heap, houter, hq.request⟩).bind fun _ _ => ?_
    exact upholds_pushFailure fault

theorem upholds_failProtectedCall (fault : Fault) :
    Upholds (Knows known) (failProtectedCall fault) fun _ => True :=
  (upholds_onStack _).bind fun _ _ => upholds_pushFailure fault

end Actor

/-! ### Built-in functions -/

namespace Builtin

open Actor (Action Knows onHeap prepareHeap upholds_onHeap upholds_prepareHeap)

variable {args : Array Value} {r : HeapRef}

/-- Making room is followed by an action on the heap; neither answers anything. -/
theorem upholds_prepared {bytes : Nat} {due : Prop} [Decidable due] {act : Heap.Action Unit}
    (hact : Upholds (Heap.Knows known) act fun _ => True) :
    Upholds (Knows known) (do
      if due then prepareHeap bytes
      onHeap act
      return Value.nil) fun _ => True := by
  have hrest : Upholds (Knows known) (do onHeap act; return Value.nil) fun _ => True :=
    (upholds_onHeap hact).bind fun _ _ => upholds_pure trivial
  dsimp only
  split
  next => exact (upholds_prepareHeap bytes).bind fun _ _ => hrest
  next => exact hrest

/-- Values are captured one after the other. -/
theorem upholds_captureAll (vs : List Value) :
    Upholds (Knows known)
      (vs.mapM fun v => do ofExcept (Payload.capture (← get).heap v) : Action (List Payload))
      fun payloads => ∀ payload ∈ payloads, payload.Knows known := by
  induction vs with
  | nil => exact upholds_pure (List.forall_mem_nil _)
  | cons v vs ih =>
    rw [List.mapM_cons]
    have hcapture : Upholds (Knows known)
        (do ofExcept (Payload.capture (← get).heap v) : Action Payload) (·.Knows known) :=
      upholds_get_bind fun p hp => upholds_ofExcept fun _ h => Payload.knows_of_capture hp.heap h
    refine hcapture.bind fun payload hpayload => ?_
    exact ih.bind fun payloads hpayloads =>
      upholds_pure (List.forall_mem_cons.2 ⟨hpayload, hpayloads⟩)

theorem upholds_askNewActor (args : Array Value) :
    Upholds (Knows known) (askNewActor args) fun _ => True := by
  rw [askNewActor]
  split
  next => exact upholds_throw _
  next callee rest _ =>
    refine upholds_get_bind fun p hp => upholds_look fun payload hpayload => ?_
    refine (upholds_captureAll rest).bind fun payloads hpayloads => ?_
    refine (Actor.upholds_ask ?_).bind fun _ _ => upholds_pure trivial
    exact ⟨Payload.knows_of_capture hp.heap hpayload, hpayloads⟩

theorem upholds_run (builtin : Builtin) (args : Array Value) :
    Upholds (Knows known) (builtin.run args) fun _ => True := by
  cases builtin with
  | bufferNew =>
    refine upholds_look fun capacity _ => (upholds_prepareHeap _).bind fun _ _ => ?_
    exact (upholds_onHeap (Heap.upholds_allocBuffer capacity)).bind fun _ _ => upholds_pure trivial
  | bufferReserve =>
    refine upholds_look fun r _ => upholds_look fun capacity _ => ?_
    exact (upholds_headerOf r).bind fun header _ =>
      upholds_prepared (Heap.upholds_reserveBuffer r capacity)
  | bufferShrinkToFit =>
    refine upholds_look fun r _ => (upholds_headerOf r).bind fun header _ => ?_
    refine (upholds_prepareHeap _).bind fun _ _ => ?_
    exact (upholds_onHeap (Heap.upholds_shrinkBuffer r)).bind fun _ _ => upholds_pure trivial
  | bufferResize =>
    refine upholds_look fun r _ => upholds_look fun size _ => ?_
    exact (upholds_headerOf r).bind fun header _ =>
      upholds_prepared (Heap.upholds_resizeBuffer r size)
  | bufferGet =>
    refine upholds_look fun r _ => upholds_look fun i _ => ?_
    refine (upholds_positionIn r i).bind fun position _ => upholds_get_bind fun p _ => ?_
    exact upholds_look fun byte _ => upholds_pure trivial
  | bufferSet =>
    refine upholds_look fun r _ => upholds_look fun i _ => ?_
    refine (upholds_positionIn r i).bind fun position _ => upholds_look fun j _ => ?_
    exact (upholds_onHeap (Heap.upholds_writeBuffer r position _)).bind fun _ _ =>
      upholds_pure trivial
  | bufferSize | bufferCapacity =>
    refine upholds_look fun r _ => ?_
    exact (upholds_headerOf r).bind fun header _ => upholds_pure trivial
  | self | eq => exact upholds_get_bind fun _ _ => upholds_pure trivial
  | yieldNow =>
    refine (Actor.upholds_ask ?_).bind fun _ _ => upholds_pure trivial
    exact trivial
  | sleep =>
    refine upholds_look fun milliseconds _ => ?_
    refine (Actor.upholds_ask ?_).bind fun _ _ => upholds_pure trivial
    exact trivial
  | spawnActor => exact upholds_askNewActor args
  | lt => exact (upholds_ofExcept fun _ _ => trivial).map fun _ _ => trivial
  | add | sub => exact upholds_ofExcept fun _ _ => trivial
  | constantNil | isNil | isBool | isInteger | isReal | isPid => exact upholds_pure trivial

end Builtin

end ActorMachine
