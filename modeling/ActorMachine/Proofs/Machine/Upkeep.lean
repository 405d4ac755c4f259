import ActorMachine.Proofs.Heap.Operations
import ActorMachine.Proofs.Machine.Reached
import ActorMachine.Proofs.Mailbox

/-!
# What becomes of the parts of an actor

An actor only does to its heap and to its mailbox what their operations do. So whatever those
operations keep up for the parts, the actor keeps up for itself.

* `Upkeep`: an invariant asks something of the heap, of the mailbox and of the deadline of the
  receive in progress, and of nothing else. There is one `upkeep_` lemma for each operation that
  leaves the deadline alone.
* `Parts`: the invariant that does not even ask for the deadline. Every instruction and all that
  the surroundings of an actor do keep it up (`parts_after`), so it holds of every actor that is
  reached (`parts_of_reached`).
* `heap_of_reached`, `mailbox_of_reached`: the heap and the mailbox of an actor have come about by
  their operations.
-/

namespace ActorMachine

variable {α β : Type} {heaps : Heap → Prop} {mailboxes : Mailbox → Prop} {inv : Actor → Prop}

/-! ### Invariants of a heap -/

namespace Heap

/-- No operation leads out of these heaps. -/
def Closed (heaps : Heap → Prop) : Prop :=
  ∀ (op : Operation) {h : Heap}, heaps h → heaps (op.after h)

/-- An action that is an operation up to its answer stays within the heaps. -/
theorem Closed.upholds (hclosed : Closed heaps) (op : Operation) {act : Action α} {f : α → Reply}
    (hrun : op.run = f <$> act) : Upholds heaps act fun _ => True := by
  intro h hh
  have hafter : Ensures op.run h (fun _ t => heaps t) fun _ t => heaps t := by
    have hmem := hclosed op hh
    rw [Operation.after] at hmem
    rw [Ensures]
    cases hrun : op.run h with
    | ok a t => simpa only [hrun] using hmem
    | error fault t => simpa only [hrun] using hmem
  rw [hrun, ensures_map] at hafter
  exact hafter.mono (fun _ _ ht => ⟨ht, trivial⟩) fun _ _ ht => ht

end Heap

namespace Payload

open Heap (Closed)

mutual

/-- A payload is rebuilt by operations on the heap. -/
theorem closed_materialize (hclosed : Closed heaps) :
    ∀ payload : Payload, Upholds heaps payload.materialize fun _ => True
  | nil | bool _ | int _ | real _ | pid _ | native _ => upholds_pure trivial
  | string text =>
    (hclosed.upholds (.allocString text) rfl).map fun _ _ => trivial
  | fixedBuffer bytes =>
    (hclosed.upholds (.allocate .fixedBuffer bytes.size) rfl).bind fun r _ =>
      (hclosed.upholds (.writeFixed r 0 bytes) rfl).bind fun _ _ => upholds_pure trivial
  | buffer bytes =>
    (hclosed.upholds (.allocBuffer bytes.size) rfl).bind fun r _ =>
      (hclosed.upholds (.resizeBuffer r bytes.size) rfl).bind fun _ _ =>
        (hclosed.upholds (.writeBuffer r 0 bytes) rfl).bind fun _ _ => upholds_pure trivial
  | closure routine upvalues =>
    (closed_materializeAll hclosed upvalues).bind fun values _ =>
      (hclosed.upholds (.allocClosure routine values.toArray) rfl).map fun _ _ => trivial

theorem closed_materializeAll (hclosed : Closed heaps) :
    ∀ payloads : List Payload, Upholds heaps (materializeAll payloads) fun _ => True
  | [] => upholds_pure trivial
  | payload :: payloads =>
    (closed_materialize hclosed payload).bind fun _ _ =>
      (closed_materializeAll hclosed payloads).bind fun _ _ => upholds_pure trivial

end

end Payload

/-! ### Invariants of a mailbox -/

namespace Mailbox

/-- No operation leads out of these mailboxes. -/
def Closed (mailboxes : Mailbox → Prop) : Prop :=
  ∀ (op : Operation) {m : Mailbox}, mailboxes m → mailboxes (op.run m).2

/-- Taking the bound message out stays within the mailboxes. -/
theorem Closed.upholds_remove (hclosed : Closed mailboxes) :
    Upholds mailboxes Mailbox.remove fun _ => True := by
  intro m hm
  have hafter := hclosed .remove hm
  rw [Ensures]
  cases hremove : Mailbox.remove m with
  | ok v n => simpa only [Operation.run, hremove, and_true] using hafter
  | error fault n => simpa only [Operation.run, hremove] using hafter

end Mailbox

namespace Actor

variable {p q : Actor} {act : Action α}

/-- An invariant that asks something of the heap, of the mailbox and of the deadline, of each what
its operations keep up, and of nothing else. -/
structure Upkeep (heaps : Heap → Prop) (mailboxes : Mailbox → Prop) (inv : Actor → Prop) :
    Prop where
  /-- What it asks of the heap. -/
  heap : ∀ {p}, inv p → heaps p.heap
  /-- What it asks of the mailbox. -/
  mailbox : ∀ {p}, inv p → mailboxes p.mailbox
  /-- The operations on a heap keep that up. -/
  heap_closed : Heap.Closed heaps
  /-- So do the operations on a mailbox. -/
  mailbox_closed : Mailbox.Closed mailboxes
  /-- It asks for nothing else but the deadline. -/
  congr : ∀ {p q : Actor}, inv p → heaps q.heap → mailboxes q.mailbox →
    q.receiveDeadline = p.receiveDeadline → inv q

/-- The deadline may be whatever it is, and so may everything else but heap and mailbox. -/
structure Parts (heaps : Heap → Prop) (mailboxes : Mailbox → Prop) (p : Actor) : Prop where
  /-- The heap is one of these. -/
  heap : heaps p.heap
  /-- The mailbox is one of these. -/
  mailbox : mailboxes p.mailbox

theorem upkeep_parts (hheaps : Heap.Closed heaps) (hmailboxes : Mailbox.Closed mailboxes) :
    Upkeep heaps mailboxes (Parts heaps mailboxes) where
  heap := Parts.heap
  mailbox := Parts.mailbox
  heap_closed := hheaps
  mailbox_closed := hmailboxes
  congr _ hheap hmailbox _ := ⟨hheap, hmailbox⟩

theorem Upkeep.withHeap (hinv : Upkeep heaps mailboxes inv) (hp : inv p) {heap : Heap}
    (hheap : heaps heap) : inv { p with heap } := by
  have hmailbox := hinv.mailbox hp
  exact hinv.congr hp hheap hmailbox rfl

theorem Upkeep.withMailbox (hinv : Upkeep heaps mailboxes inv) (hp : inv p) {mailbox : Mailbox}
    (hmailbox : mailboxes mailbox) : inv { p with mailbox } := by
  have hheap := hinv.heap hp
  exact hinv.congr hp hheap hmailbox rfl

/-- What changes neither the heap nor the mailbox nor the deadline does not matter. -/
theorem Upkeep.same (hinv : Upkeep heaps mailboxes inv) (hp : inv p) (hheap : q.heap = p.heap)
    (hmailbox : q.mailbox = p.mailbox) (hdeadline : q.receiveDeadline = p.receiveDeadline) :
    inv q := by
  refine hinv.congr hp ?_ ?_ hdeadline
  · exact hheap ▸ hinv.heap hp
  · exact hmailbox ▸ hinv.mailbox hp

/-! ### Parts of an actor -/

theorem upkeep_modify (hinv : Upkeep heaps mailboxes inv) {f : Actor → Actor}
    (hheap : ∀ p, (f p).heap = p.heap) (hmailbox : ∀ p, (f p).mailbox = p.mailbox)
    (hdeadline : ∀ p, (f p).receiveDeadline = p.receiveDeadline) :
    Upholds inv (modify f) fun _ => True :=
  upholds_modify fun p hp => hinv.same hp (hheap p) (hmailbox p) (hdeadline p)

theorem upkeep_onStack (hinv : Upkeep heaps mailboxes inv) (act : Stack.Action α) :
    Upholds inv (onStack act) fun _ => True := by
  intro p hp
  rw [ensures_onStack]
  exact (ensures_result act p.stack).mono (fun _ _ _ => ⟨hinv.same hp rfl rfl rfl, trivial⟩)
    fun _ _ _ => hinv.same hp rfl rfl rfl

theorem upkeep_onHeap (hinv : Upkeep heaps mailboxes inv) {act : Heap.Action α}
    (hact : Upholds heaps act fun _ => True) : Upholds inv (onHeap act) fun _ => True := by
  intro p hp
  rw [ensures_onHeap]
  exact (hact p.heap (hinv.heap hp)).mono (fun _ _ h => ⟨hinv.withHeap hp h.1, trivial⟩)
    fun _ _ h => hinv.withHeap hp h

theorem upkeep_onMailbox (hinv : Upkeep heaps mailboxes inv) {act : EStateM Fault Mailbox α}
    (hact : Upholds mailboxes act fun _ => True) : Upholds inv (onMailbox act) fun _ => True := by
  intro p hp
  rw [ensures_onMailbox]
  exact (hact p.mailbox (hinv.mailbox hp)).mono
    (fun _ _ h => ⟨hinv.withMailbox hp h.1, trivial⟩) fun _ _ h => hinv.withMailbox hp h

theorem upkeep_push (hinv : Upkeep heaps mailboxes inv) (v : Value) :
    Upholds inv (push v) fun _ => True :=
  upkeep_onStack hinv _

theorem upkeep_collectGarbage (hinv : Upkeep heaps mailboxes inv) :
    Upholds inv collectGarbage fun _ => True := by
  intro p hp
  rw [ensures_collectGarbage]
  exact ⟨hinv.withHeap hp (hinv.heap_closed (.collect p.roots) (hinv.heap hp)), trivial⟩

theorem upkeep_prepareHeap (hinv : Upkeep heaps mailboxes inv) (bytes : Nat) :
    Upholds inv (prepareHeap bytes) fun _ => True := by
  have hreserve := upkeep_onHeap hinv (Heap.upholds_reserve bytes)
  refine upholds_get_bind fun p _ => ?_
  dsimp only
  split
  next => exact (upkeep_collectGarbage hinv).discard.bind fun _ _ => hreserve
  next => exact hreserve

theorem upkeep_pushString (hinv : Upkeep heaps mailboxes inv) (text : String) :
    Upholds inv (pushString text) fun _ => True := by
  have halloc := upkeep_onHeap hinv (hinv.heap_closed.upholds (.allocString text) rfl)
  exact (upkeep_prepareHeap hinv _).bind fun _ _ => halloc.bind fun _ _ => upkeep_push hinv _

theorem upkeep_pushClosure (hinv : Upkeep heaps mailboxes inv) (routine : Routine)
    (upvalues : Array Value) : Upholds inv (pushClosure routine upvalues) fun _ => True := by
  have halloc := upkeep_onHeap hinv (hinv.heap_closed.upholds (.allocClosure routine upvalues) rfl)
  exact (upkeep_prepareHeap hinv _).bind fun _ _ => halloc.bind fun _ _ => upkeep_push hinv _

theorem upkeep_materialize (hinv : Upkeep heaps mailboxes inv) (payload : Payload) :
    Upholds inv (onHeap payload.materialize) fun _ => True :=
  upkeep_onHeap hinv (payload.closed_materialize hinv.heap_closed)

theorem upkeep_deliver (hinv : Upkeep heaps mailboxes inv) (payload : Payload) :
    Upholds inv (deliver payload) fun _ => True := by
  refine (upkeep_prepareHeap hinv _).bind fun _ _ => (upkeep_materialize hinv payload).bind ?_
  intro v _
  exact upholds_modify fun p hp =>
    hinv.withMailbox hp (hinv.mailbox_closed (.push v) (hinv.mailbox hp))

theorem upkeep_ask (hinv : Upkeep heaps mailboxes inv) (request : Request) :
    Upholds inv (ask request) fun _ => True :=
  upkeep_modify hinv (fun _ => rfl) (fun _ => rfl) fun _ => rfl

theorem upkeep_takeRequest (hinv : Upkeep heaps mailboxes inv) :
    Upholds inv takeRequest fun _ => True :=
  upholds_modifyGet fun _ hp => ⟨hinv.same hp rfl rfl rfl, trivial⟩

/-! ### Calls and recovery -/

theorem upkeep_enter (hinv : Upkeep heaps mailboxes inv) (calleeSlot nargs : Nat)
    (guarded : Bool) : Upholds inv (enter calleeSlot nargs guarded) fun _ => True := by
  refine upholds_get_bind fun p _ => upholds_look fun found _ => ?_
  refine (upkeep_onStack hinv _).bind fun _ _ => ?_
  refine (upholds_forM fun v _ => upkeep_push hinv v).bind fun _ _ => ?_
  exact upkeep_modify hinv (fun _ => rfl) (fun _ => rfl) fun _ => rfl

theorem upkeep_start (hinv : Upkeep heaps mailboxes inv) (callee : Payload) (args : List Payload) :
    Upholds inv (start callee args) fun _ => True := by
  refine upholds_get_bind fun p _ => upholds_look fun stack _ => ?_
  have hblank : Upholds inv (modify fun p => { p with stack, frames := [] }) fun _ => True :=
    upkeep_modify hinv (fun _ => rfl) (fun _ => rfl) fun _ => rfl
  refine hblank.bind fun _ _ => (upkeep_prepareHeap hinv _).bind fun _ _ => ?_
  refine (upholds_forM fun payload _ => ?_).bind fun _ _ => upkeep_enter hinv _ _ _
  exact (upkeep_materialize hinv payload).bind fun _ _ => upkeep_push hinv _

theorem upkeep_truncateStack (hinv : Upkeep heaps mailboxes inv) (n : Nat) :
    Upholds inv (truncateStack n) fun _ => True :=
  upkeep_modify hinv (fun _ => rfl) (fun _ => rfl) fun _ => rfl

theorem upkeep_pushError (hinv : Upkeep heaps mailboxes inv) (fault : Fault) :
    Upholds inv (pushError fault) fun _ => True := by
  refine (upholds_attempt (upkeep_pushString hinv _)).bind fun result _ => ?_
  cases result with
  | ok _ => exact upholds_pure trivial
  | error _ => exact (upholds_attempt (upkeep_push hinv .nil)).discard

theorem upkeep_pushFailure (hinv : Upkeep heaps mailboxes inv) (fault : Fault) :
    Upholds inv (pushFailure fault) fun _ => True :=
  (upkeep_push hinv _).bind fun _ _ => upkeep_pushError hinv fault

theorem upkeep_failProtectedCall (hinv : Upkeep heaps mailboxes inv) (fault : Fault) :
    Upholds inv (failProtectedCall fault) fun _ => True :=
  (upkeep_onStack hinv _).bind fun _ _ => upkeep_pushFailure hinv fault

/-- Unwinding clears the deadline, which does not matter to the parts. -/
theorem parts_unwind (hheaps : Heap.Closed heaps) (hmailboxes : Mailbox.Closed mailboxes)
    (fault : Fault) : Upholds (Parts heaps mailboxes) (unwind fault) fun _ => True := by
  have hinv := upkeep_parts hheaps hmailboxes
  refine upholds_get_bind fun p _ => ?_
  split
  next => exact upholds_throw fault
  next =>
    refine (upkeep_truncateStack hinv _).bind fun _ _ => ?_
    refine Upholds.bind (upholds_modify fun p hp => ?_) fun _ _ => upkeep_pushFailure hinv fault
    exact ⟨hp.heap, hp.mailbox⟩

end Actor

/-! ### Built-in functions -/

namespace Builtin

open Actor (Action Upkeep upkeep_onHeap upkeep_prepareHeap upkeep_ask onHeap prepareHeap)

/-- Making room is followed by an action on the heap; neither answers anything. -/
theorem upkeep_room (hinv : Upkeep heaps mailboxes inv) (bytes : Nat) (due : Prop) [Decidable due]
    {act : Heap.Action Unit} (hact : Upholds heaps act fun _ => True) :
    Upholds inv (do
      if due then prepareHeap bytes
      onHeap act
      return Value.nil) fun _ => True := by
  have hrest : Upholds inv (do onHeap act; return Value.nil) fun _ => True :=
    (upkeep_onHeap hinv hact).bind fun _ _ => upholds_pure trivial
  dsimp only
  split
  next => exact (upkeep_prepareHeap hinv bytes).bind fun _ _ => hrest
  next => exact hrest

theorem upkeep_askNewActor (hinv : Upkeep heaps mailboxes inv) (args : Array Value) :
    Upholds inv (askNewActor args) fun _ => True := by
  have hcapture : ∀ v : Value, Upholds inv
      (do ofExcept (Payload.capture (← get).heap v) : Action Payload) fun _ => True := fun v =>
    upholds_get_bind fun _ _ => upholds_ofExcept fun _ _ => trivial
  have hall : ∀ vs : List Value, Upholds inv
      (vs.mapM fun v => do ofExcept (Payload.capture (← get).heap v) : Action (List Payload))
      fun _ => True := by
    intro vs
    induction vs with
    | nil => exact upholds_pure trivial
    | cons v vs ih =>
      rw [List.mapM_cons]
      exact (hcapture v).bind fun _ _ => ih.bind fun _ _ => upholds_pure trivial
  rw [askNewActor]
  split
  next => exact upholds_throw _
  next callee rest _ =>
    refine upholds_get_bind fun p _ => upholds_look fun payload _ => (hall rest).bind fun _ _ => ?_
    exact (upkeep_ask hinv _).bind fun _ _ => upholds_pure trivial

theorem upkeep_run (hinv : Upkeep heaps mailboxes inv) (builtin : Builtin) (args : Array Value) :
    Upholds inv (builtin.run args) fun _ => True := by
  have hheap := hinv.heap_closed
  cases builtin with
  | bufferNew =>
    refine upholds_look fun capacity _ => (upkeep_prepareHeap hinv _).bind fun _ _ => ?_
    refine (upkeep_onHeap hinv ?_).bind fun _ _ => upholds_pure trivial
    exact hheap.upholds (.allocBuffer capacity) rfl
  | bufferReserve =>
    refine upholds_look fun r _ => upholds_look fun capacity _ => ?_
    refine (upholds_headerOf r).bind fun header _ => upkeep_room hinv _ _ ?_
    exact hheap.upholds (.reserveBuffer r capacity) rfl
  | bufferResize =>
    refine upholds_look fun r _ => upholds_look fun size _ => ?_
    refine (upholds_headerOf r).bind fun header _ => upkeep_room hinv _ _ ?_
    exact hheap.upholds (.resizeBuffer r size) rfl
  | bufferShrinkToFit =>
    refine upholds_look fun r _ => (upholds_headerOf r).bind fun header _ => ?_
    refine (upkeep_prepareHeap hinv _).bind fun _ _ => ?_
    refine (upkeep_onHeap hinv ?_).bind fun _ _ => upholds_pure trivial
    exact hheap.upholds (.shrinkBuffer r) rfl
  | bufferGet =>
    refine upholds_look fun r _ => upholds_look fun i _ => ?_
    refine (upholds_positionIn r i).bind fun position _ => upholds_get_bind fun p _ => ?_
    exact upholds_look fun byte _ => upholds_pure trivial
  | bufferSet =>
    refine upholds_look fun r _ => upholds_look fun i _ => ?_
    refine (upholds_positionIn r i).bind fun position _ => upholds_look fun j _ => ?_
    refine (upkeep_onHeap hinv ?_).bind fun _ _ => upholds_pure trivial
    exact hheap.upholds (.writeBuffer r position _) rfl
  | bufferSize | bufferCapacity =>
    refine upholds_look fun r _ => ?_
    exact (upholds_headerOf r).bind fun header _ => upholds_pure trivial
  | self | eq => exact upholds_get_bind fun _ _ => upholds_pure trivial
  | yieldNow => exact (upkeep_ask hinv _).bind fun _ _ => upholds_pure trivial
  | sleep =>
    refine upholds_look fun milliseconds _ => ?_
    exact (upkeep_ask hinv _).bind fun _ _ => upholds_pure trivial
  | spawnActor => exact upkeep_askNewActor hinv args
  | lt => exact (upholds_ofExcept fun _ _ => trivial).map fun _ _ => trivial
  | add | sub => exact upholds_ofExcept fun _ _ => trivial
  | constantNil | isNil | isBool | isInteger | isReal | isPid => exact upholds_pure trivial

end Builtin

namespace Machine

open Actor (Action Upkeep Parts push onMailbox onStack upkeep_onStack upkeep_onHeap upkeep_push
  upkeep_modify upkeep_onMailbox upholds_attempt upkeep_parts)

/-! ### Instructions -/

/-- Something is done, and the actor goes on. -/
theorem upkeep_goOn {act : Action Unit} (hact : Upholds inv act fun _ => True) :
    Upholds inv (do act; return (none : Option Outcome)) fun _ => True :=
  hact.bind fun _ _ => upholds_pure trivial

theorem upkeep_setIp (hinv : Upkeep heaps mailboxes inv) (ip : Nat) :
    Upholds inv (setIp ip) fun _ => True := by
  refine upholds_modify fun p hp => ?_
  split
  next => exact hinv.same hp rfl rfl rfl
  next => exact hp

theorem upkeep_returnFrom (hinv : Upkeep heaps mailboxes inv) (f : Frame) :
    Upholds inv (returnFrom f) fun _ => True := by
  refine upholds_get_bind fun p _ => upholds_get_bind fun q _ => ?_
  have hreturned : Upholds inv
      (modify fun p => { p with frames := q.frames.tail, stack := p.stack.truncate f.calleeSlot })
      fun _ => True :=
    upkeep_modify hinv (fun _ => rfl) (fun _ => rfl) fun _ => rfl
  refine hreturned.bind fun _ _ => ?_
  dsimp only
  split
  next => exact (upkeep_push hinv _).bind fun _ _ => upholds_pure trivial
  next =>
    split
    next => exact (upkeep_push hinv _).bind fun _ _ => upkeep_goOn (upkeep_push hinv _)
    next => exact upkeep_goOn (upkeep_push hinv _)

theorem upkeep_send (hinv : Upkeep heaps mailboxes inv) : Upholds inv send fun _ => True := by
  refine (upkeep_onStack hinv _).bind fun message _ => ?_
  refine (upkeep_onStack hinv _).bind fun receiver _ => ?_
  cases receiver with
  | pid receiver =>
    exact upholds_get_bind fun p _ => upholds_look fun payload _ => upholds_pure trivial
  | _ => exact upholds_throw _

theorem upkeep_importSymbol (hinv : Upkeep heaps mailboxes inv) (loader : Loader)
    (i : Import String) : Upholds inv (importSymbol loader i) fun _ => True := by
  refine upholds_look fun symbol _ => ?_
  cases symbol with
  | native id => exact upkeep_push hinv _
  | function routine => exact Actor.upkeep_pushClosure hinv _ _

theorem upkeep_makeClosure (hinv : Upkeep heaps mailboxes inv) (routine : Routine) :
    Upholds inv (makeClosure routine) fun _ => True := by
  refine upholds_get_bind fun p _ => ?_
  dsimp only
  split
  next => exact upholds_throw_bind _ _
  refine (Actor.upkeep_prepareHeap hinv _).bind fun _ _ => upholds_get_bind fun q _ => ?_
  refine (upkeep_onHeap hinv (hinv.heap_closed.upholds (.allocClosure routine _) rfl)).bind ?_
  exact fun r _ => (upkeep_onStack hinv _).bind fun _ _ => upkeep_push hinv _

theorem upkeep_pushConstant (hinv : Upkeep heaps mailboxes inv) (constant : Constant String) :
    Upholds inv (pushConstant constant) fun _ => True := by
  cases constant with
  | int | real => exact upkeep_push hinv _
  | text s => exact Actor.upkeep_pushString hinv s

theorem upkeep_callBuiltin (hinv : Upkeep heaps mailboxes inv) (builtin : Builtin) (now : Time)
    (calleeSlot : Nat) (guarded : Bool) :
    Upholds inv (callBuiltin builtin now calleeSlot guarded) fun _ => True := by
  refine upholds_get_bind fun p _ => ?_
  refine (upholds_attempt (Builtin.upkeep_run hinv builtin _)).bind fun result _ => ?_
  cases result with
  | ok v =>
    refine (Actor.upkeep_truncateStack hinv calleeSlot).bind fun _ _ => ?_
    have hlast : Upholds inv (do
        push v
        return (← Actor.takeRequest).map (outcomeOf now guarded)) fun _ => True :=
      (upkeep_push hinv v).bind fun _ _ =>
        (Actor.upkeep_takeRequest hinv).bind fun _ _ => upholds_pure trivial
    dsimp only
    split
    next => exact (upkeep_push hinv _).bind fun _ _ => hlast
    next => exact hlast
  | error fault =>
    dsimp only
    split
    next =>
      refine (Actor.upkeep_truncateStack hinv calleeSlot).bind fun _ _ => ?_
      refine (Actor.upkeep_pushFailure hinv fault).bind fun _ _ => ?_
      exact upkeep_goOn (Actor.upkeep_takeRequest hinv).discard
    next => exact upholds_throw fault

/-- A protected call that fails without a frame of its own recovers on the spot. -/
theorem upkeep_invoke (hinv : Upkeep heaps mailboxes inv) (loader : Loader) (now : Time)
    (nargs : Nat) (guarded : Bool) :
    Upholds inv (invoke loader now nargs guarded) fun _ => True := by
  induction nargs using Nat.strongRecOn generalizing guarded with
  | _ nargs ih =>
  rw [invoke.eq_def]
  refine upholds_get_bind fun p _ => ?_
  dsimp only
  split
  next => exact upholds_throw_bind _ _
  refine upholds_get_bind fun q _ => upholds_look fun callee _ => ?_
  cases callee with
  | ref r =>
    dsimp only
    split
    next => exact upholds_throw_bind _ _
    next => exact upkeep_goOn (Actor.upkeep_enter hinv _ nargs guarded)
  | native id =>
    refine upholds_look fun body _ => ?_
    cases body with
    | function builtin => exact upkeep_callBuiltin hinv builtin now _ guarded
    | protectedCall =>
      cases nargs with
      | zero => exact upholds_throw _
      | succ nargs =>
        refine (upkeep_onStack hinv _).discard.bind fun _ _ => upholds_get_bind fun depth _ => ?_
        refine (upholds_attempt (ih nargs (Nat.lt_succ_self nargs) true)).bind fun result _ => ?_
        cases result with
        | ok o => exact upholds_pure trivial
        | error fault =>
          -- With a frame of its own the call is left to be unwound, which is not done here.
          refine upholds_get_bind fun r _ => ?_
          split
          next =>
            refine (Actor.upkeep_truncateStack hinv _).bind fun _ _ => ?_
            exact upkeep_goOn (Actor.upkeep_pushFailure hinv fault)
          next => exact upholds_throw fault
  | _ => exact upholds_throw _

/-- Looking for a message is one operation on the mailbox. -/
theorem upkeep_takeMessage? (hinv : Upkeep heaps mailboxes inv) :
    Upholds inv takeMessage? fun _ => True := by
  refine upkeep_onMailbox hinv fun m hm => ?_
  have hreceive := hinv.mailbox_closed .receive hm
  rw [Mailbox.Operation.run] at hreceive
  rw [ensures_bind, ensures_get]
  cases hfound : m.receive? with
  | none => exact ⟨hm, trivial⟩
  | some found =>
    rw [hfound] at hreceive
    exact ⟨hreceive, trivial⟩

theorem upkeep_remove (hinv : Upkeep heaps mailboxes inv) :
    Upholds inv (onMailbox Mailbox.remove) fun _ => True :=
  upkeep_onMailbox hinv hinv.mailbox_closed.upholds_remove

/-- Only a receive and the removal of a message change the deadline. -/
theorem upkeep_execute (hinv : Upkeep heaps mailboxes inv) (loader : Loader) (now : Time)
    (f : Frame) (ip : Nat) {i : Instruction} (hremove : i ≠ .remove)
    (hreceive : ∀ displacement, i ≠ .receive displacement) :
    Upholds inv (execute loader now f ip i) fun _ => True := by
  cases i with
  | remove => exact absurd rfl hremove
  | receive displacement => exact absurd rfl (hreceive displacement)
  | nop | breakpoint => exact upholds_pure trivial
  | pop count => exact upkeep_goOn (upkeep_onStack hinv _)
  | constant index =>
    exact upholds_look fun c _ => upkeep_goOn (upkeep_pushConstant hinv c)
  | nil | bool | int => exact upkeep_goOn (upkeep_push hinv _)
  | loadLocal index =>
    refine upholds_look fun slot _ => upholds_get_bind fun p _ => ?_
    exact upholds_look fun v _ => upkeep_goOn (upkeep_push hinv v)
  | storeLocal index =>
    refine upholds_look fun slot _ => (upkeep_onStack hinv _).bind fun v _ => ?_
    exact upkeep_goOn (upkeep_onStack hinv _)
  | importSymbol index =>
    exact upholds_look fun i _ => upkeep_goOn (upkeep_importSymbol hinv loader i)
  | makeClosure index =>
    exact upholds_look fun r _ => upkeep_goOn (upkeep_makeClosure hinv r)
  | jump displacement =>
    exact upholds_look fun target _ => upkeep_goOn (upkeep_setIp hinv target)
  | jumpUnless displacement =>
    refine upholds_look fun target _ => (upkeep_onStack hinv _).bind fun condition _ => ?_
    dsimp only
    split
    next => exact upkeep_goOn (upkeep_setIp hinv target)
    next => exact upholds_pure trivial
  | call nargs => exact upkeep_invoke hinv loader now nargs.toNat false
  | ret => exact upkeep_returnFrom hinv f
  | send => exact upkeep_send hinv
  | rewind =>
    refine upkeep_goOn (upholds_modify fun p hp => ?_)
    exact hinv.withMailbox hp (hinv.mailbox_closed .rewind (hinv.mailbox hp))

/-! ### All that happens to an actor -/

section Parts

variable (hheaps : Heap.Closed heaps) (hmailboxes : Mailbox.Closed mailboxes)
include hheaps hmailboxes

theorem parts_receive (now : Time) (ip : Nat) (displacement : Int32) (length : Nat) :
    Upholds (Parts heaps mailboxes) (receive now ip displacement length) fun _ => True := by
  have hinv := upkeep_parts hheaps hmailboxes
  have hredate : ∀ deadline, Upholds (Parts heaps mailboxes)
      (modify fun p => { p with receiveDeadline := deadline }) fun _ => True :=
    fun deadline => upholds_modify fun _ hp => ⟨hp.heap, hp.mailbox⟩
  refine upholds_get_bind fun p _ => upholds_look fun timeout _ => upholds_look fun target _ => ?_
  refine (upkeep_takeMessage? hinv).bind fun message _ => ?_
  cases message with
  | some v => exact (upkeep_onStack hinv _).bind fun _ _ => upkeep_goOn (upkeep_push hinv v)
  | none =>
    refine upholds_get_bind fun q _ => ?_
    -- What is done with the timeout is the same whether the deadline has been noted or not.
    have hrest : Upholds (Parts heaps mailboxes) (do
        if (timeout.map fun delay => q.receiveDeadline.getD (now + delay)).any (· ≤ now) then
          modify fun p => { p with receiveDeadline := none }
          onStack (Stack.pop 1)
          setIp target
          return none
        setIp ip
        return some (Outcome.block (timeout.map fun delay => q.receiveDeadline.getD (now + delay))))
        fun _ => True := by
      split
      next =>
        exact (hredate none).bind fun _ _ => (upkeep_onStack hinv _).bind fun _ _ =>
          upkeep_goOn (upkeep_setIp hinv target)
      next => exact (upkeep_setIp hinv ip).bind fun _ _ => upholds_pure trivial
    dsimp only
    split
    next => exact (hredate _).bind fun _ _ => hrest
    next => exact hrest

/-- Every instruction keeps the parts up. -/
theorem parts_step (loader : Loader) (now : Time) :
    Upholds (Parts heaps mailboxes) (step loader now) fun _ => True := by
  have hinv := upkeep_parts hheaps hmailboxes
  refine upholds_get_bind fun p _ => ?_
  cases p.frames with
  | nil => exact upholds_pure trivial
  | cons f outer =>
    refine (upkeep_setIp hinv _).bind fun _ _ => ?_
    split
    next i _ =>
      cases i with
      | receive displacement => exact parts_receive hheaps hmailboxes now f.ip displacement _
      | remove =>
        refine (upkeep_remove hinv).discard.bind fun _ _ => ?_
        exact upkeep_goOn (upholds_modify fun _ hp => ⟨hp.heap, hp.mailbox⟩)
      | _ => exact upkeep_execute hinv loader now f f.ip nofun nofun
    next => exact upkeep_returnFrom hinv f

/-- So does all that can happen to an actor. -/
theorem parts_after {p : Actor} (hp : Parts heaps mailboxes p) (op : Operation) :
    Parts heaps mailboxes (op.after p) := by
  have hinv := upkeep_parts hheaps hmailboxes
  have hrun : Upholds (Parts heaps mailboxes) op.run fun _ => True := by
    cases op with
    | step loader now => exact parts_step hheaps hmailboxes loader now
    | deliver payload => exact upkeep_goOn (Actor.upkeep_deliver hinv payload)
    | unwind fault => exact upkeep_goOn (Actor.parts_unwind hheaps hmailboxes fault)
    | failProtectedCall fault => exact upkeep_goOn (Actor.upkeep_failProtectedCall hinv fault)
    | collectGarbage => exact upkeep_goOn (Actor.upkeep_collectGarbage hinv).discard
    | answer child => exact upkeep_goOn (upkeep_onStack hinv _)
    | stand state wait =>
      exact upkeep_goOn (upkeep_modify hinv (fun _ => rfl) (fun _ => rfl) fun _ => rfl)
  exact Operation.after_of_ensures ((hrun p hp).mono (fun _ _ h => h.1) fun _ _ h => h)

/-- What the parts have at first and their operations keep up, every actor has that is reached. -/
theorem parts_of_reached {config : ActorConfig} {p : Actor} (h : Reached config p)
    (hheap : heaps (.empty config.heap)) (hmailbox : mailboxes .empty) :
    Parts heaps mailboxes p := by
  induction h with
  | @start pid callee args p hstart =>
    have hcreated : Parts heaps mailboxes (.create pid config) := ⟨hheap, hmailbox⟩
    exact ((Actor.upkeep_start (upkeep_parts hheaps hmailboxes) callee args).of_ok hcreated
      hstart).1
  | next op _ ih => exact parts_after hheaps hmailboxes ih op

end Parts

variable {config : ActorConfig} {p : Actor}

/-- The heap of an actor comes about by operations from an empty one. -/
theorem heap_of_reached (h : Reached config p) : Heap.Reached config.heap p.heap := by
  have hheaps : Heap.Closed (Heap.Reached config.heap) := fun op _ hreached => .next op hreached
  have hmailboxes : Mailbox.Closed fun _ => True := fun _ _ _ => trivial
  exact (parts_of_reached hheaps hmailboxes h .empty trivial).heap

/-- So does its mailbox. -/
theorem mailbox_of_reached (h : Reached config p) :
    ∃ ops, p.mailbox = (Mailbox.afterAll ops).2 := by
  have hheaps : Heap.Closed fun _ => True := fun _ _ _ => trivial
  have hmailboxes : Mailbox.Closed fun m => ∃ ops, m = (Mailbox.afterAll ops).2 := by
    rintro op _ ⟨ops, rfl⟩
    exact ⟨ops ++ [op], (Mailbox.afterAll_concat ops op).symm⟩
  exact (parts_of_reached hheaps hmailboxes h trivial ⟨[], rfl⟩).mailbox

end Machine

end ActorMachine
