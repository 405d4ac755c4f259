import ActorMachine.Proofs.Checked.Payload
import ActorMachine.Proofs.Checked.Stack
import ActorMachine.Proofs.Actor.Call
import ActorMachine.Actor.Recovery

/-!
# Operations of an actor that can crash

What an actor takes for granted it leaves to its stack and its heap for the most part. Unwinding
takes the frame that it has found for granted, and that it lies among the others.

* `Actor.Firm`: stack and heap are in order, and no instruction pointer is beyond the end of its
  code.
* `secure_deliver`, `secure_start`, `secure_unwind` and so on: no operation crashes on a firm actor,
  and the actor stays firm.
-/

namespace ActorMachine.Actor

open Crashing

variable {p : Actor} {α : Type}

/-! ### What the operations take for granted -/

namespace Checked

/-- Does something on the stack. -/
def onStack {α : Type} (act : Crashing Stack α) : Crashing Actor α := fun p =>
  match act p.stack with
  | .ok a stack => .ok a { p with stack }
  | .error failure stack => .error failure { p with stack }

/-- Does something on the heap. -/
def onHeap {α : Type} (act : Crashing Heap α) : Crashing Actor α := fun p =>
  match act p.heap with
  | .ok a heap => .ok a { p with heap }
  | .error failure heap => .error failure { p with heap }

/-- Does something and answers its result or its fault. A crash is not caught. -/
def attempt {α : Type} (act : Crashing Actor α) : Crashing Actor (Except Fault α) := fun p =>
  match act p with
  | .ok a p => .ok (.ok a) p
  | .error (.fault fault) p => .ok (.error fault) p
  | .error (.crash crash) p => .error (.crash crash) p

/-- Puts a value on the stack. -/
def push (v : Value) : Crashing Actor Unit :=
  onStack (Stack.Checked.push v)

/-- Releases what neither the stack nor the mailbox reaches. -/
def collectGarbage : Crashing Actor Nat := do
  onHeap (Heap.Checked.collect (← get).roots)

/-- Makes room for this many bytes. -/
def prepareHeap (bytes : Nat) : Crashing Actor Unit := do
  let heap := (← get).heap
  if heap.shouldCollect || decide (heap.available < bytes) then
    discard collectGarbage
  onHeap (sure (Heap.reserve bytes))

/-- Allocates a string and puts it on the stack. -/
def pushString (text : String) : Crashing Actor Unit := do
  prepareHeap text.utf8ByteSize
  push (.ref (← onHeap (Heap.Checked.allocString text)))

/-- Allocates a closure and puts it on the stack. -/
def pushClosure (routine : Routine) (upvalues : Array Value) : Crashing Actor Unit := do
  prepareHeap (HeapObject.closureBytes upvalues.size)
  push (.ref (← onHeap (Heap.Checked.allocClosure routine upvalues)))

/-- Rebuilds a payload in the heap and puts it on the stack. -/
def pushPayload (payload : Payload) : Crashing Actor Unit := do
  push (← onHeap (Payload.Checked.materialize payload))

/-- Rebuilds a message in the heap and appends it to the mailbox. -/
def deliver (payload : Payload) : Crashing Actor Unit := do
  prepareHeap payload.heapBytes
  let v ← onHeap (Payload.Checked.materialize payload)
  modify fun p => { p with mailbox := p.mailbox.push v }

/-- Calls the closure in a stack slot with the `nargs` values above it. -/
def enter (calleeSlot nargs : Nat) (guarded : Bool) : Crashing Actor Unit := do
  let (routine, upvalues) ← look ((← get).enterable calleeSlot nargs)
  let values := frameExtension routine.prototype upvalues
  onStack (Stack.Checked.reserve values.length)
  values.forM push
  modify fun p => { p with frames := ⟨routine, 0, calleeSlot, guarded⟩ :: p.frames }

/-- Starts an actor. -/
def start (callee : Payload) (args : List Payload) : Crashing Actor Unit := do
  let config := (← get).config
  let stack ← ofExcept (Stack.Checked.withCapacity config.initialStack config.maxStack)
  modify fun p => { p with stack, frames := [] }
  prepareHeap (Payload.heapBytesAll (callee :: args))
  (callee :: args).forM pushPayload
  enter 0 args.length false

/-- Puts the description of a fault on the stack, or nil if it finds no room in the heap. -/
def pushError (fault : Fault) : Crashing Actor Unit := do
  match ← attempt (pushString fault.message) with
  | .ok _ => return ()
  | .error _ => discard <| attempt (push .nil)

/-- Puts false and the description of a fault on the stack. -/
def pushFailure (fault : Fault) : Crashing Actor Unit := do
  push (.bool false)
  pushError fault

/-- Ends all calls up to the innermost guarded one, which is known by its position, counted from
the outermost call. -/
def unwind (fault : Fault) : Crashing Actor Unit := do
  let frames := (← get).frames
  match frames.dropWhile fun f => !f.guarded with
  | [] => fail fault
  | _ :: outer =>
    let f ← grant (element frames.reverse.toArray outer.length)
    let _ ← grant (minus frames.length outer.length)
    sure (truncateStack f.calleeSlot)
    modify fun p => { p with frames := outer, receiveDeadline := none }
    pushFailure fault

/-- Replaces the two results of a guarded native by false and the description of a fault. -/
def failProtectedCall (fault : Fault) : Crashing Actor Unit := do
  onStack (Stack.Checked.pop 2)
  pushFailure fault

end Checked

/-! ### Parts of an actor -/

/-- Stack and heap of the actor are in order, and its frames stay within their code. -/
structure Firm (p : Actor) : Prop where
  /-- The values on the stack lie within its capacity. -/
  stack : p.stack.Fits
  /-- The heap is firm. -/
  heap : p.heap.Firm
  /-- The next instruction of a frame is one of its code, or it is at the end. -/
  frames : ∀ f ∈ p.frames, f.ip ≤ f.routine.prototype.code.size

theorem firm_create (pid : Pid) {config : ActorConfig}
    (hlimit : config.heap.heapLimit ≤ Capacity.maxWord) : (create pid config).Firm where
  stack := Stack.fits_empty _
  heap := Heap.firm_empty hlimit
  frames := List.forall_mem_nil _

/-- All that an invariant asks of the stack is that its values lie within its capacity. -/
def AsksFits (inv : Actor → Prop) : Prop :=
  ∀ p, inv p → p.stack.Fits ∧ ∀ stack : Stack, stack.Fits → inv { p with stack }

/-- All that an invariant asks of the heap is that it is firm. -/
def AsksFirm (inv : Actor → Prop) : Prop :=
  ∀ p, inv p → p.heap.Firm ∧ ∀ heap : Heap, heap.Firm → inv { p with heap }

theorem asksFits_firm : AsksFits Firm :=
  fun _ hp => ⟨hp.stack, fun _ hstack => ⟨hstack, hp.heap, hp.frames⟩⟩

theorem asksFirm_firm : AsksFirm Firm :=
  fun _ hp => ⟨hp.heap, fun _ hheap => ⟨hp.stack, hheap, hp.frames⟩⟩

variable {inv : Actor → Prop} {post : α → Prop}

theorem secure_onStack {checked : Crashing Stack α} {act : Stack.Action α}
    (hact : Secure Stack.Fits checked act post) (hinv : AsksFits inv) :
    Secure inv (Checked.onStack checked) (onStack act) post where
  runs p hp := by
    have hruns := hact.runs p.stack (hinv p hp).1
    rw [Runs, sure] at hruns
    rw [Runs, Checked.onStack, sure, onStack, hruns]
    cases act p.stack <;> rfl
  upholds p hp := by
    obtain ⟨hstack, hset⟩ := hinv p hp
    rw [ensures_onStack]
    exact (hact.upholds p.stack hstack).mono (fun _ _ h => ⟨hset _ h.1, h.2⟩) fun _ _ h => hset _ h

theorem runs_onHeap {checked : Crashing Heap α} {act : Heap.Action α}
    (hruns : Runs checked act p.heap) : Runs (Checked.onHeap checked) (onHeap act) p := by
  rw [Runs, sure] at hruns
  rw [Runs, Checked.onHeap, sure, onHeap, hruns]
  cases act p.heap <;> rfl

theorem secure_onHeap {checked : Crashing Heap α} {act : Heap.Action α}
    (hact : Secure Heap.Firm checked act post) (hinv : AsksFirm inv) :
    Secure inv (Checked.onHeap checked) (onHeap act) post where
  runs p hp := runs_onHeap (hact.runs p.heap (hinv p hp).1)
  upholds p hp := by
    obtain ⟨hheap, hset⟩ := hinv p hp
    rw [ensures_onHeap]
    exact (hact.upholds p.heap hheap).mono (fun _ _ h => ⟨hset _ h.1, h.2⟩) fun _ _ h => hset _ h

theorem secure_attempt {checked : Crashing Actor α} {act : Action α}
    (hact : Secure inv checked act post) :
    Secure inv (Checked.attempt checked) (attempt act)
      fun result => ∀ a, result = .ok a → post a where
  runs p hp := by
    have hruns := hact.runs p hp
    rw [Runs, sure] at hruns
    rw [Runs, Checked.attempt, sure, attempt, hruns]
    cases act p <;> rfl
  upholds p hp := by
    rw [ensures_attempt]
    refine (hact.upholds p hp).mono ?_ fun _ _ h => ⟨h, by simp⟩
    rintro a q ⟨hq, ha⟩
    refine ⟨hq, ?_⟩
    rintro _ ⟨⟩
    exact ha

theorem secure_push (v : Value) (hinv : AsksFits inv) :
    Secure inv (Checked.push v) (push v) fun _ => True :=
  secure_onStack (Stack.secure_push v) hinv

theorem secure_collectGarbage (hinv : AsksFirm inv) :
    Secure inv Checked.collectGarbage collectGarbage fun _ => True where
  runs p hp := runs_onHeap ((Heap.secure_collect p.roots).runs p.heap (hinv p hp).1)
  upholds p hp := by
    obtain ⟨hheap, hset⟩ := hinv p hp
    rw [ensures_collectGarbage]
    exact ⟨hset _ ((Heap.secure_collect p.roots).upholds p.heap hheap).1, trivial⟩

theorem secure_prepareHeap (bytes : Nat) (hinv : AsksFirm inv) :
    Secure inv (Checked.prepareHeap bytes) (prepareHeap bytes) fun _ => True := by
  refine secure_get_bind fun p _ => ?_
  have hreserve := secure_onHeap (Heap.secure_reserve bytes) hinv
  dsimp only
  split
  next => exact (secure_collectGarbage hinv).discard.bind fun _ _ => hreserve
  next => exact hreserve

theorem secure_pushString (text : String) :
    Secure Firm (Checked.pushString text) (pushString text) fun _ => True := by
  refine (secure_prepareHeap _ asksFirm_firm).bind fun _ _ => ?_
  refine (secure_onHeap (Heap.secure_allocString text) asksFirm_firm).bind fun _ _ => ?_
  exact secure_push _ asksFits_firm

theorem secure_pushClosure (routine : Routine) (upvalues : Array Value) :
    Secure Firm (Checked.pushClosure routine upvalues) (pushClosure routine upvalues)
      fun _ => True := by
  refine (secure_prepareHeap _ asksFirm_firm).bind fun _ _ => ?_
  have halloc := secure_onHeap (Heap.secure_allocClosure routine upvalues) asksFirm_firm
  refine halloc.bind fun _ _ => ?_
  exact secure_push _ asksFits_firm

theorem secure_pushPayload (payload : Payload) :
    Secure Firm (Checked.pushPayload payload) (pushPayload payload) fun _ => True :=
  (secure_onHeap (Payload.secure_materialize payload) asksFirm_firm).bind fun _ _ =>
    secure_push _ asksFits_firm

/-- A message of any size and shape may come. -/
theorem secure_deliver (payload : Payload) :
    Secure Firm (Checked.deliver payload) (deliver payload) fun _ => True := by
  refine (secure_prepareHeap _ asksFirm_firm).bind fun _ _ => ?_
  refine (secure_onHeap (Payload.secure_materialize payload) asksFirm_firm).bind fun _ _ => ?_
  exact secure_modify fun p hp => ⟨hp.stack, hp.heap, hp.frames⟩

/-! ### Calls -/

/-- A new frame begins with the first instruction. -/
theorem secure_enter (calleeSlot nargs : Nat) (guarded : Bool) :
    Secure Firm (Checked.enter calleeSlot nargs guarded) (enter calleeSlot nargs guarded)
      fun _ => True := by
  refine secure_get_bind fun p _ => secure_look fun found _ => ?_
  refine (secure_onStack (Stack.secure_reserve _) asksFits_firm).bind fun _ _ => ?_
  refine (secure_forM fun v _ => secure_push v asksFits_firm).bind fun _ _ => ?_
  refine secure_modify fun q hq => ⟨hq.stack, hq.heap, ?_⟩
  exact List.forall_mem_cons.2 ⟨Nat.zero_le _, hq.frames⟩

theorem secure_start (callee : Payload) (args : List Payload) :
    Secure Firm (Checked.start callee args) (start callee args) fun _ => True := by
  refine secure_get_bind fun p _ => ?_
  dsimp only
  rw [Stack.withCapacity_eq]
  refine secure_look fun stack hstack => ?_
  have hcleared : Secure Firm (modify fun p => { p with stack, frames := [] })
      (modify fun p => { p with stack, frames := [] }) fun _ => True :=
    secure_modify fun p hp => ⟨(withCapacity_spec hstack).2, hp.heap, List.forall_mem_nil _⟩
  refine hcleared.bind fun _ _ => (secure_prepareHeap _ asksFirm_firm).bind fun _ _ => ?_
  refine (secure_forM fun payload _ => secure_pushPayload payload).bind fun _ _ => ?_
  exact secure_enter 0 args.length false

/-! ### Recovery -/

theorem secure_truncateStack (n : Nat) :
    Secure Firm (sure (truncateStack n)) (truncateStack n) fun _ => True :=
  secure_modify fun _ hp => ⟨hp.stack.truncate n, hp.heap, hp.frames⟩

theorem secure_pushError (fault : Fault) :
    Secure Firm (Checked.pushError fault) (pushError fault) fun _ => True := by
  refine (secure_attempt (secure_pushString _)).bind fun result _ => ?_
  cases result with
  | ok _ => exact secure_pure trivial
  | error _ => exact (secure_attempt (secure_push .nil asksFits_firm)).discard

theorem secure_pushFailure (fault : Fault) :
    Secure Firm (Checked.pushFailure fault) (pushFailure fault) fun _ => True :=
  (secure_push _ asksFits_firm).bind fun _ _ => secure_pushError fault

/-- The innermost guarded frame is found at the number of those outside of it. -/
theorem element_of_dropWhile {frames outer : List Frame} {f : Frame} {inner : Frame → Bool}
    (hframes : frames.dropWhile inner = f :: outer) :
    element frames.reverse.toArray outer.length = .ok f := by
  have hsplit := List.takeWhile_append_dropWhile (p := inner) (l := frames)
  rw [hframes] at hsplit
  refine element_eq_ok ?_
  rw [← hsplit]
  simp

theorem secure_unwind (fault : Fault) :
    Secure Firm (Checked.unwind fault) (unwind fault) fun _ => True := by
  refine secure_get_bind fun p hp => ?_
  dsimp only
  cases hframes : p.frames.dropWhile fun f => !f.guarded with
  | nil => exact secure_fail fault
  | cons f outer =>
    have hsuffix : f :: outer <:+ p.frames := hframes ▸ List.dropWhile_suffix _
    have hlength : outer.length ≤ p.frames.length :=
      (Nat.le_succ _).trans hsuffix.length_le
    refine secure_grant (element_of_dropWhile hframes) (secure_grant (minus_eq_ok hlength) ?_)
    refine (secure_truncateStack f.calleeSlot).bind fun _ _ => ?_
    refine (secure_modify fun q hq => ⟨hq.stack, hq.heap, fun g hg => ?_⟩).bind fun _ _ =>
      secure_pushFailure fault
    exact hp.frames g (hsuffix.mem (List.mem_cons_of_mem f hg))

theorem secure_failProtectedCall (fault : Fault) :
    Secure Firm (Checked.failProtectedCall fault) (failProtectedCall fault) fun _ => True :=
  (secure_onStack (Stack.secure_pop 2) asksFits_firm).bind fun _ _ => secure_pushFailure fault

end ActorMachine.Actor
