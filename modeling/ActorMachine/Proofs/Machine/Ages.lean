import ActorMachine.Machine.Run
import ActorMachine.Proofs.Actor.Ages
import ActorMachine.Proofs.Machine.Reached

/-!
# What a program does to the memory of its actor

Only two built-in functions write to what is there, and both write to the buffer that they are given
first. Everything else that a program does adds objects to its heap or collects.

* `Writes`: the buffer that the next instruction of an actor writes to, if it succeeds.
* `advance_ages`: an instruction, and what becomes of its fault, let the memory of the actor age,
  but for that buffer.
* `fits_of_reached`: no buffer of an actor ever has more bytes in use than its capacity.
-/

namespace ActorMachine

/-! ### Built-in functions -/

namespace Builtin

open Actor (Action Ages Tends onHeap prepareHeap tends_look tends_pure)

variable {p : Actor} {args : Array Value} {r : HeapRef}

/-- The buffer that a built-in function writes to, provided that it succeeds. -/
def Writes (builtin : Builtin) (args : Array Value) (p : Actor) : Set Handle :=
  {handle | (builtin = .bufferSet ∨ builtin = .bufferResize) ∧ ∃ r v q,
    objectArg .buffer args 0 = .ok r ∧ r.handle = handle ∧ builtin.run args p = .ok v q}

/-- Making room and changing the heap afterwards add up, and neither answers anything. -/
theorem prepared_ages {bytes : Nat} {due : Prop} [Decidable due] {act : Heap.Action Unit}
    {written : Set Handle} (hp : p.Sound) (hfits : p.heap.Fits)
    (hact : ∀ h : Heap, h.Sound → h.Fits →
      Ensures act h (fun _ t => Heap.Ages 1 written h t) fun _ t => Heap.Ages 1 ∅ h t) :
    Ensures (do
      if due then prepareHeap bytes
      onHeap act
      return Value.nil) p (fun _ q => Ages 2 written p q) (fun _ q => Ages 2 ∅ p q) := by
  have hrest : ∀ q : Actor, q.Sound → q.heap.Fits →
      Ensures (do onHeap act; return Value.nil) q (fun _ r => Ages 1 written q r)
        fun _ r => Ages 1 ∅ q r := by
    intro q hq hfits'
    rw [ensures_bind, Actor.ensures_onHeap]
    exact (hact q.heap hq.heap hfits').mono (fun _ _ hages => ⟨hages, .refl _⟩)
      fun _ _ hages => ⟨hages, .refl _⟩
  dsimp only
  split
  next =>
    rw [ensures_bind]
    -- Making room may collect, which counts as one step, and the change is another one.
    refine ((Actor.tends_prepareHeap hp hfits bytes).and (ensures_result _ p)).mono ?_ ?_
    · rintro _ q ⟨hpq, hq⟩
      refine (hrest q (Actor.sound_of_prepareHeap hp hq) hpq.heap.fits).mono ?_ ?_
      · exact fun _ _ hqr => hqr.trans (hpq.mono (Nat.le_refl 1) (Set.empty_subset _))
      · exact fun _ _ hqr => hqr.trans hpq
    · exact fun _ q hpq => hpq.1.of_le (Nat.le_succ 1)
  next =>
    exact (hrest p hp hfits).mono (fun _ _ h => h.of_le (Nat.le_succ 1))
      fun _ _ h => h.of_le (Nat.le_succ 1)

theorem tends_makeBuffer (hp : p.Sound) (hfits : p.heap.Fits) (args : Array Value) :
    Tends 2 ∅ p (makeBuffer args) := by
  refine tends_look hfits _ fun capacity _ => ?_
  refine Tends.of_le ?_ (Nat.le_succ 1)
  refine (Actor.tends_prepareHeap hp hfits _).bind fun _ q hq hfits' => ?_
  have hsound := Actor.sound_of_prepareHeap hp hq
  have halloc := Heap.allocBuffer_spec hsound.heap hfits' capacity
  refine (Actor.tends_onHeap (halloc.mono (fun _ _ h => h.1.ages) fun _ _ h => h.ages)).bind ?_
  exact fun s _ _ hfits'' => tends_pure hfits'' _

/-- An action that does nothing if it fails ages nothing then. -/
theorem ages_of_unchanged {act : Heap.Action Unit} {written : Set Handle} {h : Heap}
    (hfits : h.Fits)
    (hact : Ensures act h (fun _ t => Heap.Ages 1 written h t) fun _ t => t = h) :
    Ensures act h (fun _ t => Heap.Ages 1 written h t) fun _ t => Heap.Ages 1 ∅ h t := by
  refine hact.mono (fun _ _ => id) ?_
  rintro _ _ rfl
  exact Heap.Ages.same hfits

theorem tends_raiseCapacity (hp : p.Sound) (hfits : p.heap.Fits) (args : Array Value) :
    Tends 2 ∅ p (raiseCapacity args) := by
  refine tends_look hfits _ fun r _ => ?_
  refine tends_look hfits _ fun capacity _ => ?_
  refine tends_look hfits (p.heap.header r) fun header _ => ?_
  exact prepared_ages hp hfits fun h hs hfits' =>
    ages_of_unchanged hfits' (Heap.ages_reserveBuffer hs hfits' r capacity)

theorem tends_cutCapacity (hp : p.Sound) (hfits : p.heap.Fits) (args : Array Value) :
    Tends 2 ∅ p (cutCapacity args) := by
  refine tends_look hfits _ fun r _ => ?_
  refine tends_look hfits (p.heap.header r) fun header _ => ?_
  refine (Actor.tends_prepareHeap hp hfits _).bind fun _ q hq hfits' => ?_
  have hsound := Actor.sound_of_prepareHeap hp hq
  have hshrink := ages_of_unchanged hfits' (Heap.ages_shrinkBuffer hsound.heap hfits' r)
  exact (Actor.tends_onHeap hshrink).bind fun _ _ _ hfits'' => tends_pure hfits'' _

/-- Setting the size is one of the two ways of writing to a buffer. -/
theorem setSize_ages (hp : p.Sound) (hfits : p.heap.Fits) (args : Array Value) :
    Ensures (setSize args) p
      (fun _ q => ∃ r, objectArg .buffer args 0 = .ok r ∧ Ages 2 {r.handle} p q)
      (fun _ q => Ages 2 ∅ p q) := by
  have hsame : Ages 2 ∅ p p := .same hfits
  rw [setSize, ensures_bind, ensures_ofExcept]
  refine ⟨fun r hr => ?_, fun _ _ => hsame⟩
  rw [ensures_bind, ensures_ofExcept]
  refine ⟨fun size hsize => ?_, fun _ _ => hsame⟩
  have hword := le_maxWord_of_sizeOf hsize
  rw [headerOf, bind_assoc, ensures_bind, ensures_get, ensures_bind, ensures_ofExcept]
  refine ⟨fun header _ => ?_, fun _ _ => hsame⟩
  refine (prepared_ages hp hfits fun h hs hfits' =>
    ages_of_unchanged hfits' (Heap.ages_resizeBuffer hs hfits' r hword)).mono ?_ fun _ _ => id
  exact fun _ q hpq => ⟨r, hr, hpq⟩

/-- Writing a byte is the other one. -/
theorem writeByte_ages (hp : p.Sound) (hfits : p.heap.Fits) (args : Array Value) :
    Ensures (writeByte args) p
      (fun _ q => ∃ r, objectArg .buffer args 0 = .ok r ∧ Ages 2 {r.handle} p q)
      (fun _ q => Ages 2 ∅ p q) := by
  have hsame : Ages 2 ∅ p p := .same hfits
  rw [writeByte, ensures_bind, ensures_ofExcept]
  refine ⟨fun r hr => ?_, fun _ _ => hsame⟩
  rw [ensures_bind, ensures_ofExcept]
  refine ⟨fun i _ => ?_, fun _ _ => hsame⟩
  -- The position is looked up, and so is what is to be written.
  rw [positionIn, headerOf, bind_assoc, bind_assoc, ensures_bind, ensures_get, ensures_bind,
    ensures_ofExcept]
  refine ⟨fun header _ => ?_, fun _ _ => hsame⟩
  split
  next =>
    rw [pure_bind, ensures_bind, ensures_ofExcept]
    refine ⟨fun j _ => ?_, fun _ _ => hsame⟩
    rw [ensures_bind, Actor.ensures_onHeap]
    refine (Heap.ages_writeBuffer hp.heap hfits r _ _).mono ?_ ?_
    · intro _ heap hages
      exact ⟨r, hr, hages.of_le (Nat.zero_le 2), .refl _⟩
    · rintro _ _ rfl
      exact hsame
  next =>
    rw [ensures_bind, ensures_throw]
    exact hsame

theorem leaves_askNewActor (args : Array Value) : p.Leaves (askNewActor args) := by
  rw [Actor.Leaves, askNewActor]
  split
  next => exact ⟨rfl, rfl⟩
  next callee rest _ =>
    rw [ensures_bind, ensures_get, ensures_bind, ensures_ofExcept]
    refine ⟨fun payload _ => ?_, fun _ _ => ⟨rfl, rfl⟩⟩
    rw [ensures_bind]
    exact ensures_captureAll rest (fun _ => ⟨rfl, rfl⟩) fun _ => ⟨rfl, rfl⟩

/-- Apart from the five functions that change the heap, built-in functions leave it alone. -/
theorem leaves_run {builtin : Builtin} (args : Array Value) (hnew : builtin ≠ .bufferNew)
    (hreserve : builtin ≠ .bufferReserve) (hshrink : builtin ≠ .bufferShrinkToFit)
    (hresize : builtin ≠ .bufferResize) (hset : builtin ≠ .bufferSet) :
    p.Leaves (builtin.run args) := by
  cases builtin with
  | bufferNew | bufferReserve | bufferShrinkToFit | bufferResize | bufferSet => contradiction
  | constantNil | self | yieldNow | isNil | isBool | isInteger | isReal | isPid | eq =>
    exact ⟨rfl, rfl⟩
  | bufferGet =>
    refine Actor.leaves_look _ fun r => Actor.leaves_look _ fun i => ?_
    rw [positionIn, bind_assoc]
    refine Actor.leaves_look (p.heap.header r) fun header => ?_
    split
    next => exact Actor.leaves_look (p.heap.bufferByte r _) fun byte => Actor.leaves_pure _
    next => exact ⟨rfl, rfl⟩
  | bufferSize =>
    exact Actor.leaves_look _ fun r =>
      Actor.leaves_look (p.heap.header r) fun header => Actor.leaves_pure _
  | bufferCapacity =>
    exact Actor.leaves_look _ fun r =>
      Actor.leaves_look (p.heap.header r) fun header => Actor.leaves_pure _
  | sleep => exact Actor.leaves_look _ fun milliseconds => ⟨rfl, rfl⟩
  | spawnActor => exact leaves_askNewActor args
  | lt =>
    rw [Actor.Leaves, run, ensures_map, ensures_ofExcept]
    exact ⟨fun _ _ => ⟨rfl, rfl⟩, fun _ _ => ⟨rfl, rfl⟩⟩
  | add | sub =>
    rw [Actor.Leaves, run, ensures_ofExcept]
    exact ⟨fun _ _ => ⟨rfl, rfl⟩, fun _ _ => ⟨rfl, rfl⟩⟩

/-- A built-in function ages the memory of its caller, but for the buffer that it writes to. One
that fails has written to nothing. -/
theorem run_ages (hp : p.Sound) (hfits : p.heap.Fits) (builtin : Builtin) (args : Array Value) :
    Ensures (builtin.run args) p (fun _ q => Ages 2 (builtin.Writes args p) p q)
      (fun _ q => Ages 2 ∅ p q) := by
  have htends : Tends 2 ∅ p (builtin.run args) → Ensures (builtin.run args) p
      (fun _ q => Ages 2 (builtin.Writes args p) p q) fun _ q => Ages 2 ∅ p q := fun h =>
    Ensures.mono h (fun _ _ hq => hq.mono (Nat.le_refl 2) (Set.empty_subset _)) fun _ _ => id
  -- What a function that writes has done belongs to the run that has succeeded.
  have hwrites : (builtin = .bufferSet ∨ builtin = .bufferResize) →
      Ensures (builtin.run args) p
        (fun _ q => ∃ r, objectArg .buffer args 0 = .ok r ∧ Ages 2 {r.handle} p q)
        (fun _ q => Ages 2 ∅ p q) → Ensures (builtin.run args) p
      (fun _ q => Ages 2 (builtin.Writes args p) p q) fun _ q => Ages 2 ∅ p q := by
    intro hwriter h
    refine (h.and (ensures_result _ p)).mono ?_ fun _ _ => And.left
    rintro v q ⟨⟨r, hr, hages⟩, hrun⟩
    refine hages.mono (Nat.le_refl 2) fun handle hmem => ?_
    obtain rfl := Set.mem_singleton_iff.1 hmem
    exact ⟨hwriter, r, v, q, hr, rfl, hrun⟩
  by_cases hnew : builtin = .bufferNew
  · subst hnew; exact htends (tends_makeBuffer hp hfits args)
  by_cases hreserve : builtin = .bufferReserve
  · subst hreserve; exact htends (tends_raiseCapacity hp hfits args)
  by_cases hshrink : builtin = .bufferShrinkToFit
  · subst hshrink; exact htends (tends_cutCapacity hp hfits args)
  by_cases hresize : builtin = .bufferResize
  · subst hresize; exact hwrites (.inr rfl) (setSize_ages hp hfits args)
  by_cases hset : builtin = .bufferSet
  · subst hset; exact hwrites (.inl rfl) (writeByte_ages hp hfits args)
  exact htends (((leaves_run args hnew hreserve hshrink hresize hset).tends hfits ∅).of_le
    (Nat.zero_le 2))

end Builtin

namespace Machine

open Actor (Action Ages Tends Leaves onHeap onMailbox push tends_look tends_pure leaves_look
  leaves_pure leaves_onStack)

variable {p q r : Actor} {n : Nat} {loader : Loader} {now : Time} {config : ActorConfig}
  {written : Set Handle}

/-! ### Instructions inside a call -/

theorem leaves_setIp (ip : Nat) : Leaves p (setIp ip) := by
  rw [Leaves, setIp, ensures_modify]
  split <;> exact ⟨rfl, rfl⟩

/-- A jump moves the instruction pointer. -/
theorem leaves_jump (ip : Nat) : Leaves p (do setIp ip; return (none : Option Outcome)) :=
  (leaves_setIp ip).bind fun _ _ => leaves_pure none

theorem leaves_send : Leaves p send := by
  refine (leaves_onStack _).bind fun message q => (leaves_onStack _).bind fun v r => ?_
  cases v with
  | pid receiver =>
    exact leaves_look (Payload.capture r.heap message) fun payload => leaves_pure _
  | _ => exact ⟨rfl, rfl⟩

/-- A return concerns the stack and the frames. -/
theorem leaves_returnFrom (f : Frame) : Leaves p (returnFrom f) := by
  rw [Leaves, returnFrom, ensures_bind, ensures_get]
  dsimp only
  rw [ensures_bind, ensures_get, ensures_bind, ensures_modify]
  generalize hq : ({ p with
    frames := p.frames.tail
    stack := p.stack.truncate f.calleeSlot } : Actor) = q
  have hheap : q.heap = p.heap := hq ▸ rfl
  have hmailbox : q.mailbox = p.mailbox := hq ▸ rfl
  rw [← hheap, ← hmailbox]
  split
  next => exact (leaves_onStack _).bind fun _ _ => leaves_pure _
  next =>
    split
    next =>
      exact (leaves_onStack _).bind fun _ _ => (leaves_onStack _).bind fun _ _ => leaves_pure _
    next => exact (leaves_onStack _).bind fun _ _ => leaves_pure _

theorem tends_pushClosure (hp : p.Sound) (hfits : p.heap.Fits) (routine : Routine) (count : Nat) :
    Tends 1 ∅ p (Actor.pushClosure routine (Array.replicate count .nil)) := by
  refine (Actor.tends_prepareHeap hp hfits _).bind fun _ q hq hfits' => ?_
  have hups : ∀ v ∈ Array.replicate count Value.nil, q.heap.Backs v := by
    intro v hv
    obtain ⟨-, rfl⟩ := Array.mem_replicate.1 hv
    trivial
  have hsound := Actor.sound_of_prepareHeap hp hq
  refine (Actor.tends_alloc hsound hfits' (.closure routine (Array.replicate count .nil)) nofun ?_
    rfl).bind fun _ _ _ hfits'' => (leaves_onStack _).tends hfits'' ∅
  rintro _ _ heq
  obtain ⟨-, rfl⟩ := HeapObject.closure.inj heq
  exact hups

theorem tends_importSymbol (hp : p.Sound) (hfits : p.heap.Fits) (loader : Loader)
    (i : Import String) : Tends 1 ∅ p (importSymbol loader i) := by
  refine tends_look hfits _ fun symbol _ => ?_
  cases symbol with
  | native id => exact ((leaves_onStack _).tends hfits ∅).of_le (Nat.zero_le 1)
  | function routine => exact tends_pushClosure hp hfits routine _

/-- What a closure captures is on the stack when the closure is made. -/
theorem tends_makeClosure (hp : p.Sound) (hfits : p.heap.Fits) (routine : Routine) :
    Tends 1 ∅ p (makeClosure routine) := by
  rw [Tends, makeClosure, ensures_bind, ensures_get]
  dsimp only
  split
  next =>
    rw [ensures_bind, ensures_throw]
    exact Ages.same hfits
  next =>
    refine (Actor.tends_prepareHeap hp hfits _).bind fun _ q hq hfits' => ?_
    have hsound := Actor.sound_of_prepareHeap hp hq
    obtain ⟨heap, rfl, -⟩ := (Actor.works_prepareHeap hp _).of_ok hq
    rw [Tends, ensures_bind, ensures_get]
    dsimp only
    generalize hups : p.stack.values.extract
      (p.stack.size - routine.prototype.upvalues.toNat) p.stack.size = upvalues
    -- The upvalues are values of the stack, and what was on the stack survives the collection.
    have hbacks : ∀ v ∈ upvalues, heap.Backs v := by
      intro v hv
      subst hups
      refine hsound.stack v ?_
      rw [Array.mem_iff_getElem] at hv
      obtain ⟨i, hi, rfl⟩ := hv
      simp [Stack.toList]
    have hsize : HeapObject.closureBytes upvalues.size =
      HeapObject.charge (.closure routine upvalues) := rfl
    refine (Actor.tends_alloc hsound hfits' (.closure routine upvalues)
      (by simp [HeapObject.kind]) ?_ hsize.symm).bind
      fun _ _ _ hfits'' => ?_
    · rintro _ _ heq
      obtain ⟨-, rfl⟩ := HeapObject.closure.inj heq
      exact hbacks
    · refine Leaves.tends ?_ hfits'' ∅
      exact (leaves_onStack _).bind fun _ _ => leaves_onStack _

theorem tends_pushConstant (hp : p.Sound) (hfits : p.heap.Fits) (c : Constant String) :
    Tends 1 ∅ p (pushConstant c) := by
  cases c with
  | text s => exact Actor.tends_pushString hp hfits s
  | _ => exact ((leaves_onStack _).tends hfits ∅).of_le (Nat.zero_le 1)

/-- Looking at the next message moves the cursor and nothing else. -/
theorem tends_takeMessage? (hfits : p.heap.Fits) : Tends 0 ∅ p takeMessage? := by
  rw [Tends, takeMessage?, Actor.ensures_onMailbox, ensures_bind, ensures_get]
  split
  next v mailbox hreceive =>
    rw [Mailbox.receive?, Option.map_eq_some_iff] at hreceive
    obtain ⟨w, -, hpair⟩ := hreceive
    obtain ⟨rfl, rfl⟩ := Prod.mk.inj hpair
    exact ⟨.refl hfits ∅, .refl _⟩
  next => exact .refl hfits ∅

/-- Waiting and giving up concern the deadline, the stack and the instruction pointer. -/
theorem leaves_jumpOrWait (p : Actor) (now : Time) (ip target : Nat) (deadline : Option Time) :
    Leaves p (jumpOrWait now ip target deadline) := by
  rw [jumpOrWait]
  split
  next =>
    refine Leaves.bind ⟨rfl, rfl⟩ fun _ _ => (leaves_onStack _).bind fun _ _ => ?_
    exact leaves_jump target
  next => exact (leaves_setIp ip).bind fun _ _ => leaves_pure _

theorem tends_receive (hfits : p.heap.Fits) (now : Time) (ip : Nat) (displacement : Int32)
    (length : Nat) : Tends 0 ∅ p (receive now ip displacement length) := by
  rw [receive_eq]
  refine tends_look hfits (receiveTimeout p.stack) fun timeout _ => ?_
  refine tends_look hfits _ fun target _ => ?_
  -- Only the search for a message concerns the mailbox.
  refine (tends_takeMessage? hfits).bind fun message q _ hfits' => ?_
  refine Leaves.tends ?_ hfits' ∅
  cases message with
  | some v =>
    exact (leaves_onStack _).bind fun _ _ => (leaves_onStack _).bind fun _ _ => leaves_pure none
  | none =>
    have hfix : Leaves q (fixDeadline now timeout) :=
      (ensures_fixDeadline now timeout).2 ⟨rfl, rfl⟩
    exact hfix.bind fun deadline r => leaves_jumpOrWait r now ip target deadline

/-- Removing a message leaves the others in order. -/
theorem tends_remove (hfits : p.heap.Fits) :
    Tends 0 ∅ p (discard <| onMailbox Mailbox.remove) := by
  rw [Tends, ensures_discard, Actor.ensures_onMailbox, Mailbox.remove, ensures_bind, ensures_get,
    ensures_bind, ensures_modify]
  split
  next position _ =>
    split
    next v _ =>
      rw [ensures_bind, ensures_modify]
      refine ⟨.refl hfits ∅, ?_⟩
      show (p.mailbox.messages.eraseIdxIfInBounds position).toList.Sublist p.mailbox.toList
      rw [Array.toList_eraseIdxIfInBounds]
      exact List.eraseIdx_sublist _ _
    next => exact ⟨.refl hfits ∅, .refl _⟩
  next => exact ⟨.refl hfits ∅, .refl _⟩

/-- An instruction other than a call adds at most one object to the heap. -/
theorem tends_execute (hp : p.Sound) (hfits : p.heap.Fits) (loader : Loader) (now : Time)
    (f : Frame) (ip : Nat) {i : Instruction} (hcall : ∀ nargs, i ≠ .call nargs) :
    Tends 1 ∅ p (execute loader now f ip i) := by
  have hdone : ∀ {act : Action Unit}, Tends 1 ∅ p act →
      Tends 1 ∅ p (do act; return (none : Option Outcome)) := fun h => by
    rw [← Nat.zero_add 1]
    exact h.bind fun _ _ _ hfits' => tends_pure hfits' none
  -- Most instructions leave the heap alone, and those that do not add one object and are done.
  have hleaves : ∀ {act : Action (Option Outcome)}, Leaves p act → Tends 1 ∅ p act :=
    fun h => (h.tends hfits ∅).of_le (Nat.zero_le 1)
  cases i with
  | call nargs => exact absurd rfl (hcall nargs)
  | nop | breakpoint => exact hleaves (leaves_pure _)
  | pop | nil | bool | int =>
    exact hleaves ((leaves_onStack _).bind fun _ _ => leaves_pure _)
  | constant index => exact tends_look hfits _ fun c _ => hdone (tends_pushConstant hp hfits c)
  | loadLocal index =>
    refine hleaves (leaves_look _ fun slot => leaves_look (p.stack.slot slot) fun v => ?_)
    exact (leaves_onStack _).bind fun _ _ => leaves_pure _
  | storeLocal index =>
    refine hleaves (leaves_look _ fun slot => (leaves_onStack _).bind fun v q => ?_)
    exact (leaves_onStack _).bind fun _ _ => leaves_pure _
  | importSymbol index =>
    exact tends_look hfits _ fun i _ => hdone (tends_importSymbol hp hfits loader i)
  | makeClosure index =>
    exact tends_look hfits _ fun routine _ => hdone (tends_makeClosure hp hfits routine)
  | jump displacement => exact hleaves (leaves_look _ fun target => leaves_jump target)
  | jumpUnless displacement =>
    refine hleaves (leaves_look _ fun target => (leaves_onStack _).bind fun condition q => ?_)
    dsimp only
    split
    next => exact leaves_jump target
    next => exact leaves_pure none
  | ret => exact hleaves (leaves_returnFrom f)
  | send => exact hleaves leaves_send
  | receive displacement =>
    exact (tends_receive hfits now ip displacement _).of_le (Nat.zero_le 1)
  | remove =>
    refine ((tends_remove hfits).bind fun _ q _ hfits' => ?_).of_le (Nat.zero_le 1)
    exact show Ages 0 ∅ q { q with receiveDeadline := none } from .of_eq hfits' rfl rfl
  | rewind => exact ⟨Heap.Ages.same hfits, .refl _⟩

/-! ### Calls -/

/-- The buffer that a call of `n` arguments writes to, if it is one of a built-in function. -/
def CalleeWrites (loader : Loader) (n : Nat) (p : Actor) : Set Handle :=
  {handle | ∃ id builtin, p.stack.slot (p.calleeSlot n) = .ok (.native id) ∧
    nativeFor loader id n = .ok (.function builtin) ∧
    handle ∈ builtin.Writes (p.stack.values.extract (p.calleeSlot n + 1) p.stack.size) p}

/-- The buffer that the next instruction of an actor writes to: the one that the built-in function
writes to which the instruction calls, be it through protected calls. -/
def Writes (loader : Loader) (p : Actor) : Set Handle :=
  {handle | ∃ n guarded q, Invokes loader p n guarded q ∧ handle ∈ CalleeWrites loader n q}

/-- The report of a fault can be made where there is room for it. -/
theorem report_ages (hp : p.Sound) (hfits : p.heap.Fits) {slot : Nat} (hslot : slot ≤ p.stack.size)
    (hroom : slot + 2 ≤ p.stack.capacity) (fault : Fault) :
    Ensures (do
      Actor.truncateStack slot
      Actor.pushFailure fault
      return (none : Option Outcome)) p (fun _ q => Ages 1 ∅ p q) (fun _ _ => False) := by
  have hnever : Ensures (do
      Actor.truncateStack slot
      Actor.pushFailure fault
      return (none : Option Outcome)) p (fun _ _ => True) (fun _ _ => False) :=
    ensures_report hp hslot hroom fault fun _ _ _ _ => trivial
  have hages : Ensures (do
      Actor.truncateStack slot
      Actor.pushFailure fault
      return (none : Option Outcome)) p (fun _ q => Ages 1 ∅ p q) (fun _ q => Ages 1 ∅ p q) := by
    rw [ensures_bind, Actor.truncateStack, ensures_modify, ensures_bind]
    exact Actor.tends_failure hp hfits fault slot rfl rfl rfl
  exact (hnever.and hages).mono (fun _ _ => And.right) fun _ _ => And.left

/-- A call of a built-in function does what the function does, and may report its fault. -/
theorem callBuiltin_ages (hp : p.Sound) (hfits : p.heap.Fits) (builtin : Builtin) (now : Time)
    (slot : Nat) (guarded : Bool) :
    Tends 3 (builtin.Writes (p.stack.values.extract (slot + 1) p.stack.size) p) p
      (callBuiltin builtin now slot guarded) := by
  rw [Tends, callBuiltin, ensures_bind, ensures_get]
  dsimp only
  rw [ensures_bind, Actor.ensures_attempt]
  generalize p.stack.values.extract (slot + 1) p.stack.size = args
  refine ((Builtin.run_ages hp hfits builtin args).and (Builtin.run_spec hp builtin args)).mono ?_ ?_
  · rintro v q ⟨hpq, -⟩
    have hrest : Leaves q (do
        Actor.truncateStack slot
        if guarded then
          push (.bool true)
        push v
        return (← Actor.takeRequest).map (outcomeOf now guarded)) := by
      refine Leaves.bind (show Leaves q (Actor.truncateStack slot) from ⟨rfl, rfl⟩) fun _ r => ?_
      have hlast : ∀ u : Actor, Leaves u (do
          push v
          return (← Actor.takeRequest).map (outcomeOf now guarded)) := fun u =>
        (leaves_onStack _).bind fun _ _ =>
          Leaves.bind (show Leaves _ Actor.takeRequest from ⟨rfl, rfl⟩) fun _ _ => leaves_pure _
      dsimp only
      split
      next => exact (leaves_onStack _).bind fun _ u => hlast u
      next => exact hlast r
    have hages : ∀ s, Ages 0 _ q s → Ages 3 _ p s := fun s hqs =>
      (hqs.trans hpq).of_le (by decide)
    exact Ensures.mono (hrest.tends hpq.heap.fits _) (fun _ s => hages s) fun _ s => hages s
  · rintro fault q ⟨hpq, heap, rfl, hq⟩
    have hwritten : ∀ {r : Actor}, Ages 3 ∅ p r → Ages 3 (builtin.Writes args p) p r := fun h =>
      h.mono (Nat.le_refl 3) (Set.empty_subset _)
    cases guarded with
    | false => exact hwritten (hpq.of_le (Nat.le_succ 2))
    | true =>
      dsimp only
      -- A protected call that has failed pushes a report, and allocates the text of it.
      rw [if_pos rfl, ensures_bind, Actor.truncateStack, ensures_modify, ensures_bind]
      have hreport := Actor.tends_failure (q := { p with heap, stack := p.stack.truncate slot })
        hq hpq.heap.fits fault slot rfl rfl rfl
      refine hreport.mono (fun _ r hr => ?_) fun _ r hr => hwritten (hr.trans hpq)
      exact hwritten ⟨(hr.trans hpq).heap, (hr.trans hpq).mailbox⟩

/-- A protected call does what the guarded call of its first argument does. If that fails, it makes
a report, which allocates one object. -/
theorem protectedCall_ages (hp : p.Sound) (hrequest : p.request = none) (loader : Loader)
    (now : Time) {n : Nat} (guarded : Bool) {id : NativeId} (hsize : n + 1 < p.stack.size)
    (hcallee : p.stack.slot (p.calleeSlot (n + 1)) = .ok (.native id))
    (hnative : nativeFor loader id (n + 1) = .ok .protectedCall)
    (hinner : Ensures (invoke loader now n true) (p.withoutSlot (p.calleeSlot (n + 1)))
      (fun _ q => Ages 4 written (p.withoutSlot (p.calleeSlot (n + 1))) q)
      (fun _ q => Ages 3 written (p.withoutSlot (p.calleeSlot (n + 1))) q)) :
    Ensures (invoke loader now (n + 1) guarded) p (fun _ q => Ages 4 written p q)
      (fun _ q => Ages 3 written p q) := by
  have hslot := Actor.calleeSlot_lt hsize
  have hkeeps := Actor.keeps_withoutSlot hp (p.calleeSlot (n + 1))
  have hslots := Actor.calleeSlot_withoutSlot hslot
  have htwo := hp.room_callee hsize
  -- The callee is gone from the stack, which is no matter of the memory.
  have hages : ∀ {k : Nat} {q : Actor},
      Ages k written (p.withoutSlot (p.calleeSlot (n + 1))) q → Ages k written p q :=
    fun h => ⟨h.heap, h.mailbox⟩
  have hboth := hinner.and
    (invoke_spec hkeeps.sound hrequest loader now n true fun _ => by rw [hslots]; exact htwo)
  rw [Ensures, invoke_protectedCall hsize hcallee hnative now guarded]
  cases hcall : invoke loader now n true (p.withoutSlot (p.calleeSlot (n + 1))) with
  | ok o q => exact hages (hboth.of_ok hcall).1
  | error fault q =>
    obtain ⟨hq, hkept⟩ := hboth.of_error hcall
    rw [hslots] at hkept
    have hpq := hkept.trans hkeeps
    dsimp only
    rw [if_pos (congrArg List.length hpq.frames)]
    refine (report_ages hpq.sound hq.heap.fits (hpq.le_size hslot.le)
      (Nat.le_trans htwo hpq.capacity) fault).mono ?_ fun _ _ => False.elim
    exact fun _ r hr => (hr.mono (Nat.le_refl 1) (Set.empty_subset _)).trans (hages hq)

/-- Whatever a call comes to, it ages the memory, but for what its callee writes to. -/
theorem invoke_ages (hp : p.Sound) (hrequest : p.request = none) (hfits : p.heap.Fits)
    (loader : Loader) (now : Time) (n : Nat) (guarded : Bool)
    (hroom : guarded = true → p.calleeSlot n + 2 ≤ p.stack.capacity)
    (hwritten : ∀ m guarded' q, Reduces loader n guarded p m guarded' q →
      CalleeWrites loader m q ⊆ written) :
    Ensures (invoke loader now n guarded) p (fun _ q => Ages 4 written p q)
      (fun _ q => Ages 3 written p q) := by
  induction n using Nat.strong_induction_on generalizing p guarded with
  | h n ih =>
    refine ensures_invoke (fun _ => .same hfits) ?_ ?_ ?_
    -- As for calls in general, the induction goes down the arguments of protected calls.
    · rintro m id rfl hsize hcallee hnative
      have hkeeps := Actor.keeps_withoutSlot hp (p.calleeSlot (m + 1))
      refine protectedCall_ages hp hrequest loader now guarded hsize hcallee hnative ?_
      refine ih m (Nat.lt_succ_self m) hkeeps.sound hrequest hfits true (fun _ => ?_)
        fun k guarded' q hchain => hwritten k guarded' q (.protect hsize hcallee hnative hchain)
      rw [Actor.calleeSlot_withoutSlot (Actor.calleeSlot_lt hsize)]
      exact hp.room_callee hsize
    -- A function of the program only gets a frame: what it does comes later.
    · intro _
      exact Ensures.mono ((Actor.leaves_enter _ n guarded).tends hfits written)
        (fun _ _ hq => hq.of_le (Nat.zero_le 4)) fun _ _ hq => hq.of_le (Nat.zero_le 3)
    · intro id builtin _ hcallee hnative
      have hsub : builtin.Writes
          (p.stack.values.extract (p.calleeSlot n + 1) p.stack.size) p ⊆ written :=
        fun handle hmem => hwritten n guarded p (.refl n guarded p)
          ⟨id, builtin, hcallee, hnative, hmem⟩
      refine Ensures.mono (callBuiltin_ages hp hfits builtin now (p.calleeSlot n) guarded) ?_ ?_
      · exact fun _ _ hq => hq.mono (Nat.le_succ 3) hsub
      · exact fun _ _ hq => hq.mono (Nat.le_refl 3) hsub

/-! ### Steps -/

theorem ages_atIp {ip : Nat} (h : Ages n written (p.atIp ip) q) : Ages n written p q := by
  rw [Actor.atIp] at h
  split at h
  · exact ⟨h.heap, h.mailbox⟩
  · exact h

/-- An instruction ages the memory of the actor, but for the buffer that it writes to. -/
theorem step_ages (hp : Steady p) (hfits : p.heap.Fits) (loader : Loader) (now : Time) :
    Tends 4 (Writes loader p) p (step loader now) := by
  rw [Tends, step, ensures_bind, ensures_get]
  cases hframes : p.frames with
  | nil => exact Ages.same hfits
  | cons f outer =>
    have hq := hp.atIp (f.ip + 1)
    have hset : setIp (f.ip + 1) = modify fun p => p.atIp (f.ip + 1) := rfl
    have hfits' : (p.atIp (f.ip + 1)).heap.Fits := by
      rw [Actor.atIp, hframes]
      exact hfits
    have hages : ∀ {act : Action (Option Outcome)} {m : Nat} {written : Set Handle},
        Tends m written (p.atIp (f.ip + 1)) act → m ≤ 4 → written ⊆ Writes loader p →
        Ensures act (p.atIp (f.ip + 1)) (fun _ q => Ages 4 (Writes loader p) p q)
          fun _ q => Ages 4 (Writes loader p) p q := fun h hm hsub =>
      Ensures.mono h (fun _ _ hr => (ages_atIp hr).mono hm hsub)
        fun _ _ hr => (ages_atIp hr).mono hm hsub
    dsimp only
    rw [hset, ensures_bind, ensures_modify]
    cases hcode : f.routine.prototype.code[f.ip]? with
    | none =>
      exact hages ((leaves_returnFrom f).tends hfits' ∅) (Nat.zero_le 4) (Set.empty_subset _)
    | some i =>
      by_cases hcall : ∃ nargs, i = .call nargs
      · obtain ⟨nargs, rfl⟩ := hcall
        -- Whatever the callee is found to be, the instruction invokes it.
        have hwritten : ∀ m guarded' r,
            Reduces loader nargs.toNat false (p.atIp (f.ip + 1)) m guarded' r →
            CalleeWrites loader m r ⊆ Writes loader p := fun m guarded' r hchain handle hmem =>
          ⟨m, guarded', r, ⟨f, outer, nargs, hframes, hcode, hchain⟩, hmem⟩
        refine Ensures.mono (invoke_ages hq.sound hq.request hfits' loader now nargs.toNat false
          (by simp) hwritten) ?_ ?_
        · exact fun _ _ hr => ages_atIp hr
        · exact fun _ _ hr => (ages_atIp hr).of_le (Nat.le_succ 3)
      · exact hages (tends_execute hq.sound hfits' loader now f f.ip
          fun nargs h => hcall ⟨nargs, h⟩) (by decide) (Set.empty_subset _)

/-- So does an instruction together with what becomes of its fault. -/
theorem advance_ages (hp : Steady p) (hfits : p.heap.Fits) (loader : Loader) (now : Time) :
    Ages 5 (Writes loader p) p (advance loader now p).2 := by
  have hstep := step_ages hp hfits loader now
  rw [advance]
  cases hrun : step loader now p with
  | ok o q => exact (hstep.of_ok hrun).of_le (Nat.le_succ 4)
  | error fault q =>
    have hpq := hstep.of_error hrun
    have hq := (steady_step hp loader now).of_error hrun
    have hunwind := Actor.tends_unwind hq.sound hpq.heap.fits fault
    have htrans : ∀ {r : Actor}, Ages 1 ∅ q r → Ages 5 (Writes loader p) p r := fun hqr =>
      (hqr.mono (Nat.le_refl 1) (Set.empty_subset _)).trans hpq
    cases hresult : Actor.unwind fault q with
    | ok _ r =>
      simp only [hresult]
      exact htrans (hunwind.of_ok hresult)
    | error fault' r =>
      simp only [hresult]
      exact htrans (hunwind.of_error hresult)

/-! ### All that happens to an actor -/

/-- Every operation leaves the bytes in use within the capacities. -/
theorem fits_after (hp : Steady p) (hfits : p.heap.Fits) (op : Operation) :
    (op.after p).heap.Fits := by
  suffices hrun : Ensures op.run p (fun _ q => q.heap.Fits) fun _ q => q.heap.Fits from
    Operation.after_of_ensures hrun
  -- Of an action that adds at most one object to the heap there is nothing left to show.
  have hof : ∀ {act : Action Unit}, Tends 1 ∅ p act →
      Ensures (do act; return (none : Option Outcome)) p (fun _ q => q.heap.Fits)
        fun _ q => q.heap.Fits := fun h => by
    rw [ensures_bind]
    exact Ensures.mono h (fun _ _ hq => hq.heap.fits) fun _ _ hq => hq.heap.fits
  cases op with
  | step loader now =>
    exact Ensures.mono (step_ages hp hfits loader now) (fun _ _ hq => hq.heap.fits)
      fun _ _ hq => hq.heap.fits
  | deliver payload =>
    rw [Operation.run, ensures_bind]
    refine (Actor.deliver_takes hp.sound hfits payload).mono ?_ ?_
    · rintro _ _ ⟨-, heap, v, rfl, hages, -⟩
      exact hages.fits
    · rintro _ _ ⟨-, heap, rfl, hages⟩
      exact hages.fits
  | unwind fault => exact hof (Actor.tends_unwind hp.sound hfits fault)
  | failProtectedCall fault => exact hof (Actor.tends_failProtectedCall hp.sound hfits fault)
  | collectGarbage =>
    rw [Operation.run, ensures_bind, ensures_discard, Actor.ensures_collectGarbage]
    exact (Heap.ages_collect hp.sound.heap hfits p.roots).fits
  | answer child =>
    exact hof (((leaves_onStack _).tends hfits ∅).of_le (Nat.zero_le 1))
  | stand state wait => exact hfits

/-- In every state that an actor reaches the bytes in use lie within the capacities. -/
theorem fits_of_reached (h : Reached config p) : p.heap.Fits := by
  induction h with
  | start hstart => exact (Actor.memory_of_start hstart).1
  | next op hbefore ih => exact fits_after (steady_of_reached hbefore) ih op

end Machine

end ActorMachine
