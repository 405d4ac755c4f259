import ActorMachine.Builtin.Run
import ActorMachine.Proofs.Actor.Sound

/-!
# What built-in functions do

A built-in function works on the heap and, if it succeeds, may leave a request to the scheduler;
it does nothing else to the actor that calls it. Its arguments are on the stack of the actor, so
every collection that it causes spares them.

* `run_spec`: this, for every built-in function.
-/

namespace ActorMachine.Builtin

open Actor (Action onHeap prepareHeap)

variable {p : Actor} {args : Array Value} {r : HeapRef}

/-! ### Functions on buffers -/

/-- A size that is given as an integer is one that a capacity can grow to. -/
theorem le_maxWord_of_sizeOf {position : Nat} {what : String} {size : Nat}
    (h : (do sizeOf (← intArg args position) what) = .ok size) : size ≤ Capacity.maxWord := by
  obtain ⟨i, -, hsize⟩ := except_bind_eq_ok_iff.1 h
  rw [sizeOf] at hsize
  split at hsize
  · cases hsize
  · obtain rfl := Except.ok.inj hsize
    have hlt := i.toInt_lt
    simp only [Capacity.maxWord]
    omega

/-- Looking at a header changes nothing. -/
theorem upholds_headerOf {inv : Actor → Prop} (r : HeapRef) :
    Upholds inv (headerOf r) fun _ => True :=
  upholds_get_bind fun _ _ => upholds_ofExcept fun _ _ => trivial

/-- Nor does checking a position. -/
theorem upholds_positionIn {inv : Actor → Prop} (r : HeapRef) (i : Int64) :
    Upholds inv (positionIn r i) fun _ => True := by
  refine (upholds_headerOf r).bind fun header _ => ?_
  split
  next => exact upholds_pure trivial
  next => exact upholds_throw _

theorem works_makeBuffer (hp : p.Sound) (args : Array Value) :
    p.Works (makeBuffer args) fun v heap => heap.Backs v := by
  refine Actor.works_look hp _ fun capacity _ => ?_
  refine (Actor.works_prepareHeap hp _).bind fun _ heap hq _ => ?_
  refine (Actor.works_onHeap hq (Heap.safeAt_allocBuffer hq.heap capacity)).bind ?_
  exact fun s heap' hq' hs => Actor.works_pure hq' hs

/-- The header of a buffer is looked up before anything changes. -/
theorem works_headerOf {β : Type} {f : BufferHeader → Action β} {post : β → Heap → Prop}
    (hp : p.Sound) (r : HeapRef) (hf : ∀ header, p.Works (f header) post) :
    p.Works (headerOf r >>= f) post :=
  Actor.works_look hp (p.heap.header r) fun header _ => hf header

/-- A position is checked before anything changes. -/
theorem works_positionIn {β : Type} {f : Nat → Action β} {post : β → Heap → Prop} (hp : p.Sound)
    (r : HeapRef) (i : Int64) (hf : ∀ position, p.Works (f position) post) :
    p.Works (positionIn r i >>= f) post := by
  rw [positionIn, bind_assoc]
  refine works_headerOf hp r fun header => ?_
  split
  next => exact hf i.toInt.toNat
  next => exact ⟨p.heap, rfl, hp⟩

/-- Making room is followed by an action on the heap; neither answers anything. -/
theorem works_prepared {bytes : Nat} {due : Prop} [Decidable due] {act : Heap.Action Unit}
    (hp : p.Sound) (hact : ∀ h : Heap, h.Sound → h.SafeAt act fun _ _ => True) :
    p.Works (do
      if due then prepareHeap bytes
      onHeap act
      return Value.nil) fun v heap => heap.Backs v := by
  -- Whether room was made or not, the action finds a sound heap.
  have hrest : ∀ q : Actor, q.Sound →
      q.Works (do onHeap act; return Value.nil) fun v heap => heap.Backs v := by
    intro q hq
    refine (Actor.works_onHeap hq (hact q.heap hq.heap)).bind ?_
    exact fun _ heap hq' _ => Actor.works_pure hq' trivial
  dsimp only
  split
  next => exact (Actor.works_prepareHeap hp bytes).bind fun _ heap hq _ => hrest _ hq
  next => exact hrest p hp

theorem works_raiseCapacity (hp : p.Sound) (args : Array Value) :
    p.Works (raiseCapacity args) fun v heap => heap.Backs v := by
  refine Actor.works_look hp _ fun r _ => ?_
  refine Actor.works_look hp _ fun capacity _ => ?_
  refine works_headerOf hp r fun header => ?_
  exact works_prepared hp fun h hs => Heap.safeAt_reserveBuffer hs r capacity

theorem works_cutCapacity (hp : p.Sound) (args : Array Value) :
    p.Works (cutCapacity args) fun v heap => heap.Backs v := by
  refine Actor.works_look hp _ fun r _ => ?_
  refine works_headerOf hp r fun header => ?_
  refine (Actor.works_prepareHeap hp _).bind fun _ heap hq _ => ?_
  refine (Actor.works_onHeap hq (Heap.safeAt_shrinkBuffer hq.heap r)).bind ?_
  exact fun _ heap' hq' _ => Actor.works_pure hq' trivial

theorem works_setSize (hp : p.Sound) (args : Array Value) :
    p.Works (setSize args) fun v heap => heap.Backs v := by
  refine Actor.works_look hp _ fun r _ => ?_
  refine Actor.works_look hp _ fun size _ => ?_
  refine works_headerOf hp r fun header => ?_
  exact works_prepared hp fun h hs => Heap.safeAt_resizeBuffer hs r size

theorem works_readByte (hp : p.Sound) (args : Array Value) :
    p.Works (readByte args) fun v heap => heap.Backs v := by
  refine Actor.works_look hp _ fun r _ => ?_
  refine Actor.works_look hp _ fun i _ => ?_
  refine works_positionIn hp r i fun position => ?_
  exact Actor.works_look hp _ fun byte _ => Actor.works_pure hp trivial

theorem works_writeByte (hp : p.Sound) (args : Array Value) :
    p.Works (writeByte args) fun v heap => heap.Backs v := by
  refine Actor.works_look hp _ fun r _ => ?_
  refine Actor.works_look hp _ fun i _ => ?_
  refine works_positionIn hp r i fun position => ?_
  refine Actor.works_look hp _ fun j _ => ?_
  refine (Actor.works_onHeap hp (Heap.safeAt_writeBuffer hp.heap r position _)).bind ?_
  exact fun _ heap hq _ => Actor.works_pure hq trivial

theorem works_readSize (hp : p.Sound) (args : Array Value) :
    p.Works (readSize args) fun v heap => heap.Backs v := by
  refine Actor.works_look hp _ fun r _ => ?_
  exact works_headerOf hp r fun header => Actor.works_pure hp trivial

theorem works_readCapacity (hp : p.Sound) (args : Array Value) :
    p.Works (readCapacity args) fun v heap => heap.Backs v := by
  refine Actor.works_look hp _ fun r _ => ?_
  exact works_headerOf hp r fun header => Actor.works_pure hp trivial

/-! ### All functions -/

/-- After a request has been left, its maker is the same but for the request. -/
def Serves (p : Actor) (act : Action Value) : Prop :=
  Ensures act p
    (fun v q => ∃ heap request, q = { p with heap, request } ∧
      ({ p with heap } : Actor).Sound ∧ heap.Backs v)
    (fun _ q => ∃ heap, q = { p with heap } ∧ q.Sound)

/-- What works on the heap and asks for nothing leaves the request as it was. -/
theorem serves_of_works {act : Action Value} (h : p.Works act fun v heap => heap.Backs v) :
    Serves p act := by
  refine Ensures.mono h ?_ (fun _ _ => id)
  rintro v _ ⟨heap, rfl, hq, hv⟩
  exact ⟨heap, p.request, rfl, hq, hv⟩

/-- An integer result refers to nothing. -/
theorem backs_intResult {i : Int} {v : Value} (h : intResult i = .ok v) (heap : Heap) :
    heap.Backs v := by
  rw [intResult] at h
  split at h
  next =>
    obtain rfl := Except.ok.inj h
    trivial
  next => cases h

theorem serves_askSleep (hp : p.Sound) (args : Array Value) : Serves p (askSleep args) := by
  rw [Serves, askSleep, ensures_bind, ensures_ofExcept]
  exact ⟨fun i _ => ⟨p.heap, _, rfl, hp, trivial⟩, fun _ _ => ⟨p.heap, rfl, hp⟩⟩

/-- Capturing one value after the other changes nothing. -/
theorem ensures_captureAll {ok : List Payload → Actor → Prop} {fail : Fault → Actor → Prop}
    (vs : List Value) (hok : ∀ payloads, ok payloads p) (hfail : ∀ fault, fail fault p) :
    Ensures (vs.mapM fun v => do ofExcept (Payload.capture (← get).heap v) : Action (List Payload))
      p ok fail := by
  induction vs generalizing ok with
  | nil => exact hok []
  | cons v vs ih =>
    rw [List.mapM_cons, ensures_bind, ensures_bind, ensures_get, ensures_ofExcept]
    refine ⟨fun payload _ => ?_, fun fault _ => hfail fault⟩
    rw [ensures_bind]
    exact ih fun payloads => hok (payload :: payloads)

theorem serves_askNewActor (hp : p.Sound) (args : Array Value) : Serves p (askNewActor args) := by
  rw [Serves, askNewActor]
  split
  next => exact ⟨p.heap, rfl, hp⟩
  next callee rest _ =>
    rw [ensures_bind, ensures_get, ensures_bind, ensures_ofExcept]
    refine ⟨fun payload _ => ?_, fun _ _ => ⟨p.heap, rfl, hp⟩⟩
    rw [ensures_bind]
    refine ensures_captureAll rest (fun payloads => ?_) (fun _ => ⟨p.heap, rfl, hp⟩)
    exact ⟨p.heap, _, rfl, hp, trivial⟩

/-- Arithmetic works on two integers and gives one, or fails. -/
theorem serves_arithmetic (hp : p.Sound) (args : Array Value) (f : Int → Int → Int) :
    Serves p (ofExcept do
      let i ← intArg args 0
      let j ← intArg args 1
      intResult (f i.toInt j.toInt)) := by
  rw [Serves, ensures_ofExcept]
  refine ⟨fun v hv => ⟨p.heap, p.request, rfl, hp, ?_⟩, fun _ _ => ⟨p.heap, rfl, hp⟩⟩
  cases hi : intArg args 0 <;> rw [hi] at hv
  · cases hv
  · cases hj : intArg args 1 <;> rw [hj] at hv
    · cases hv
    · exact backs_intResult hv p.heap

/-- A built-in function works on the heap of its caller and at most leaves a request; if it fails
not even that. Its result is backed. -/
theorem run_spec (hp : p.Sound) (builtin : Builtin) (args : Array Value) :
    Serves p (builtin.run args) := by
  have hconst : ∀ v, p.heap.Backs v → Serves p (pure v : Action Value) :=
    fun v hv => serves_of_works (Actor.works_pure hp hv)
  -- Only the functions on buffers touch the heap, and only three functions leave a request.
  cases builtin with
  | constantNil => exact hconst .nil trivial
  | bufferNew => exact serves_of_works (works_makeBuffer hp args)
  | bufferReserve => exact serves_of_works (works_raiseCapacity hp args)
  | bufferShrinkToFit => exact serves_of_works (works_cutCapacity hp args)
  | bufferResize => exact serves_of_works (works_setSize hp args)
  | bufferGet => exact serves_of_works (works_readByte hp args)
  | bufferSet => exact serves_of_works (works_writeByte hp args)
  | bufferSize => exact serves_of_works (works_readSize hp args)
  | bufferCapacity => exact serves_of_works (works_readCapacity hp args)
  | self => exact hconst (.pid p.pid) trivial
  | yieldNow => exact ⟨p.heap, _, rfl, hp, trivial⟩
  | sleep => exact serves_askSleep hp args
  | spawnActor => exact serves_askNewActor hp args
  | isNil | isBool | isInteger | isReal | isPid => exact hconst (.bool _) trivial
  | eq => exact hconst (.bool _) trivial
  | lt =>
    rw [Serves, run, ensures_map, ensures_ofExcept]
    exact ⟨fun b _ => ⟨p.heap, p.request, rfl, hp, trivial⟩, fun _ _ => ⟨p.heap, rfl, hp⟩⟩
  | add => exact serves_arithmetic hp args (· + ·)
  | sub => exact serves_arithmetic hp args (· - ·)

end ActorMachine.Builtin
