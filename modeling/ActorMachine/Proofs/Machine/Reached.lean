import ActorMachine.Proofs.Machine.Step

/-!
# Every state that an actor reaches

An actor that was started goes on by instructions and by what its surroundings do to it, in any
order (`Operation`). `steady_of_reached` carries the invariant along every such run, and
`intact_of_reached` says what it means: no reference that a program can hold dangles.
-/

namespace ActorMachine.Machine

open Actor (Action onStack)

variable {p q : Actor} {config : ActorConfig}

/-- What can happen to an actor that was started. -/
inductive Operation
  /-- Its next instruction is executed. -/
  | step (loader : Loader) (now : Time)
  /-- A message is delivered to it. -/
  | deliver (payload : Payload)
  /-- A fault unwinds its calls. -/
  | unwind (fault : Fault)
  /-- A fault becomes the result of the guarded native that has just returned. -/
  | failProtectedCall (fault : Fault)
  /-- Its garbage is collected. -/
  | collectGarbage
  /-- The pid of an actor that it has asked for takes the place of its top value. -/
  | answer (child : Pid)
  /-- The scheduler notes where it stands and what it waits for. -/
  | stand (state : ActorState) (wait : Option Wait)

namespace Operation

/-- What an operation does. -/
def run : Operation → Action (Option Outcome)
  | step loader now => Machine.step loader now
  | deliver payload => do Actor.deliver payload; return none
  | unwind fault => do Actor.unwind fault; return none
  | failProtectedCall fault => do Actor.failProtectedCall fault; return none
  | collectGarbage => do discard Actor.collectGarbage; return none
  | answer child => do onStack (Stack.setAt (-1) (.pid child)); return none
  | stand state wait => do modify fun p => { p with state, wait }; return none

/-- The actor after an operation, whether that has failed or not. -/
def after (op : Operation) (p : Actor) : Actor :=
  match op.run p with
  | .ok _ q => q
  | .error _ q => q

/-- What an operation ensures in both cases holds afterwards. -/
theorem after_of_ensures {op : Operation} {post : Actor → Prop}
    (h : Ensures op.run p (fun _ q => post q) fun _ q => post q) : post (op.after p) := by
  rw [after]
  cases hrun : op.run p with
  | ok o q => exact h.of_ok hrun
  | error fault q => exact h.of_error hrun

end Operation

/-- The states of actors with some settings that were started and then went on by operations in any
order. -/
inductive Reached (config : ActorConfig) : Actor → Prop
  /-- The actor has just been started. -/
  | start {pid : Pid} {callee : Payload} {args : List Payload} {p : Actor}
      (started : Actor.start callee args (.create pid config) = .ok () p) : Reached config p
  /-- Something has happened to it. -/
  | next {p : Actor} (op : Operation) (before : Reached config p) : Reached config (op.after p)

/-- An actor after the attempt to start it under the pid 1. -/
def started (config : ActorConfig) (callee : Payload) (args : List Payload) : Actor :=
  match Actor.start callee args (.create ⟨1⟩ config) with
  | .ok _ p | .error _ p => p

/-- The attempt to start an actor succeeds. -/
def starts (config : ActorConfig) (callee : Payload) (args : List Payload) : Bool :=
  match Actor.start callee args (.create ⟨1⟩ config) with
  | .ok _ _ => true
  | .error _ _ => false

theorem reached_started {callee : Payload} {args : List Payload}
    (h : starts config callee args = true) : Reached config (started config callee args) := by
  cases hstart : Actor.start callee args (.create ⟨1⟩ config) with
  | ok _ p =>
    rw [started, hstart]
    exact .start hstart
  | error fault p =>
    rw [starts, hstart] at h
    cases h

/-- An actor after some instructions. -/
def stepped (loader : Loader) (now : Time) (p : Actor) : Nat → Actor
  | 0 => p
  | n + 1 => (Operation.step loader now).after (stepped loader now p n)

theorem reached_stepped (h : Reached config p) (loader : Loader) (now : Time) (n : Nat) :
    Reached config (stepped loader now p n) := by
  induction n with
  | zero => exact h
  | succ n ih => exact .next _ ih

/-- An instruction that fails leaves the next state. -/
theorem step_eq_error {fault : Fault}
    (h : (match step loader now p with | .error fault' _ => fault' == fault | _ => false) = true) :
    step loader now p = .error fault ((Operation.step loader now).after p) := by
  rw [Operation.after, Operation.run]
  split at h
  next hstep => rw [hstep, eq_of_beq h]
  next => cases h

/-! ### The invariant along a run -/

/-- An actor that has been started is steady. -/
theorem steady_start {pid : Pid} {callee : Payload} {args : List Payload}
    (h : Actor.start callee args (.create pid config) = .ok () p) : Steady p := by
  obtain ⟨hp, -, hrequest, f, hframes, hguarded, hslot⟩ :=
    (Actor.start_spec (Actor.sound_create pid config) callee args).of_ok h
  refine ⟨hp, hrequest, fun g hg => ?_⟩
  rw [hframes, List.mem_singleton] at hg
  subst hg
  rw [hguarded]
  exact hslot

/-- A report is made by a steady actor. -/
theorem Steady.of_reports {fault : Fault} (hp : Steady p) (h : Actor.Reports fault p q) :
    Steady q :=
  hp.of_keeps (h.keeps (Nat.zero_le _))

/-- Every call that is guarded has room for two results. -/
theorem Steady.room_guarded (hp : Steady p) :
    ∀ f ∈ p.frames, f.guarded = true → f.calleeSlot + 2 ≤ p.stack.capacity := by
  intro f hf hguarded
  have hroom := hp.room f hf
  rwa [hguarded] at hroom

/-- The innermost calls may end. -/
theorem Steady.drop (hp : Steady p) {inner : List Frame} {f : Frame} {outer : List Frame}
    (hframes : p.frames = inner ++ f :: outer) (n : Nat) :
    Steady { p with
      stack := p.stack.truncate n
      frames := outer
      receiveDeadline := none } :=
  ⟨(hp.sound.truncate n).congr rfl rfl rfl, hp.request, fun g hg =>
    hp.room g (by simp [hframes, hg])⟩

/-- Every operation leaves the actor steady. -/
theorem steady_after (hp : Steady p) (op : Operation) : Steady (op.after p) := by
  -- An operation that fails leaves an actor too, so both ends are looked at.
  refine Operation.after_of_ensures ?_
  cases op with
  | step loader now => exact steady_step hp loader now
  | deliver payload =>
    rw [Operation.run, ensures_bind]
    refine Ensures.mono (Actor.deliver_spec hp.sound payload) ?_ ?_
    · rintro _ _ ⟨heap, v, rfl, hq⟩
      exact ⟨hq, hp.request, hp.room⟩
    · rintro _ _ ⟨heap, rfl, hq⟩
      exact ⟨hq, hp.request, hp.room⟩
  | unwind fault =>
    rw [Operation.run, ensures_bind]
    refine Ensures.mono (Actor.unwind_spec hp.sound hp.room_guarded fault) ?_ ?_
    · rintro _ q ⟨inner, f, outer, hframes, -, -, hreports⟩
      exact (hp.drop hframes f.calleeSlot).of_reports hreports
    · rintro _ _ ⟨-, rfl, -⟩
      exact hp
  | failProtectedCall fault =>
    rw [Operation.run, ensures_bind]
    refine Ensures.mono (Actor.failProtectedCall_spec hp.sound fault) ?_ ?_
    · rintro _ q ⟨-, hreports⟩
      exact Steady.of_reports ⟨hp.sound.truncate _, hp.request, hp.room⟩ hreports
    · rintro _ _ ⟨rfl, -⟩
      exact hp
  | collectGarbage =>
    rw [Operation.run, ensures_bind, ensures_discard, Actor.ensures_collectGarbage]
    exact ⟨Actor.sound_collectGarbage hp.sound, hp.request, hp.room⟩
  | answer child =>
    rw [Operation.run, ensures_bind, Actor.ensures_onStack, Stack.ensures_setAt]
    refine ⟨fun n _ => ?_, fun _ _ => hp⟩
    have hset := confines_setSlot (v := .pid child) hp.sound trivial (Nat.le_refl n)
    rw [Confines, Actor.ensures_onStack] at hset
    exact Ensures.mono hset (fun _ _ h => hp.of_keeps h.1) (fun _ _ h => hp.of_keeps h)
  | stand state wait =>
    exact ⟨hp.sound.congr rfl rfl rfl, hp.request, hp.room⟩

/-- Every state that an actor reaches is steady. -/
theorem steady_of_reached (h : Reached config p) : Steady p := by
  induction h with
  | start hstart => exact steady_start hstart
  | next op _ ih => exact steady_after ih op

/-! ### No reference dangles -/

/-- The value that the last call returns can leave the heap. -/
theorem backs_exit {loader : Loader} {now : Time} {v : Value} (hp : Steady p)
    (h : step loader now p = .ok (some (.exit v)) q) : q.Sound ∧ q.heap.Backs v := by
  have heffect := (step_spec hp loader now).of_ok h
  have hsteady := heffect.steady hp
  refine ⟨hsteady.sound, ?_⟩
  generalize ho : some (Outcome.exit v) = o at heffect
  -- Only an actor without a call and the last return come to an end.
  cases heffect with
  | idle =>
    obtain rfl := Outcome.exit.inj (Option.some.inj ho)
    trivial
  | stays _ _ _ hplain => exact absurd ho.symm (hplain.exit v)
  | calls _ _ hinv =>
    cases hinv with
    | completed _ _ _ hminds => exact absurd ho.symm (hminds.exit v)
    | entered => cases ho
  | returns => cases ho
  | ends _ _ _ hresult =>
    obtain rfl := Outcome.exit.inj (Option.some.inj ho)
    exact hresult

/-- Every reference that a program can hold is good. -/
structure Intact (p : Actor) : Prop where
  /-- A reference on the stack, in the mailbox or captured by a closure reaches an object of the
  kind that it is tagged with. -/
  references : ∀ r : HeapRef,
    (.ref r ∈ p.roots ∨ ∃ handle routine upvalues,
      p.heap.lookup? handle = some (.closure routine upvalues) ∧ .ref r ∈ upvalues) →
    ∃ object, p.heap.deref r = .ok object ∧ object.kind = r.kind
  /-- The storage of a buffer is a fixed buffer of exactly its capacity. -/
  storage : ∀ handle header, p.heap.lookup? handle = some (.buffer header) →
    ∃ bytes, p.heap.region header.storage = .ok bytes ∧ bytes.size = header.capacity
  /-- It is the storage of no other buffer. -/
  unshared : ∀ handle header other header', p.heap.lookup? handle = some (.buffer header) →
    p.heap.lookup? other = some (.buffer header') → header.storage = header'.storage →
    handle = other
  /-- What is on the stack or in the mailbox can be captured. -/
  capture : ∀ v ∈ p.roots, ∃ payload, Payload.capture p.heap v = .ok payload
  /-- So can the value that the actor ends with. -/
  exit : ∀ loader now v q, step loader now p = .ok (some (.exit v)) q →
    ∃ payload, Payload.capture q.heap v = .ok payload

/-- No reference dangles in any state that an actor reaches. -/
theorem intact_of_reached {config : ActorConfig} {p : Actor} (h : Reached config p) :
    Intact p where
  references := by
    have hp := (steady_of_reached h).sound
    rintro r (hroot | ⟨handle, routine, upvalues, hlook, hmem⟩)
    · exact (hp.roots _ hroot).deref
    · exact (hp.heap.upvalues hlook _ hmem).deref
  storage := by
    intro handle header hlook
    obtain ⟨bytes, hbytes, hsize⟩ := (steady_of_reached h).sound.heap.storage hlook
    exact ⟨bytes, Heap.region_eq_ok_iff.2 hbytes, hsize⟩
  unshared _ _ _ _ := (steady_of_reached h).sound.heap.unshared
  capture v hv := by
    have hp := (steady_of_reached h).sound
    exact Payload.exists_capture hp.heap (hp.roots v hv)
  exit loader now v q hstep := by
    obtain ⟨hq, hv⟩ := backs_exit (steady_of_reached h) hstep
    exact Payload.exists_capture hq.heap hv

/-- A function that puts its argument on the stack and returns it. It declares an upvalue. -/
def keeper : Routine :=
  .loose { Prototype.blank with upvalues := 1, arguments := 1, code := #[.loadLocal 0, .ret] }

/-- After an instruction and a collection a closure, a string and two references to a buffer are
there. -/
theorem intact_keeper :
    let p := started {} (.closure keeper [.string "a"]) [.buffer ⟨#[1, 2]⟩]
    let q := Operation.collectGarbage.after ((Operation.step .standard 0).after p)
    (q.roots.filterMap Value.heapRef?).length = 4 ∧ Intact q := by
  intro p q
  have hreached : Reached {} p := reached_started (by decide +kernel)
  exact ⟨by decide +kernel, intact_of_reached (.next _ (.next _ hreached))⟩

end ActorMachine.Machine
