import ActorMachine.Proofs.Machine.Invoke

/-!
# What one instruction does

* `Steady`: the invariant of an actor between two instructions. It is sound, asks for nothing, and
  every call in progress has room for its results at its callee.
* `Effect`: the four things that an instruction can do when it does not fail: stay in its call, make
  a call, return from one, or find that there is none.
* `step_spec`: it does one of them, or it fails inside its call.
* `steady_step`: in every case the actor is steady again.
-/

namespace ActorMachine.Machine

open Actor (Keeps)

variable {p q : Actor} {n : Nat} {loader : Loader} {now : Time} {f : Frame} {outer : List Frame}

/-! ### Returns -/

/-- The result of a return is one of the values on the stack, or nil. -/
theorem backs_top (hp : p.Sound) (above : Prop) [Decidable above] :
    p.heap.Backs (if above then p.stack.top?.getD .nil else .nil) := by
  split
  next =>
    cases htop : p.stack.top? with
    | none => trivial
    | some v =>
      refine hp.stack v ?_
      simpa [Stack.toList] using Array.mem_of_back? htop
  next => trivial

/-- A return ends its call and leaves the results in the slot of the callee. If that slot is gone,
they go on top of what is left. The last return ends the actor. -/
theorem returnFrom_spec (hp : p.Sound) (hframes : p.frames.tail = outer)
    (hroom : f.calleeSlot + resultSlots f.guarded ≤ p.stack.capacity) :
    Ensures (returnFrom f) p
      (fun o q => ∃ stack v, q = { p with frames := outer, stack } ∧ q.Sound ∧
        p.stack.capacity ≤ stack.capacity ∧ p.heap.Backs v ∧
        ((outer = [] ∧ o = some (.exit v) ∧
            stack.toList = p.stack.toList.take f.calleeSlot ++ [v]) ∨
          (outer ≠ [] ∧ o = none ∧
            stack.toList = p.stack.toList.take f.calleeSlot ++ results f.guarded v)))
      (fun _ _ => False) := by
  have hsize : (p.stack.truncate f.calleeSlot).size ≤ f.calleeSlot := by
    rw [Stack.size_truncate]
    exact Nat.min_le_left _ _
  have hlow : (p.stack.truncate f.calleeSlot).toList = p.stack.toList.take f.calleeSlot :=
    Stack.toList_truncate _ _
  have hshort : ({ p with frames := outer, stack := p.stack.truncate f.calleeSlot } :
      Actor).Sound :=
    (hp.truncate f.calleeSlot).congr rfl rfl rfl
  -- The result is looked at before the stack is cut; it refers to the heap, which stays.
  have hv := backs_top hp (f.base + f.routine.prototype.frameSize < p.stack.size)
  rw [returnFrom, ensures_bind, ensures_get]
  dsimp only
  rw [ensures_bind, ensures_get, ensures_bind, ensures_modify, hframes]
  by_cases hlast : outer = []
  · subst hlast
    rw [List.isEmpty_nil, if_pos rfl, ensures_bind]
    refine Ensures.mono (Actor.push_room hshort hv ?_) ?_ (fun _ _ => id)
    · show (p.stack.truncate f.calleeSlot).size < p.stack.capacity
      have hone : 1 ≤ resultSlots f.guarded := by
        cases f.guarded <;> decide
      omega
    · rintro _ _ ⟨stack, rfl, hstack, hcap, hq⟩
      exact ⟨stack, _, rfl, hq, hcap, hv, .inl ⟨rfl, rfl, hlow ▸ hstack⟩⟩
  · have hmore : outer.isEmpty = false := by
      simpa using hlast
    rw [hmore, if_neg (by decide)]
    refine ensures_pushResults hshort hv f.guarded ?_ ?_
    · show (p.stack.truncate f.calleeSlot).size + resultSlots f.guarded ≤ p.stack.capacity
      omega
    · rintro _ ⟨stack, rfl, hstack, hcap, hq⟩
      exact ⟨stack, _, rfl, hq, hcap, hv, .inr ⟨hlast, rfl, hlow ▸ hstack⟩⟩

/-! ### Instructions -/

/-- Number of lowest values on the stack that are no operands of the next instruction. Running off
the end of the code counts as a return, which has none. -/
def stepFloor (p : Actor) : Nat :=
  match p.frames with
  | f :: _ => operandFloor f p.stack.size (f.routine.prototype.code[f.ip]?.getD .ret)
  | [] => p.stack.size

theorem stepFloor_le (p : Actor) : stepFloor p ≤ p.stack.size := by
  rw [stepFloor]
  split
  next => exact operandFloor_le _ _ _
  next => exact Nat.le_refl _

/-- The next instruction of `p` is a call, and the call that it comes to is one of `n` arguments
made by `q`. -/
def Invokes (loader : Loader) (p : Actor) (n : Nat) (guarded : Bool) (q : Actor) : Prop :=
  ∃ f outer nargs, p.frames = f :: outer ∧
    f.routine.prototype.code[f.ip]? = some (.call nargs) ∧
    Reduces loader nargs.toNat false (p.atIp (f.ip + 1)) n guarded q

/-- What an instruction that does not fail has done. -/
inductive Effect (loader : Loader) (p : Actor) : Option Outcome → Actor → Prop
  /-- There was no call. -/
  | idle (none : p.frames = []) : Effect loader p (some (.exit .nil)) p
  /-- It has stayed in its call. -/
  | stays {o : Option Outcome} {q : Actor} (ip : Nat) (some : p.frames ≠ [])
      (keeps : Keeps (stepFloor p) (p.atIp ip) q) (plain : Plain o) : Effect loader p o q
  /-- It was a call. -/
  | calls {o : Option Outcome} {q : Actor} {f : Frame} {outer : List Frame} {nargs : UInt32}
      (frames : p.frames = f :: outer)
      (code : f.routine.prototype.code[f.ip]? = .some (.call nargs))
      (invocation : Invocation loader nargs.toNat false (p.atIp (f.ip + 1)) o q) :
      Effect loader p o q
  /-- It was a return from a call that was not the last. -/
  | returns {f : Frame} {outer : List Frame} {stack : Stack} {v : Value}
      (frames : p.frames = f :: outer) (last : outer ≠ [])
      (sound : ({ p with frames := outer, stack } : Actor).Sound)
      (capacity : p.stack.capacity ≤ stack.capacity)
      (values : stack.toList = p.stack.toList.take f.calleeSlot ++ results f.guarded v) :
      Effect loader p none { p with frames := outer, stack }
  /-- It was a return from the last call. -/
  | ends {f : Frame} {stack : Stack} {v : Value} (frames : p.frames = [f])
      (sound : ({ p with frames := [], stack } : Actor).Sound)
      (capacity : p.stack.capacity ≤ stack.capacity)
      (result : p.heap.Backs v)
      (values : stack.toList = p.stack.toList.take f.calleeSlot ++ [v]) :
      Effect loader p (some (.exit v)) { p with frames := [], stack }

/-- The invariant of an actor between two instructions. -/
structure Steady (p : Actor) : Prop where
  /-- It is sound. -/
  sound : p.Sound
  /-- It asks for nothing. -/
  request : p.request = none
  /-- Every call has room for its results at its callee. -/
  room : ∀ f ∈ p.frames, f.calleeSlot + resultSlots f.guarded ≤ p.stack.capacity

/-- What happens inside a call keeps an actor steady. -/
theorem Steady.of_keeps (hp : Steady p) (h : Keeps n p q) : Steady q := by
  refine ⟨h.sound, h.request.trans hp.request, fun f hf => ?_⟩
  rw [h.frames] at hf
  exact Nat.le_trans (hp.room f hf) h.capacity

theorem Steady.atIp (hp : Steady p) (ip : Nat) : Steady (p.atIp ip) := by
  have hsound := hp.sound.atIp ip
  rw [Actor.atIp] at hsound ⊢
  cases hframes : p.frames with
  | nil => exact hp
  | cons f outer =>
    rw [hframes] at hsound
    have hroom := hp.room
    rw [hframes, List.forall_mem_cons] at hroom
    exact ⟨hsound, hp.request, List.forall_mem_cons.2 hroom⟩

/-- A return does what the rules of returns say. -/
theorem returnFrom_effect (hp : Steady p) (hframes : p.frames = f :: outer) (ip : Nat) :
    Ensures (returnFrom f) (p.atIp ip) (fun o q => Effect loader p o q) (fun _ _ => False) := by
  have hat := Actor.atIp_of_frames hframes ip
  have hroom : f.calleeSlot + resultSlots f.guarded ≤ p.stack.capacity :=
    hp.room f (by simp [hframes])
  have hq := (hp.atIp ip).sound
  rw [hat] at hq ⊢
  refine Ensures.mono (returnFrom_spec hq rfl hroom) ?_ (fun _ _ => id)
  rintro o _ ⟨stack, v, rfl, hr, hcap, hv, ⟨rfl, rfl, hvalues⟩ | ⟨hmore, rfl, hvalues⟩⟩
  · exact .ends hframes hr hcap hv hvalues
  · exact .returns hframes hmore hr hcap hvalues

/-- The instruction pointer moves on, and then the instruction is executed. -/
theorem step_eq_execute {f : Frame} {outer : List Frame} {i : Instruction}
    (hframes : p.frames = f :: outer) (hcode : f.routine.prototype.code[f.ip]? = some i)
    (loader : Loader) (now : Time) :
    step loader now p = execute loader now f f.ip i (p.atIp (f.ip + 1)) := by
  have hset : setIp (f.ip + 1) p = .ok () (p.atIp (f.ip + 1)) := rfl
  simp only [step, bind, EStateM.bind, get, getThe, MonadStateOf.get, estateM_get, hframes, hset,
    hcode]

/-- Past the end of the code there is a return. -/
theorem step_eq_returnFrom {f : Frame} {outer : List Frame} (hframes : p.frames = f :: outer)
    (hcode : f.routine.prototype.code[f.ip]? = none) (loader : Loader) (now : Time) :
    step loader now p = returnFrom f (p.atIp (f.ip + 1)) := by
  have hset : setIp (f.ip + 1) p = .ok () (p.atIp (f.ip + 1)) := rfl
  simp only [step, bind, EStateM.bind, get, getThe, MonadStateOf.get, estateM_get, hframes, hset,
    hcode]

/-- The next instruction does what it can do, or it fails inside its call. -/
theorem step_spec (hp : Steady p) (loader : Loader) (now : Time) :
    Ensures (step loader now) p (fun o q => Effect loader p o q)
      (fun _ q => ∃ ip, Keeps (stepFloor p) (p.atIp ip) q) := by
  rw [step, ensures_bind, ensures_get]
  cases hframes : p.frames with
  | nil => exact .idle hframes
  | cons f outer =>
    have hq := hp.atIp (f.ip + 1)
    have hfloor : stepFloor p =
        operandFloor f p.stack.size (f.routine.prototype.code[f.ip]?.getD .ret) := by
      rw [stepFloor, hframes]
    have hset : setIp (f.ip + 1) = modify fun p => p.atIp (f.ip + 1) := rfl
    dsimp only
    rw [hset, ensures_bind, ensures_modify]
    -- Past the end of the code there is a return; calls and returns have rules of their own.
    cases hcode : f.routine.prototype.code[f.ip]? with
    | none =>
      exact Ensures.mono (returnFrom_effect hp hframes _) (fun _ _ => id) (fun _ _ => False.elim)
    | some i =>
      rw [hcode, Option.getD_some, ← Actor.stack_atIp p (f.ip + 1)] at hfloor
      by_cases hcall : ∃ nargs, i = .call nargs
      · obtain ⟨nargs, rfl⟩ := hcall
        refine Ensures.mono (invoke_spec hq.sound hq.request loader now nargs.toNat false
          (fun h => nomatch h)) ?_ ?_
        · exact fun o q h => .calls hframes hcode h
        · intro _ q h
          exact ⟨f.ip + 1, by rwa [hfloor]⟩
      · by_cases hret : i = .ret
        · subst hret
          exact Ensures.mono (returnFrom_effect hp hframes _) (fun _ _ => id)
            (fun _ _ => False.elim)
        · have hplain := execute_spec hq.sound loader now f f.ip
            (fun nargs h => hcall ⟨nargs, h⟩) hret
          rw [← hfloor] at hplain
          refine Ensures.mono hplain ?_ ?_
          · rintro o q ⟨⟨ip, hkeeps⟩, hplain⟩
            rw [Actor.atIp_atIp] at hkeeps
            exact .stays ip (by simp [hframes]) hkeeps hplain
          · exact fun _ q hkeeps => ⟨f.ip + 1, hkeeps⟩

/-- What an instruction does leaves the actor steady. -/
theorem Effect.steady {o : Option Outcome} (hp : Steady p) (h : Effect loader p o q) :
    Steady q := by
  cases h with
  | idle => exact hp
  | stays ip _ hkeeps => exact (hp.atIp ip).of_keeps hkeeps
  | @calls _ _ f outer nargs hframes hcode hinv =>
    have hat := hp.atIp (f.ip + 1)
    cases hinv with
    | completed _ hkeeps => exact hat.of_keeps hkeeps
    | entered routine _ hkeeps hroom =>
      refine ⟨hkeeps.sound, hkeeps.request.trans hat.request, fun g hg => ?_⟩
      rw [hkeeps.frames] at hg
      rcases List.mem_cons.1 hg with rfl | hg
      · exact hroom
      · exact Nat.le_trans (hat.room g hg) hkeeps.capacity
  | returns hframes _ hsound hcap =>
    exact ⟨hsound, hp.request, fun g hg =>
      Nat.le_trans (hp.room g (by simp [hframes, hg])) hcap⟩
  | ends hframes hsound hcap => exact ⟨hsound, hp.request, fun g hg => nomatch hg⟩

/-- An instruction leaves the actor steady, whether it fails or not. -/
theorem steady_step (hp : Steady p) (loader : Loader) (now : Time) :
    Ensures (step loader now) p (fun _ q => Steady q) (fun _ q => Steady q) := by
  refine Ensures.mono (step_spec hp loader now) ?_ ?_
  · exact fun o q h => h.steady hp
  · rintro _ q ⟨ip, hkeeps⟩
    exact (hp.atIp ip).of_keeps hkeeps

/-- An instruction that does not fail does not trap. -/
theorem step_ne_trap (hp : Steady p) {fault : Fault} :
    step loader now p ≠ .ok (some (.trap fault)) q := by
  intro h
  have heffect := (step_spec hp loader now).of_ok h
  generalize ho : some (Outcome.trap fault) = o at heffect
  cases heffect with
  | idle | returns | ends => cases ho
  | stays _ _ _ hplain => exact hplain.trap fault ho.symm
  | calls _ _ hinv =>
    cases hinv with
    | completed _ _ _ hminds => exact hminds.trap fault ho.symm
    | entered => cases ho

end ActorMachine.Machine
