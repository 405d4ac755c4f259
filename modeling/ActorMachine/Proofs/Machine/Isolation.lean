import ActorMachine.Proofs.Machine.Frames

/-!
# How far a call is isolated from its caller

Operands are looked for on the whole stack, so code that is called can take or overwrite values of
its callers, and a call that has come to its end leaves its results on what is left.

* `isolated_iff`: when control is back in the caller, the values below the callee are what they
  were and the results are in its slot exactly if the call has left those values alone; and it has
  if no operation meanwhile has had one of them as an operand.
* `not_isolated`: a call can do otherwise.
-/

namespace ActorMachine.Machine

variable {p p' q r : Actor} {config : ActorConfig} {loader : Loader} {now : Time}
  {nargs : UInt32} {guarded : Bool} {trace : List (Operation × Actor)}

/-- The next instruction of an actor. Running off the end of the code counts as a return. -/
def nextInstruction? (p : Actor) : Option Instruction :=
  p.frames.head?.map fun f => f.routine.prototype.code[f.ip]?.getD .ret

theorem nextInstruction?_eq {f : Frame} {outer : List Frame} {i : Instruction}
    (hframes : p.frames = f :: outer) (hcode : f.routine.prototype.code[f.ip]? = some i) :
    nextInstruction? p = some i := by
  rw [nextInstruction?, hframes, List.head?_cons, Option.map_some, hcode, Option.getD_some]

/-- The next instruction of `p` is a call, and the closure that it comes to has got a frame. -/
structure Calls (loader : Loader) (now : Time) (p : Actor) (nargs : UInt32) (guarded : Bool)
    (q : Actor) : Prop where
  /-- It is a call. -/
  instruction : nextInstruction? p = some (.call nargs)
  /-- It does not fail. -/
  step : step loader now p = .ok none q
  /-- There is a new call. -/
  depth : q.frames.length = p.frames.length + 1
  /-- It was made directly, or through a protected call and is guarded. -/
  guarded : q.frames.head?.map Frame.guarded = some guarded

/-- The values below a slot are what they were in `p`, and above them there are only the results of
a call. -/
def Isolated (slot : Nat) (guarded : Bool) (p q : Actor) : Prop :=
  q.stack.toList.take slot = p.stack.toList.take slot ∧
    q.stack.size = slot + resultSlots guarded

/-- The calls in progress above some callers, of which the lowest has its callee in `slot`. -/
def Above (callers : List Frame) (slot : Nat) (guarded : Bool) (inner : List Frame)
    (frames : List Frame) : Prop :=
  ∃ f, frames = inner ++ f :: callers ∧ f.calleeSlot = slot ∧ f.guarded = guarded

/-! ### The frames of a call in progress -/

section Above

variable {callers inner : List Frame} {slot : Nat}

/-- Where the instruction pointer is does not matter. -/
theorem Above.atIp (h : Above callers slot guarded inner p.frames) (ip : Nat) :
    ∃ inner', Above callers slot guarded inner' (p.atIp ip).frames ∧
      inner'.map Frame.calleeSlot = inner.map Frame.calleeSlot := by
  obtain ⟨f, hframes, hslot, hguarded⟩ := h
  cases inner with
  | nil =>
    refine ⟨[], ⟨{ f with ip }, ?_, hslot, hguarded⟩, rfl⟩
    simp [Actor.atIp, hframes]
  | cons g inner =>
    refine ⟨{ g with ip } :: inner, ⟨f, ?_, hslot, hguarded⟩, rfl⟩
    simp [Actor.atIp, hframes]

/-- The lowest of the calls above the callers stays the same as long as there is one. -/
theorem Moves.above {floor : Nat} (h : Moves floor p q) (hfloor : floor ≤ p.stack.size)
    (habove : Above callers slot guarded inner p.frames)
    (hinside : callers.length < q.frames.length) :
    ∃ inner', Above callers slot guarded inner' q.frames ∧
      (slot ≤ floor → (∀ n ∈ inner.map Frame.calleeSlot, slot ≤ n) →
        (∀ n ∈ inner'.map Frame.calleeSlot, slot ≤ n) ∧
          q.stack.toList.take slot = p.stack.toList.take slot) := by
  have hlower : ∀ {floor}, slot ≤ floor →
      q.stack.toList.take floor = p.stack.toList.take floor →
      q.stack.toList.take slot = p.stack.toList.take slot := by
    intro floor hle hbelow
    have htake := congrArg (List.take slot) hbelow
    rwa [List.take_take, List.take_take, Nat.min_eq_left hle] at htake
  cases h with
  | stays ip hq hbelow =>
    obtain ⟨inner', habove', hslots⟩ := habove.atIp ip
    exact ⟨inner', hq ▸ habove', fun hle hinner => ⟨hslots ▸ hinner, hlower hle hbelow⟩⟩
  | enters ip g hq _ hslot hbelow =>
    obtain ⟨inner', ⟨f, hframes, hf⟩, hslots⟩ := habove.atIp ip
    refine ⟨g :: inner', ⟨f, by rw [hq, hframes, List.cons_append], hf⟩, fun hle hinner => ?_⟩
    refine ⟨?_, hlower hle hbelow⟩
    rw [List.map_cons, List.forall_mem_cons, hslots]
    exact ⟨Nat.le_trans hle hslot, hinner⟩
  | leaves inner' g outer vs hbefore hq hvalues hlength =>
    obtain ⟨f, hframes, rfl, rfl⟩ := habove
    -- The calls that are left are the callers and at least the lowest call above them.
    have hsuffix : f :: callers <:+ outer := by
      refine List.suffix_of_suffix_length_le ⟨inner, hframes.symm⟩
        ⟨inner' ++ [g], by rw [hbefore, List.append_assoc]; rfl⟩ ?_
      rw [hq] at hinside
      rw [List.length_cons]
      omega
    obtain ⟨kept, rfl⟩ := hsuffix
    have hinner : inner = inner' ++ g :: kept := by
      rw [hframes, ← List.cons_append, ← List.append_assoc] at hbefore
      exact List.append_cancel_right hbefore
    refine ⟨kept, ⟨f, hq, rfl, rfl⟩, fun hle hslots => ?_⟩
    rw [hinner, List.map_append, List.forall_mem_append, List.map_cons, List.forall_mem_cons]
      at hslots
    obtain ⟨-, hg, hkept⟩ := hslots
    refine ⟨hkept, ?_⟩
    rw [hvalues, List.take_append_of_le_length, List.take_take, Nat.min_eq_left hg]
    rw [List.length_take, Stack.length_toList]
    omega

/-- A call that ends while its callers go on leaves its results in the slot of its callee, as far as
that is still there. -/
theorem Moves.back {floor : Nat} (h : Moves floor p q)
    (habove : Above callers slot guarded inner p.frames)
    (hback : q.frames.length = callers.length) :
    q.frames = callers ∧ ∃ vs, q.stack.toList = p.stack.toList.take slot ++ vs ∧
      (callers ≠ [] → vs.length = resultSlots guarded) := by
  -- Only what ends calls can have brought the depth back to that of the callers.
  have hmore : ∀ ip, callers.length < (p.atIp ip).frames.length := by
    intro ip
    obtain ⟨inner', ⟨f, hframes, -⟩, -⟩ := habove.atIp ip
    rw [hframes, List.length_append, List.length_cons]
    omega
  cases h with
  | stays ip hq =>
    have := hmore ip
    rw [hq] at hback
    omega
  | enters ip g hq =>
    have := hmore ip
    rw [hq, List.length_cons] at hback
    omega
  | leaves inner' g outer vs hbefore hq hvalues hlength =>
    obtain ⟨f, hframes, rfl, rfl⟩ := habove
    rw [hq] at hback ⊢
    rw [hframes] at hbefore
    obtain ⟨-, hsuffix⟩ := List.append_inj' hbefore (by simp [hback])
    obtain ⟨rfl, rfl⟩ := List.cons.inj hsuffix
    exact ⟨rfl, vs, hvalues, hlength⟩

end Above

/-! ### Calls -/

/-- A call lays its frame over those of the callers and keeps the values below its callee. -/
theorem Calls.spec (hp : Steady p) (h : Calls loader now p nargs guarded q) :
    Steady q ∧
      Above q.frames.tail (p.calleeSlot nargs.toNat) guarded [] q.frames ∧
      q.frames.tail ≠ [] ∧ q.frames.tail.length = p.frames.length ∧
      p.calleeSlot nargs.toNat ≤ p.stack.size ∧
      q.stack.toList.take (p.calleeSlot nargs.toNat) =
        p.stack.toList.take (p.calleeSlot nargs.toNat) := by
  have heffect := (step_spec hp loader now).of_ok h.step
  have hlength : q.frames.tail.length = p.frames.length := by
    rw [List.length_tail, h.depth, Nat.add_sub_cancel]
  have hsame : ∀ ip, (p.atIp ip).frames.length = p.frames.length := by
    intro ip
    cases hframes : p.frames <;> simp [Actor.atIp, hframes]
  have hdepth := h.depth
  refine ⟨heffect.steady hp, ?_⟩
  -- Of all that an instruction can do, only entering a closure adds a frame.
  cases heffect with
  | stays ip _ hkeeps =>
    rw [hkeeps.frames, hsame] at hdepth
    omega
  | @calls _ _ f outer nargs' hframes hcode hinv =>
    have hnext := (nextInstruction?_eq hframes hcode).symm.trans h.instruction
    obtain rfl := Instruction.call.inj (Option.some.inj hnext)
    have hslot : (p.atIp (f.ip + 1)).calleeSlot nargs'.toNat = p.calleeSlot nargs'.toNat := by
      rw [Actor.calleeSlot, Actor.stack_atIp, Actor.calleeSlot]
    cases hinv with
    | completed _ hkeeps =>
      rw [hkeeps.frames, hsame] at hdepth
      omega
    | entered routine _ hkeeps =>
      have hq := hkeeps.frames
      have hguarded := h.guarded
      rw [hq, List.head?_cons, Option.map_some] at hguarded
      have hbelow := hkeeps.below
      rw [hslot] at hbelow
      refine ⟨⟨_, by rw [hq]; rfl, hslot, Option.some.inj hguarded⟩, ?_, hlength, ?_, ?_⟩
      · rw [hq, List.tail_cons]
        simp [Actor.atIp, hframes]
      · rw [Actor.calleeSlot]
        omega
      · rw [hbelow]
        exact congrArg (fun s => List.take _ s.toList) (Actor.stack_atIp p _)
  | returns hframes =>
    have hq := h.depth
    rw [hframes] at hq
    simp only [List.length_cons] at hq
    omega

/-- While a call is in progress, its frame lies above those of its callers. If no operation has had
a value below its callee as an operand, those values are what they were. -/
theorem Run.above {callers : List Frame} {slot : Nat} (hp : Steady p)
    (h : Run callers.length p trace q) (habove : Above callers slot guarded [] p.frames) :
    Steady q ∧ ∃ inner, Above callers slot guarded inner q.frames ∧
      ((∀ step ∈ trace, slot ≤ step.1.floor step.2) →
        (∀ n ∈ inner.map Frame.calleeSlot, slot ≤ n) ∧
          q.stack.toList.take slot = p.stack.toList.take slot) := by
  -- The slots of the calls above the callers are carried along: ending one cuts the stack there.
  induction h with
  | refl => exact ⟨hp, [], habove, fun _ => ⟨by simp, rfl⟩⟩
  | @next trace q op _ hinside ih =>
    obtain ⟨hq, inner, hinner, hkept⟩ := ih
    have hmoves := moves_after hq op
    obtain ⟨inner', habove', hlow⟩ := hmoves.above (op.floor_le q) hinner hinside
    refine ⟨steady_after hq op, inner', habove', fun hfloors => ?_⟩
    rw [List.forall_mem_cons] at hfloors
    obtain ⟨hslots, hbelow⟩ := hkept hfloors.2
    obtain ⟨hslots', hbelow'⟩ := hlow hfloors.1 hslots
    exact ⟨hslots', hbelow'.trans hbelow⟩

/-- The values below a callee are isolated from its call exactly if the call has left them alone. -/
theorem isolated_iff_of_values {slot : Nat} {vs : List Value} (hslot : slot ≤ p.stack.size)
    (hr : r.stack.toList = q.stack.toList.take slot ++ vs)
    (hvs : vs.length = resultSlots guarded) :
    Isolated slot guarded p r ↔ q.stack.toList.take slot = p.stack.toList.take slot := by
  have hsize : r.stack.size = min slot q.stack.size + resultSlots guarded := by
    rw [← Stack.length_toList, hr, List.length_append, List.length_take, Stack.length_toList, hvs]
  constructor
  -- The size tells that the results start at the slot, so what is below was below before.
  · rintro ⟨hbelow, hlength⟩
    rw [← hbelow, hr, List.take_append_of_le_length, List.take_take, Nat.min_self]
    rw [List.length_take, Stack.length_toList]
    omega
  · intro hbelow
    have hlen := congrArg List.length hbelow
    rw [List.length_take, List.length_take, Stack.length_toList, Stack.length_toList] at hlen
    refine ⟨?_, by omega⟩
    rw [← hbelow, hr, List.take_append_of_le_length, List.take_take, Nat.min_self]
    rw [List.length_take, Stack.length_toList]
    omega

/-- When control is next back in the caller of a closure, the caller goes on behind its call. The
values below the callee are what they were, and above them there are only the results, exactly if
the call has left those values alone; and it has if none of them was an operand meanwhile. -/
theorem isolated_iff {config : ActorConfig} {loader : Loader} {now : Time} {p p' q : Actor}
    {nargs : UInt32} {guarded : Bool} {trace : List (Operation × Actor)} (h : Reached config p)
    (hcall : Calls loader now p nargs guarded p') (hrun : Run p.frames.length p' trace q)
    (op : Operation) (hback : (op.after q).frames.length = p.frames.length) :
    (op.after q).frames = p'.frames.tail ∧
      (Isolated (p.calleeSlot nargs.toNat) guarded p (op.after q) ↔
        q.stack.toList.take (p.calleeSlot nargs.toNat) =
          p.stack.toList.take (p.calleeSlot nargs.toNat)) ∧
      ((∀ step ∈ trace, p.calleeSlot nargs.toNat ≤ step.1.floor step.2) →
        Isolated (p.calleeSlot nargs.toNat) guarded p (op.after q)) := by
  obtain ⟨hp', habove, hcallers, hdepth, hslot, hentry⟩ := hcall.spec (steady_of_reached h)
  rw [← hdepth] at hrun hback
  obtain ⟨hq, inner, hinner, hkept⟩ := hrun.above hp' habove
  obtain ⟨hframes, vs, hvalues, hlength⟩ := (moves_after hq op).back hinner hback
  have hiff := isolated_iff_of_values hslot hvalues (hlength hcallers)
  refine ⟨hframes, hiff, fun hfloors => hiff.2 ?_⟩
  obtain ⟨-, hbelow⟩ := hkept hfloors
  exact hbelow.trans hentry

/-! ### A call that is isolated and one that is not -/

/-- A function that puts two integers on the stack and calls a closure with some code. -/
def callerOf (body : Array Instruction) : Routine :=
  .loose
    { Prototype.blank with
      code := #[.int 11, .int 12, .makeClosure 0, .call 0, .ret]
      nested := [{ Prototype.blank with code := body }] }

/-- The actor that runs this function, after some instructions. -/
def calling (body : Array Instruction) (n : Nat) : Actor :=
  stepped .standard 0 (started {} (.closure (callerOf body) []) []) n

/-- An instruction that is done and asks for nothing leads to the next state. -/
theorem step_eq_ok (h : (match step loader now p with | .ok none _ => true | _ => false) = true) :
    step loader now p = .ok none ((Operation.step loader now).after p) := by
  rw [Operation.after, Operation.run]
  split at h
  next hstep => rw [hstep]
  next => cases h

/-- A body that puts a value on the stack and returns it leaves the integers of its caller alone. -/
theorem isolated_returning :
    Isolated ((calling #[.int 7, .ret] 3).calleeSlot (0 : UInt32).toNat) false
      (calling #[.int 7, .ret] 3)
      ((Operation.step .standard 0).after (calling #[.int 7, .ret] 5)) := by
  have hreached : Reached {} (calling #[.int 7, .ret] 3) :=
    reached_stepped (reached_started (by decide +kernel)) .standard 0 3
  have hcall : Calls .standard 0 (calling #[.int 7, .ret] 3) 0 false (calling #[.int 7, .ret] 4) :=
    ⟨by decide +kernel, step_eq_ok (by decide +kernel), by decide +kernel, by decide +kernel⟩
  have hrun : Run (calling #[.int 7, .ret] 3).frames.length (calling #[.int 7, .ret] 4)
      [(.step .standard 0, calling #[.int 7, .ret] 4)] (calling #[.int 7, .ret] 5) :=
    .next _ (.refl (by decide +kernel)) (by decide +kernel)
  -- Before it returns the body only pushes, so it does not reach below the callee.
  have hfloor : (calling #[.int 7, .ret] 3).calleeSlot (0 : UInt32).toNat ≤
      (Operation.step .standard 0).floor (calling #[.int 7, .ret] 4) := by
    decide +kernel
  have hfloors : ∀ step ∈ [(Operation.step .standard 0, calling #[.int 7, .ret] 4)],
      (calling #[.int 7, .ret] 3).calleeSlot (0 : UInt32).toNat ≤ step.1.floor step.2 := by
    simpa only [List.forall_mem_singleton] using hfloor
  have hback : ((Operation.step .standard 0).after (calling #[.int 7, .ret] 5)).frames.length =
      (calling #[.int 7, .ret] 3).frames.length := by
    decide +kernel
  obtain ⟨-, -, hisolated⟩ := isolated_iff hreached hcall hrun (.step .standard 0) hback
  exact hisolated hfloors

/-- A body that pops itself and the integers of its caller does not: it leaves two values on the
stack where there should be four. -/
theorem not_isolated :
    ¬ ∀ (config : ActorConfig) (loader : Loader) (now : Time) (p p' q : Actor) (nargs : UInt32)
      (guarded : Bool) (trace : List (Operation × Actor)) (op : Operation), Reached config p →
      Calls loader now p nargs guarded p' → Run p.frames.length p' trace q →
      (op.after q).frames.length = p.frames.length →
      Isolated (p.calleeSlot nargs.toNat) guarded p (op.after q) := by
  intro hall
  have hreached : Reached {} (calling #[.pop 3, .ret] 3) :=
    reached_stepped (reached_started (by decide +kernel)) .standard 0 3
  have hcall : Calls .standard 0 (calling #[.pop 3, .ret] 3) 0 false (calling #[.pop 3, .ret] 4) :=
    ⟨by decide +kernel, step_eq_ok (by decide +kernel), by decide +kernel, by decide +kernel⟩
  have hrun : Run (calling #[.pop 3, .ret] 3).frames.length (calling #[.pop 3, .ret] 4)
      [(.step .standard 0, calling #[.pop 3, .ret] 4)] (calling #[.pop 3, .ret] 5) :=
    .next _ (.refl (by decide +kernel)) (by decide +kernel)
  have hback : ((Operation.step .standard 0).after (calling #[.pop 3, .ret] 5)).frames.length =
      (calling #[.pop 3, .ret] 3).frames.length := by
    decide +kernel
  obtain ⟨-, hsize⟩ := hall {} .standard 0 _ _ _ _ _ _ _ hreached hcall hrun hback
  -- Two of the three values that were popped are the caller's, and nothing brings them back.
  have hne : ((Operation.step .standard 0).after (calling #[.pop 3, .ret] 5)).stack.size ≠
      (calling #[.pop 3, .ret] 3).calleeSlot (0 : UInt32).toNat + resultSlots false := by
    decide +kernel
  exact hne hsize

end ActorMachine.Machine
