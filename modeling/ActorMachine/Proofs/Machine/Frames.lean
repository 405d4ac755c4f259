import ActorMachine.Proofs.Machine.Reached

/-!
# What becomes of the calls in progress

* `Moves floor p q`: the three things that an operation can do to the calls of an actor. It leaves
  them alone, it adds one, or it ends some of them and leaves results in the slot of the last
  callee.
* `moves_after`: every operation does one of them, and unless it ends calls it leaves alone the
  values that are not its operands.
-/

namespace ActorMachine.Machine

open Actor (Keeps)

variable {p q : Actor} {config : ActorConfig}

/-- Number of lowest values on the stack that are no operands of an operation. -/
def Operation.floor (op : Operation) (p : Actor) : Nat :=
  match op with
  | .step _ _ => stepFloor p
  | .failProtectedCall _ => p.stack.size - 2
  | .answer _ => p.stack.size - 1
  | _ => p.stack.size

theorem Operation.floor_le (op : Operation) (p : Actor) : op.floor p ≤ p.stack.size := by
  cases op with
  | step => exact stepFloor_le p
  | failProtectedCall | answer => exact Nat.sub_le _ _
  | _ => exact Nat.le_refl _

/-- The next instruction of `p` makes the call `f` and leads to `q`. -/
def Makes (p : Actor) (ip : Nat) (f : Frame) (q : Actor) : Prop :=
  f.ip = 0 ∧ ∃ loader now n r, step loader now p = .ok none q ∧
    Invokes loader p n f.guarded r ∧ r.frames = (p.atIp ip).frames

/-- What an operation can do to the calls of an actor and to the values that are not operands. -/
inductive Moves (floor : Nat) (p q : Actor) : Prop
  /-- The same calls are in progress. -/
  | stays (ip : Nat) (frames : q.frames = (p.atIp ip).frames)
      (below : q.stack.toList.take floor = p.stack.toList.take floor)
  /-- A call was added. -/
  | enters (ip : Nat) (f : Frame) (frames : q.frames = f :: (p.atIp ip).frames)
      (made : Makes p ip f q) (slot : floor ≤ f.calleeSlot)
      (below : q.stack.toList.take floor = p.stack.toList.take floor)
  /-- Some calls have ended, and what they have come to is where the last of their callees was. -/
  | leaves (inner : List Frame) (f : Frame) (outer : List Frame) (vs : List Value)
      (before : p.frames = inner ++ f :: outer) (frames : q.frames = outer)
      (values : q.stack.toList = p.stack.toList.take f.calleeSlot ++ vs)
      (length : outer ≠ [] → vs.length = resultSlots f.guarded)

/-- Operations that lead from `p` to `q` while more than `depth` calls are in progress, the last one
first, each with the actor that it was done to. -/
inductive Run (depth : Nat) (p : Actor) : List (Operation × Actor) → Actor → Prop
  /-- Nothing has happened yet. -/
  | refl (inside : depth < p.frames.length) : Run depth p [] p
  /-- One more operation was done. -/
  | next {trace : List (Operation × Actor)} {q : Actor} (op : Operation)
      (before : Run depth p trace q) (inside : depth < (op.after q).frames.length) :
      Run depth p ((op, q) :: trace) (op.after q)

/-- With the same frames, instruction pointer included, the same calls are in progress. -/
theorem Moves.of_frames {floor : Nat} (hframes : q.frames = p.frames)
    (hbelow : q.stack.toList.take floor = p.stack.toList.take floor) : Moves floor p q := by
  obtain ⟨ip, hip⟩ := p.exists_atIp
  exact .stays ip (by rw [hip, hframes]) hbelow

theorem Moves.of_keeps {n : Nat} (h : Keeps n p q) : Moves n p q :=
  .of_frames h.frames h.below

/-- An instruction moves the calls as it should. -/
theorem Effect.moves {loader : Loader} {now : Time} {o : Option Outcome} (hp : Steady p)
    (h : Effect loader p o q) (hstep : step loader now p = .ok o q) : Moves (stepFloor p) p q := by
  cases h with
  | idle => exact .of_frames rfl rfl
  | stays ip _ hkeeps =>
    refine .stays ip hkeeps.frames ?_
    rw [hkeeps.below, Actor.stack_atIp]
  | @calls _ _ f outer nargs hframes hcode hinv =>
    -- The operands of a call are its callee and its arguments.
    have hfloor : stepFloor p = (p.atIp (f.ip + 1)).calleeSlot nargs.toNat := by
      simp only [stepFloor, hframes, hcode, Actor.calleeSlot, Actor.stack_atIp]
      rfl
    cases hinv with
    | completed _ hkeeps =>
      refine .stays (f.ip + 1) hkeeps.frames ?_
      rw [hfloor, hkeeps.below, Actor.stack_atIp]
    | @entered m _ _ r routine hchain hkeeps =>
      obtain ⟨hr, -⟩ := hchain.spec (hp.sound.atIp _) (by simp)
      refine .enters (f.ip + 1) _ hkeeps.frames ⟨rfl, loader, now, m, r, hstep, ?_, hr.frames⟩
        (Nat.le_of_eq hfloor) ?_
      · exact ⟨f, outer, nargs, hframes, hcode, hchain⟩
      rw [hfloor]
      exact hkeeps.below.trans (by rw [Actor.stack_atIp])
  | @returns f outer stack v hframes _ _ _ hvalues =>
    exact .leaves [] f outer _ hframes rfl hvalues fun _ => length_results _ _
  | @ends f stack v hframes _ _ _ hvalues =>
    exact .leaves [] f [] [v] hframes rfl hvalues fun h => absurd rfl h

/-- Every operation moves the calls as it should, whether it fails or not. -/
theorem moves_after (hp : Steady p) (op : Operation) : Moves (op.floor p) p (op.after p) := by
  refine Operation.after_of_ensures ?_
  cases op with
  | step loader now =>
    refine Ensures.mono ((step_spec hp loader now).and (ensures_result _ p)) ?_ ?_
    · rintro o q ⟨heffect, hstep⟩
      exact heffect.moves hp hstep
    · rintro _ q ⟨⟨ip, hkeeps⟩, -⟩
      refine .stays ip hkeeps.frames (hkeeps.below.trans ?_)
      rw [Actor.stack_atIp]
      rfl
  | deliver payload =>
    rw [Operation.run, ensures_bind]
    refine Ensures.mono (Actor.deliver_spec hp.sound payload) ?_ ?_
    · rintro _ _ ⟨heap, v, rfl, -⟩
      exact .of_frames rfl rfl
    · rintro _ _ ⟨heap, rfl, -⟩
      exact .of_frames rfl rfl
  | unwind fault =>
    rw [Operation.run, ensures_bind]
    refine Ensures.mono (Actor.unwind_spec hp.sound hp.room_guarded fault) ?_ ?_
    · rintro _ _ ⟨inner, f, outer, hframes, -, hguarded, heap, stack, d, rfl, hstack, -⟩
      refine .leaves inner f outer [.bool false, d] hframes rfl ?_ fun _ => by rw [hguarded]; rfl
      rw [← Stack.toList_truncate]
      exact hstack
    · rintro _ _ ⟨-, rfl, -⟩
      exact .of_keeps (.refl _ hp.sound)
  | failProtectedCall fault =>
    rw [Operation.run, ensures_bind]
    refine Ensures.mono (Actor.failProtectedCall_spec hp.sound fault) ?_ ?_
    · rintro _ _ ⟨hsize, heap, stack, d, rfl, hstack, -⟩
      refine .of_frames rfl ?_
      -- The report takes the place of the two results, and the values below are the same.
      show stack.toList.take (p.stack.size - 2) = _
      have hlow : (p.stack.truncate (p.stack.size - 2)).toList =
          p.stack.toList.take (p.stack.size - 2) := Stack.toList_truncate _ _
      rw [hstack, List.take_append_of_le_length, hlow, List.take_take, Nat.min_self]
      · rfl
      · rw [hlow, List.length_take, Stack.length_toList]
        omega
    · rintro _ _ ⟨rfl, -⟩
      exact .of_keeps (.refl _ hp.sound)
  | collectGarbage =>
    rw [Operation.run, ensures_bind, ensures_discard, Actor.ensures_collectGarbage]
    exact .of_keeps (Actor.keeps_heap (Actor.sound_collectGarbage hp.sound) _)
  | answer child =>
    rw [Operation.run, ensures_bind, Actor.ensures_onStack, Stack.ensures_setAt]
    refine ⟨fun n hn => ?_, fun _ _ => .of_keeps (.refl _ hp.sound)⟩
    have hslot : p.stack.size - 1 ≤ n := Nat.le_of_eq (Stack.slotOf_neg_one_eq_ok_iff.1 hn).2.symm
    have hset := confines_setSlot (v := .pid child) hp.sound trivial hslot
    rw [Confines, Actor.ensures_onStack] at hset
    exact Ensures.mono hset (fun _ _ h => .of_keeps h.1) (fun _ _ h => .of_keeps h)
  | stand state wait => exact .of_frames rfl rfl

end ActorMachine.Machine
