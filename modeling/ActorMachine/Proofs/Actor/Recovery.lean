import ActorMachine.Actor.Recovery
import ActorMachine.Proofs.Actor.Sound
import Mathlib.Data.List.TakeWhile

/-!
# Recovery does not fail

* `Reports fault p q`: from `p` to `q` false and the description of the fault were put on the
  stack, and nothing else has happened.
* `pushFailure_spec`: with room for two values this is what happens, in every case: where the heap
  has no room for a string, nil describes the fault.
* `unwind_spec`, `failProtectedCall_spec`: what unwinding and the failure of a protected call lead
  to.
-/

namespace ActorMachine.Actor

variable {p q : Actor} {fault : Fault} {n : Nat}

/-- A value describes a fault: as a string that equals its message, or as nil if not even a
collection has made room for that string. -/
def Describes (h : Heap) (fault : Fault) : Value → Prop
  | .ref r => h.string r = .ok fault.message
  | .nil => h.available < fault.message.utf8ByteSize ∧ h.sinceCollection = 0
  | _ => False

/-- From `p` to `q` false and the description of the fault were put on the stack. -/
def Reports (fault : Fault) (p q : Actor) : Prop :=
  ∃ heap stack d, q = { p with heap, stack } ∧
    stack.toList = p.stack.toList ++ [.bool false, d] ∧ Describes heap fault d ∧
    p.stack.capacity ≤ stack.capacity ∧ q.Sound

/-- A report keeps all values below it. -/
theorem Reports.keeps (h : Reports fault p q) (hn : n ≤ p.stack.size) : Keeps n p q := by
  obtain ⟨heap, stack, d, rfl, hstack, -, hcap, hq⟩ := h
  refine ⟨hq, ⟨rfl, rfl, rfl, rfl⟩, rfl, rfl, hcap, ?_⟩
  show stack.toList.take n = p.stack.toList.take n
  rw [hstack, List.take_append_of_le_length]
  rwa [Stack.length_toList]

/-- A sound actor stays sound with fewer values on its stack. -/
theorem Sound.truncate (hp : p.Sound) (n : Nat) :
    ({ p with stack := p.stack.truncate n } : Actor).Sound := by
  refine hp.withStack (fun v hv => hp.stack v ?_) (hp.fits.truncate n)
  rw [Stack.toList_truncate] at hv
  exact List.mem_of_mem_take hv

/-- With room for one more value the description of a fault can be put on the stack. -/
theorem pushError_spec (hp : p.Sound) (hroom : p.stack.size < p.stack.capacity) (fault : Fault) :
    Ensures (pushError fault) p
      (fun _ q => ∃ heap d, Describes heap fault d ∧ Extends [d] { p with heap } q)
      (fun _ _ => False) := by
  rw [pushError, ensures_bind, ensures_attempt]
  refine Ensures.mono (pushString_spec hp fault.message) ?_ ?_
  · rintro _ q ⟨heap, r, -, htext, hext⟩
    exact ⟨heap, .ref r, htext, hext⟩
  · rintro _ _ ⟨heap, rfl, hq, hfull | hshort⟩
    -- The stack is not full, so the heap is, and nil takes the place of the string.
    · omega
    · rw [ensures_discard, ensures_attempt]
      refine Ensures.mono (push_room (v := .nil) hq trivial hroom) ?_ (fun _ _ => False.elim)
      exact fun _ r hr => ⟨heap, .nil, hshort, hr⟩

/-- With room for two more values a fault can be reported. -/
theorem pushFailure_spec (hp : p.Sound) (hroom : p.stack.size + 2 ≤ p.stack.capacity)
    (fault : Fault) :
    Ensures (pushFailure fault) p (fun _ q => Reports fault p q) (fun _ _ => False) := by
  rw [pushFailure, ensures_bind]
  refine Ensures.mono (push_room (v := .bool false) hp trivial (by omega)) ?_ (fun _ _ => id)
  rintro _ _ ⟨stack, rfl, hstack, hcap, hq⟩
  have hsize : stack.size = p.stack.size + 1 := by
    simpa using congrArg List.length hstack
  refine Ensures.mono (pushError_spec hq ?_ fault) ?_ (fun _ _ => id)
  · show stack.size < stack.capacity
    omega
  · rintro _ _ ⟨heap, d, hd, stack', rfl, hstack', hcap', hr⟩
    refine ⟨heap, stack', d, rfl, ?_, hd, Nat.le_trans hcap hcap', hr⟩
    rw [hstack', hstack, List.append_assoc]
    rfl

/-- Unwinding ends all calls up to the innermost guarded one and reports the fault in its place.
Without a guarded call it does nothing and passes the fault on. -/
theorem unwind_spec (hp : p.Sound)
    (hroom : ∀ f ∈ p.frames, f.guarded = true → f.calleeSlot + 2 ≤ p.stack.capacity)
    (fault : Fault) :
    Ensures (unwind fault) p
      (fun _ q => ∃ inner f outer, p.frames = inner ++ f :: outer ∧
        (∀ g ∈ inner, g.guarded = false) ∧ f.guarded = true ∧
        Reports fault
          { p with
            stack := p.stack.truncate f.calleeSlot
            frames := outer
            receiveDeadline := none } q)
      (fun fault' q => fault' = fault ∧ q = p ∧ ∀ g ∈ p.frames, g.guarded = false) := by
  rw [unwind, ensures_bind, ensures_get]
  have hsplit : p.frames.takeWhile (fun f => !f.guarded) ++ p.frames.dropWhile (fun f => !f.guarded)
      = p.frames := List.takeWhile_append_dropWhile
  have hinner : ∀ g ∈ p.frames.takeWhile fun f => !f.guarded, g.guarded = false := by
    intro g hg
    simpa using List.mem_takeWhile_imp hg
  -- The first frame that is not dropped is the innermost guarded one.
  cases hdrop : p.frames.dropWhile fun f => !f.guarded with
  | nil =>
    rw [hdrop, List.append_nil] at hsplit
    exact ⟨rfl, rfl, hsplit ▸ hinner⟩
  | cons f outer =>
    rw [hdrop] at hsplit
    have hguarded : f.guarded = true := by
      have hhead := List.head?_dropWhile_not (fun f : Frame => !f.guarded) p.frames
      rw [hdrop] at hhead
      simpa using hhead
    have hmem : f ∈ p.frames := hsplit ▸ by simp
    rw [ensures_bind, truncateStack, ensures_modify, ensures_bind, ensures_modify]
    refine Ensures.mono (pushFailure_spec ?_ ?_ fault) ?_ (fun _ _ => False.elim)
    · exact (hp.truncate f.calleeSlot).congr rfl rfl rfl
    · show (p.stack.truncate f.calleeSlot).size + 2 ≤ p.stack.capacity
      have hslot := hroom f hmem hguarded
      rw [Stack.size_truncate]
      omega
    · intro _ q hq
      exact ⟨_, f, outer, hsplit.symm, hinner, hguarded, hq⟩

/-- The two results of a protected call are replaced by the report of a fault. -/
theorem failProtectedCall_spec (hp : p.Sound) (fault : Fault) :
    Ensures (failProtectedCall fault) p
      (fun _ q => 2 ≤ p.stack.size ∧
        Reports fault { p with stack := p.stack.truncate (p.stack.size - 2) } q)
      (fun _ q => q = p ∧ p.stack.size < 2) := by
  rw [failProtectedCall, ensures_bind, ensures_onStack, Stack.ensures_pop]
  refine ⟨fun hsize => ?_, fun hsize => ⟨rfl, hsize⟩⟩
  refine Ensures.mono (pushFailure_spec (hp.truncate _) ?_ fault) ?_ (fun _ _ => False.elim)
  · show (p.stack.truncate (p.stack.size - 2)).size + 2 ≤ p.stack.capacity
    have hle := hp.fits.size_le
    rw [Stack.size_truncate]
    omega
  · exact fun _ q hq => ⟨hsize, hq⟩

end ActorMachine.Actor
