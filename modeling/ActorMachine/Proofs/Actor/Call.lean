import ActorMachine.Actor.Call
import ActorMachine.Proofs.Actor.Sound

/-!
# Entering, starting and receiving messages

* `enter_exact`, `enter_spec`: a call gets its frame only after all that can fail; if one of these
  fails, nothing has happened.
* `start_spec`: an actor that has been started is sound and in one call, which is not guarded.
* `deliver_spec`: a delivery concerns heap and mailbox alone.
-/

namespace ActorMachine.Actor

variable {p q : Actor} {n : Nat}

/-- What can be entered is a closure of the heap that takes this many arguments, as long as there
is room for one more frame. -/
theorem enterable_eq_ok {calleeSlot nargs : Nat} {routine : Routine} {upvalues : Array Value}
    (h : p.enterable calleeSlot nargs = .ok (routine, upvalues)) :
    ∃ r, p.stack.slot calleeSlot = .ok (.ref r) ∧ p.heap.closure r = .ok (routine, upvalues) ∧
      nargs = routine.prototype.arguments.toNat ∧ p.frames.length < p.config.maxFrames := by
  rw [enterable] at h
  cases hslot : p.stack.slot calleeSlot with
  | error fault => rw [hslot] at h; cases h
  | ok callee =>
    rw [hslot] at h
    cases callee with
    | ref r =>
      refine ⟨r, rfl, ?_⟩
      cases hclosure : p.heap.closure r with
      | error fault =>
        simp only [bind, Except.bind, hclosure] at h
        split at h <;> cases h
      | ok pair =>
        simp only [bind, Except.bind, hclosure] at h
        -- Each check that fails would be in the way of the result.
        split at h
        · cases h
        · split at h
          · cases h
          case isFalse harguments =>
            split at h
            · cases h
            case isFalse hroom =>
              obtain ⟨rfl, rfl⟩ := Prod.mk.inj (Except.ok.inj h)
              exact ⟨rfl, not_not.1 harguments, Nat.not_le.1 hroom⟩
    | _ => cases h

/-- The heap backs what the closure has captured. -/
theorem backs_of_enterable {calleeSlot nargs : Nat} {routine : Routine} {upvalues : Array Value}
    (hp : p.Sound) (h : p.enterable calleeSlot nargs = .ok (routine, upvalues)) :
    calleeSlot < p.stack.size ∧ ∀ v ∈ upvalues, p.heap.Backs v := by
  obtain ⟨r, hslot, hclosure, -⟩ := enterable_eq_ok h
  have hsome := Stack.slot_eq_ok_iff.1 hslot
  obtain ⟨hlook, -⟩ := Heap.closure_eq_ok_iff.1 hclosure
  exact ⟨(Array.getElem?_eq_some_iff.1 hsome).1, fun v hv => hp.heap.upvalues hlook v hv⟩

/-- The upvalues of a closure and nil are all that is pushed above the arguments. -/
theorem backs_frameExtension {h : Heap} {prototype : Prototype} {upvalues : Array Value}
    (hups : ∀ v ∈ upvalues, h.Backs v) : ∀ v ∈ frameExtension prototype upvalues, h.Backs v := by
  intro v hv
  rcases List.mem_append.1 hv with hv | hv
  · obtain ⟨i, -, rfl⟩ := List.mem_map.1 hv
    cases hi : upvalues[i]? with
    | none => trivial
    | some w => exact hups w (Array.mem_of_getElem? hi)
  · rw [List.eq_of_mem_replicate hv]
    trivial

/-- A call lays out its locals and gets its frame, or nothing happens. It fails exactly if there is
nothing to enter or the stack does not admit the locals. -/
theorem enter_exact (hfits : p.stack.Fits) (calleeSlot nargs : Nat) (guarded : Bool) :
    Ensures (enter calleeSlot nargs guarded) p
      (fun _ q => ∃ routine upvalues stack,
        p.enterable calleeSlot nargs = .ok (routine, upvalues) ∧
        p.stack.Admits (frameExtension routine.prototype upvalues).length ∧
        q = { p with stack, frames := ⟨routine, 0, calleeSlot, guarded⟩ :: p.frames } ∧
        stack.toList = p.stack.toList ++ frameExtension routine.prototype upvalues ∧
        p.stack.capacity ≤ stack.capacity ∧ stack.Fits)
      (fun _ q => q = p ∧ ∀ routine upvalues,
        p.enterable calleeSlot nargs = .ok (routine, upvalues) →
          ¬ p.stack.Admits (frameExtension routine.prototype upvalues).length) := by
  rw [enter, ensures_bind, ensures_get, ensures_bind, ensures_ofExcept]
  refine ⟨?_, fun fault hfault => ⟨rfl, fun routine upvalues henter => ?_⟩⟩
  swap
  · rw [hfault] at henter
    cases henter
  rintro ⟨routine, upvalues⟩ henter
  dsimp only
  rw [ensures_bind, ensures_onStack]
  refine Ensures.mono (Stack.reserve_spec hfits _) ?_ ?_
  -- Once the room for the locals is there, laying them out does not fail.
  · rintro _ _ ⟨capacity, rfl, hcap, hfits', hroom, hadmits⟩
    rw [ensures_bind]
    refine Ensures.mono (forM_push_room hfits' hroom) ?_ (fun _ _ => False.elim)
    rintro _ _ ⟨stack, rfl, hstack, hcap', hstack'⟩
    rw [ensures_modify]
    exact ⟨routine, upvalues, stack, henter, hadmits, rfl, hstack, Nat.le_trans hcap hcap',
      hstack'⟩
  · rintro _ _ ⟨rfl, -, hrefused, -⟩
    refine ⟨rfl, fun routine' upvalues' henter' => ?_⟩
    obtain ⟨rfl, rfl⟩ := Prod.mk.inj (Except.ok.inj (henter.symm.trans henter'))
    exact hrefused

/-- A call leaves a sound actor sound. -/
theorem enter_spec (hp : p.Sound) (calleeSlot nargs : Nat) (guarded : Bool) :
    Ensures (enter calleeSlot nargs guarded) p
      (fun _ q => ∃ routine upvalues stack,
        p.enterable calleeSlot nargs = .ok (routine, upvalues) ∧
        q = { p with stack, frames := ⟨routine, 0, calleeSlot, guarded⟩ :: p.frames } ∧
        stack.toList = p.stack.toList ++ frameExtension routine.prototype upvalues ∧
        p.stack.capacity ≤ stack.capacity ∧ q.Sound)
      (fun _ q => q = p) := by
  refine (enter_exact hp.fits calleeSlot nargs guarded).mono ?_ fun _ _ h => h.1
  rintro _ _ ⟨routine, upvalues, stack, henter, -, rfl, hstack, hcap, hfits⟩
  obtain ⟨-, hups⟩ := backs_of_enterable hp henter
  have hsound : ({ p with stack } : Actor).Sound := by
    refine hp.withStack (fun v hv => ?_) hfits
    rw [hstack, List.mem_append] at hv
    exact hv.elim (hp.stack v) (backs_frameExtension hups v)
  exact ⟨routine, upvalues, stack, henter, rfl, hstack, hcap, hsound.congr rfl rfl rfl⟩

/-- A payload is rebuilt and put on the stack; if that fails, the heap at most has changed. -/
theorem pushPayload_spec (hp : p.Sound) (payload : Payload) :
    Ensures (pushPayload payload) p (fun _ q => Keeps p.stack.size p q)
      (fun _ q => Keeps p.stack.size p q) := by
  rw [pushPayload, ensures_bind]
  refine Ensures.mono (works_onHeap hp (Payload.safeAt_materialize hp.heap payload)) ?_ ?_
  · rintro v _ ⟨heap, rfl, hq, hv⟩
    refine Ensures.mono (push_spec hq hv) ?_ ?_
    · intro _ r hr
      exact (hr.keeps (Nat.le_refl _)).trans (keeps_heap hq _)
    · rintro _ _ ⟨rfl, -⟩
      exact keeps_heap hq _
  · rintro _ _ ⟨heap, rfl, hq⟩
    exact keeps_heap hq _

theorem forM_pushPayload_spec (hp : p.Sound) (payloads : List Payload) :
    Ensures (payloads.forM pushPayload) p (fun _ q => Keeps 0 p q) (fun _ q => Keeps 0 p q) := by
  induction payloads generalizing p with
  | nil => exact .refl 0 hp
  | cons payload payloads ih =>
    show Ensures (pushPayload payload >>= fun _ => payloads.forM pushPayload) p _ _
    rw [ensures_bind]
    refine Ensures.mono (pushPayload_spec hp payload) ?_ ?_
    · intro _ q hq
      have hpq := hq.mono (Nat.zero_le _)
      exact Ensures.mono (ih hq.sound) (fun _ r hr => hr.trans hpq) (fun _ r hr => hr.trans hpq)
    · exact fun _ q hq => hq.mono (Nat.zero_le _)

theorem sound_create (pid : Pid) (config : ActorConfig) : (create pid config).Sound :=
  ⟨Heap.sound_empty _, by simp [create], by simp [create], Stack.fits_empty _⟩

/-- A fresh stack is empty and fits. -/
theorem withCapacity_spec {capacity limit : Nat} {stack : Stack}
    (h : Stack.withCapacity capacity limit = .ok stack) : stack.toList = [] ∧ stack.Fits := by
  rw [Stack.withCapacity] at h
  have hspec := Stack.reserve_spec (Stack.fits_empty limit) capacity
  cases hres : Stack.reserve capacity (.empty limit) with
  | error fault t => rw [hres] at h; cases h
  | ok _ t =>
    rw [hres] at h
    obtain rfl := Except.ok.inj h
    obtain ⟨_, rfl, -, hfits, -⟩ := hspec.of_ok hres
    exact ⟨rfl, hfits⟩

/-- An actor that has been started is in one call, which is not guarded. -/
theorem start_spec (hp : p.Sound) (callee : Payload) (args : List Payload) :
    Ensures (start callee args) p
      (fun _ q => q.Sound ∧ Same p q ∧ q.request = p.request ∧
        ∃ f, q.frames = [f] ∧ f.guarded = false ∧ f.calleeSlot < q.stack.capacity)
      (fun _ _ => True) := by
  rw [start, ensures_bind, ensures_get, ensures_bind, ensures_ofExcept]
  refine ⟨fun stack hstack => ?_, fun _ _ => trivial⟩
  obtain ⟨hvalues, hfits⟩ := withCapacity_spec hstack
  have hfresh : ({ p with stack, frames := [] } : Actor).Sound := by
    refine ⟨hp.heap, ?_, hp.mailbox, hfits⟩
    show ∀ v ∈ stack.toList, _
    simp [hvalues]
  rw [ensures_bind, ensures_modify, ensures_bind]
  -- Only here may garbage be collected: callee and arguments are not on the stack yet.
  refine Ensures.mono (works_prepareHeap hfresh _) ?_ (fun _ _ _ => trivial)
  rintro _ _ ⟨heap, rfl, hq, -⟩
  rw [ensures_bind]
  refine Ensures.mono (forM_pushPayload_spec hq _) ?_ (fun _ _ _ => trivial)
  intro _ r hr
  refine Ensures.mono (enter_spec hr.sound 0 args.length false) ?_ (fun _ _ _ => trivial)
  rintro _ _ ⟨routine, upvalues, stack', henter, rfl, -, hcap, hs⟩
  obtain ⟨hslot, -⟩ := backs_of_enterable hr.sound henter
  refine ⟨hs, hr.same, hr.request, ⟨routine, 0, 0, false⟩, ?_, rfl, ?_⟩
  · rw [hr.frames]
  · show 0 < stack'.capacity
    have hle := hr.sound.fits.size_le
    omega

/-- A delivery appends to the mailbox what it rebuilds in the heap, or fails and leaves the mailbox
as it was. -/
theorem deliver_spec (hp : p.Sound) (payload : Payload) :
    Ensures (deliver payload) p
      (fun _ q => ∃ heap v, q = { p with heap, mailbox := p.mailbox.push v } ∧ q.Sound)
      (fun _ q => ∃ heap, q = { p with heap } ∧ q.Sound) := by
  rw [deliver, ensures_bind]
  refine Ensures.mono (works_prepareHeap hp _) ?_ (fun _ _ => id)
  rintro _ _ ⟨heap, rfl, hq, -⟩
  rw [ensures_bind]
  refine Ensures.mono (works_onHeap hq (Payload.safeAt_materialize hq.heap payload)) ?_
    (fun _ _ => id)
  rintro v _ ⟨heap', rfl, hr, hv⟩
  rw [ensures_modify]
  refine ⟨heap', v, rfl, hr.heap, hr.stack, fun w hw => ?_, hr.fits⟩
  rw [Mailbox.toList_push] at hw
  rcases List.mem_append.1 hw with hw | hw
  · exact hr.mailbox w hw
  · rwa [List.mem_singleton.1 hw]

end ActorMachine.Actor
