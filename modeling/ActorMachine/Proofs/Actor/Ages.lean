import ActorMachine.Proofs.Actor.Call
import ActorMachine.Proofs.Actor.Recovery
import ActorMachine.Proofs.Rebuilding

/-!
# How the memory of an actor changes

* `Ages n written p q`: the heap of an actor has aged, and its mailbox holds nothing new.
* `Tends`: an action leads to no more than that, whether it fails or not. Tendencies add up
  (`Tends.bind`), and what touches neither heap nor mailbox adds nothing (`Leaves`).
* `deliver_takes`: a message for which there is room after a collection is appended to the mailbox
  and captures to the payload that was delivered. Any other message is dropped.
-/

namespace ActorMachine.Actor

variable {p q r : Actor} {n m : Nat} {written written' : Set Handle} {α β : Type}

/-! ### Ageing -/

/-- What has happened to the memory of an actor: its heap has aged, and at most some messages were
taken out of its mailbox. -/
structure Ages (n : Nat) (written : Set Handle) (p q : Actor) : Prop where
  /-- The heap has aged. -/
  heap : Heap.Ages n written p.heap q.heap
  /-- The messages that are left are in order. -/
  mailbox : q.mailbox.toList.Sublist p.mailbox.toList

theorem Ages.refl (hfits : p.heap.Fits) (written : Set Handle) : Ages 0 written p p :=
  ⟨.refl hfits written, .refl _⟩

theorem Ages.mono (h : Ages n written p q) (hn : n ≤ m) (hwritten : written ⊆ written') :
    Ages m written' p q :=
  ⟨h.heap.mono hn hwritten, h.mailbox⟩

theorem Ages.of_le (h : Ages n written p q) (hn : n ≤ m) : Ages m written p q :=
  h.mono hn (Set.Subset.refl _)

/-- An actor that is the same has aged by less than any number. -/
theorem Ages.same (hfits : p.heap.Fits) : Ages n written p p :=
  (refl hfits written).of_le (Nat.zero_le n)

theorem Ages.trans (hqr : Ages m written q r) (hpq : Ages n written p q) :
    Ages (m + n) written p r :=
  ⟨Nat.add_comm n m ▸ hqr.heap.trans hpq.heap, hqr.mailbox.trans hpq.mailbox⟩

/-- Neither heap nor mailbox have changed. -/
theorem Ages.of_eq (hfits : p.heap.Fits) (hheap : q.heap = p.heap)
    (hmailbox : q.mailbox = p.mailbox) : Ages 0 written p q :=
  ⟨hheap ▸ .refl hfits written, hmailbox ▸ .refl _⟩

/-- Run from `p`, the action ages the memory of the actor, whether it fails or not. -/
def Tends (n : Nat) (written : Set Handle) (p : Actor) (act : Action α) : Prop :=
  Ensures act p (fun _ q => Ages n written p q) (fun _ q => Ages n written p q)

theorem Tends.mono {act : Action α} (h : Tends n written p act) (hn : n ≤ m)
    (hwritten : written ⊆ written') : Tends m written' p act :=
  Ensures.mono h (fun _ _ hq => hq.mono hn hwritten) fun _ _ hq => hq.mono hn hwritten

theorem Tends.of_le {act : Action α} (h : Tends n written p act) (hn : n ≤ m) :
    Tends m written p act :=
  h.mono hn (Set.Subset.refl _)

/-- What two actions do to the memory adds up. The second one starts where the first one has ended,
so whatever is known of that is known of its start. -/
theorem Tends.bind {act : Action α} {f : α → Action β} (hact : Tends n written p act)
    (hf : ∀ a q, act p = .ok a q → q.heap.Fits → Tends m written q (f a)) :
    Tends (m + n) written p (act >>= f) := by
  rw [Tends, ensures_bind]
  refine (Ensures.and hact (ensures_result act p)).mono ?_ ?_
  · rintro a q ⟨hpq, hrun⟩
    exact Ensures.mono (hf a q hrun hpq.heap.fits) (fun _ _ hqr => hqr.trans hpq)
      fun _ _ hqr => hqr.trans hpq
  · exact fun _ q ⟨hpq, _⟩ => hpq.of_le (Nat.le_add_left n m)

theorem tends_pure (hfits : p.heap.Fits) (a : α) : Tends 0 written p (pure a : Action α) :=
  .refl hfits written

/-- Looking something up leaves the memory as it is. -/
theorem tends_look {f : α → Action β} (hfits : p.heap.Fits) (result : Except Fault α)
    (hf : ∀ a, result = .ok a → Tends n written p (f a)) :
    Tends n written p (ofExcept result >>= f) := by
  rw [Tends, ensures_bind, ensures_ofExcept]
  exact ⟨hf, fun _ _ => Ages.same hfits⟩

/-- What is attempted does to the memory what it would do. -/
theorem Tends.attempt {act : Action α} (h : Tends n written p act) :
    Tends n written p (attempt act) := by
  rw [Tends, ensures_attempt]
  exact h

/-! ### Actions that leave the memory alone -/

/-- The action touches neither heap nor mailbox. -/
def Leaves (p : Actor) (act : Action α) : Prop :=
  Ensures act p (fun _ q => q.heap = p.heap ∧ q.mailbox = p.mailbox)
    (fun _ q => q.heap = p.heap ∧ q.mailbox = p.mailbox)

theorem Leaves.tends {act : Action α} (h : Leaves p act) (hfits : p.heap.Fits)
    (written : Set Handle) : Tends 0 written p act :=
  Ensures.mono h (fun _ _ hq => .of_eq hfits hq.1 hq.2) fun _ _ hq => .of_eq hfits hq.1 hq.2

theorem Leaves.bind {act : Action α} {f : α → Action β} (hact : Leaves p act)
    (hf : ∀ a q, Leaves q (f a)) : Leaves p (act >>= f) := by
  rw [Leaves, ensures_bind]
  refine Ensures.mono hact ?_ fun _ _ => id
  rintro a q ⟨hheap, hmailbox⟩
  rw [← hheap, ← hmailbox]
  exact hf a q

theorem leaves_pure (a : α) : Leaves p (pure a : Action α) :=
  ⟨rfl, rfl⟩

theorem leaves_look {f : α → Action β} (result : Except Fault α)
    (hf : ∀ a, Leaves p (f a)) : Leaves p (ofExcept result >>= f) := by
  rw [Leaves, ensures_bind, ensures_ofExcept]
  exact ⟨fun a _ => hf a, fun _ _ => ⟨rfl, rfl⟩⟩

/-- What happens on the stack has to do with neither. -/
theorem leaves_onStack (act : Stack.Action α) : Leaves p (onStack act) := by
  rw [Leaves, ensures_onStack]
  exact (ensures_result act p.stack).mono (fun _ _ _ => ⟨rfl, rfl⟩) fun _ _ _ => ⟨rfl, rfl⟩

theorem leaves_forM_push (vs : List Value) : Leaves p (vs.forM push) := by
  induction vs generalizing p with
  | nil => exact leaves_pure ()
  | cons v vs ih => exact (leaves_onStack _).bind fun _ _ => ih

/-- A call of a function lays out its locals on the stack. -/
theorem leaves_enter (calleeSlot nargs : Nat) (guarded : Bool) :
    Leaves p (enter calleeSlot nargs guarded) := by
  refine leaves_look (p.enterable calleeSlot nargs) fun entry => ?_
  refine (leaves_onStack _).bind fun _ q => ?_
  exact (leaves_forM_push _).bind fun _ _ => ⟨rfl, rfl⟩

/-! ### Making room -/

/-- A sweep gives bytes back. -/
theorem available_le_sweepSlot (marks : Array Bool) (freed index : Nat) (h : Heap) :
    h.available ≤ (Heap.sweepSlot marks (freed, h) index).2.available := by
  rw [Heap.sweepSlot]
  split
  next generation object _ =>
    split
    next => exact Nat.le_refl _
    next =>
      rw [Heap.release]
      split
      next => exact Nat.le_refl _
      next => exact Nat.sub_le_sub_left (Nat.sub_le _ _) _
  next => exact Nat.le_refl _

/-- So does a collection. -/
theorem available_le_collect (h : Heap) (roots : List Value) :
    h.available ≤ (h.collect roots).2.available := by
  have hfold : ∀ (indices : List Nat) (freed : Nat) (t : Heap), t.available ≤
      (indices.foldl (Heap.sweepSlot (h.marksFrom roots)) (freed, t)).2.available := by
    intro indices
    induction indices with
    | nil => exact fun _ _ => Nat.le_refl _
    | cons index indices ih =>
      exact fun freed t => (available_le_sweepSlot _ freed index t).trans (ih _ _)
  exact hfold (List.range h.slots.size) 0
    { h with stats := { h.stats with collections := h.stats.collections + 1 } }

/-- After a collection there is room for this many bytes. -/
def HasRoomFor (p : Actor) (bytes : Nat) : Prop :=
  bytes ≤ (p.heap.collect p.roots).2.available

instance (p : Actor) (bytes : Nat) : Decidable (p.HasRoomFor bytes) :=
  inferInstanceAs (Decidable (bytes ≤ _))

/-- Room can be made exactly if there is enough of it after a collection, which makes the heap older
by one loss. -/
theorem prepareHeap_ages (hp : p.Sound) (hfits : p.heap.Fits) (bytes : Nat) :
    Ensures (prepareHeap bytes) p
      (fun _ q => p.HasRoomFor bytes ∧ ∃ heap, q = { p with heap } ∧ q.Sound ∧
        Heap.Ages 1 ∅ p.heap heap ∧ bytes ≤ heap.available)
      (fun _ q => ¬ p.HasRoomFor bytes ∧ ∃ heap, q = { p with heap } ∧ q.Sound ∧
        Heap.Ages 1 ∅ p.heap heap) := by
  rw [prepareHeap, ensures_bind, ensures_get]
  dsimp only
  by_cases hdue : (p.heap.shouldCollect || decide (p.heap.available < bytes)) = true
  · rw [if_pos hdue, ensures_bind, ensures_discard, ensures_collectGarbage, ensures_onHeap,
      Heap.ensures_reserve]
    have hq := sound_collectGarbage hp
    have hages := Heap.ages_collect hp.heap hfits p.roots
    exact ⟨fun hroom => ⟨hroom, _, rfl, hq, hages, hroom⟩,
      fun hshort => ⟨Nat.not_le.2 hshort, _, rfl, hq, hages⟩⟩
  · rw [if_neg hdue, ensures_onHeap, Heap.ensures_reserve]
    -- Without a collection there was room before, and one would only have given back more.
    have hages : Heap.Ages 1 ∅ p.heap p.heap := .same hfits
    refine ⟨fun hroom => ⟨hroom.trans (available_le_collect _ _), _, rfl, hp, hages, hroom⟩,
      fun hshort => absurd ?_ hdue⟩
    rw [decide_eq_true hshort, Bool.or_true]

theorem tends_prepareHeap (hp : p.Sound) (hfits : p.heap.Fits) (bytes : Nat) :
    Tends 1 ∅ p (prepareHeap bytes) := by
  refine (prepareHeap_ages hp hfits bytes).mono ?_ ?_
  · rintro _ _ ⟨-, heap, rfl, -, hages, -⟩
    exact ⟨hages, .refl _⟩
  · rintro _ _ ⟨-, heap, rfl, -, hages⟩
    exact ⟨hages, .refl _⟩

/-- After room was made the actor is sound. -/
theorem sound_of_prepareHeap (hp : p.Sound) {bytes : Nat} {a : Unit}
    (h : prepareHeap bytes p = .ok a q) : q.Sound := by
  obtain ⟨heap, rfl, hq, -⟩ := (works_prepareHeap hp bytes).of_ok h
  exact hq

/-- What ages the heap ages the memory. -/
theorem tends_onHeap {act : Heap.Action α}
    (h : Ensures act p.heap (fun _ t => Heap.Ages n written p.heap t)
      fun _ t => Heap.Ages n written p.heap t) : Tends n written p (onHeap act) := by
  rw [Tends, ensures_onHeap]
  exact h.mono (fun _ _ hages => ⟨hages, .refl _⟩) fun _ _ hages => ⟨hages, .refl _⟩

/-- Allocating an object other than a buffer only adds to the heap. -/
theorem tends_alloc (hp : p.Sound) (hfits : p.heap.Fits) (object : HeapObject)
    (hbuffer : object.kind ≠ .buffer)
    (hups : ∀ routine upvalues, object = .closure routine upvalues →
      ∀ v ∈ upvalues, p.heap.Backs v) {bytes : Nat} (hbytes : object.charge = bytes) :
    Tends 0 ∅ p (onHeap (do Heap.reserve bytes; Heap.insert object)) :=
  tends_onHeap ((Heap.alloc_spec hp.heap hfits object hbuffer hups hbytes).mono
    (fun _ _ h => h.1.ages) fun _ _ h => h.ages)

theorem tends_pushString (hp : p.Sound) (hfits : p.heap.Fits) (text : String) :
    Tends 1 ∅ p (pushString text) := by
  refine (tends_prepareHeap hp hfits _).bind fun _ q hq hfits' => ?_
  have hsound := sound_of_prepareHeap hp hq
  refine (tends_alloc hsound hfits' (.string text) (by simp [HeapObject.kind]) (by simp) rfl).bind
    fun r s _ hfits'' => ?_
  exact (leaves_onStack _).tends hfits'' ∅

/-! ### Recovery -/

theorem tends_pushError (hp : p.Sound) (hfits : p.heap.Fits) (fault : Fault) :
    Tends 1 ∅ p (pushError fault) := by
  refine (tends_pushString hp hfits fault.message).attempt.bind fun result q _ hfits' => ?_
  cases result with
  | ok _ => exact tends_pure hfits' ()
  | error _ =>
    rw [Tends, ensures_discard]
    exact ((leaves_onStack _).tends hfits' ∅).attempt

/-- Reporting a fault may collect once, to make room for the message. -/
theorem tends_pushFailure (hp : p.Sound) (hfits : p.heap.Fits) (fault : Fault) :
    Tends 1 ∅ p (pushFailure fault) := by
  refine ((leaves_onStack _).tends hfits ∅).bind fun _ q hq hfits' => ?_
  exact tends_pushError ((push_spec (v := .bool false) hp trivial).of_ok hq).sound hfits' fault

/-- What cuts the stack down and changes neither heap nor mailbox can be followed by a report. -/
theorem tends_failure (hp : p.Sound) (hfits : p.heap.Fits) (fault : Fault) (slot : Nat)
    (hheap : q.heap = p.heap) (hmailbox : q.mailbox = p.mailbox)
    (hstack : q.stack = p.stack.truncate slot) :
    Ensures (pushFailure fault) q (fun _ r => Ages 1 ∅ p r) fun _ r => Ages 1 ∅ p r := by
  have hq : q.Sound := (hp.truncate slot).congr hheap hstack hmailbox
  have hpq : Ages 0 ∅ p q := .of_eq hfits hheap hmailbox
  exact Ensures.mono (tends_pushFailure hq hpq.heap.fits fault) (fun _ _ hqr => hqr.trans hpq)
    fun _ _ hqr => hqr.trans hpq

theorem tends_unwind (hp : p.Sound) (hfits : p.heap.Fits) (fault : Fault) :
    Tends 1 ∅ p (unwind fault) := by
  rw [Tends, unwind, ensures_bind, ensures_get]
  split
  next => exact Ages.same hfits
  next f outer _ =>
    rw [ensures_bind, truncateStack, ensures_modify, ensures_bind, ensures_modify]
    exact tends_failure hp hfits fault f.calleeSlot rfl rfl rfl

theorem tends_failProtectedCall (hp : p.Sound) (hfits : p.heap.Fits) (fault : Fault) :
    Tends 1 ∅ p (failProtectedCall fault) := by
  rw [Tends, failProtectedCall, ensures_bind, ensures_onStack, Stack.ensures_pop]
  refine ⟨fun _ => tends_failure hp hfits fault (p.stack.size - 2) rfl rfl rfl, fun _ => ?_⟩
  exact Ages.same hfits

/-! ### Messages -/

/-- After a collection there is room for what a payload costs. -/
abbrev HasRoom (p : Actor) (payload : Payload) : Prop :=
  p.HasRoomFor payload.heapBytes

/-- A message for which there is room is appended to the mailbox and captures to what was delivered.
Any other message is dropped. -/
theorem deliver_takes (hp : p.Sound) (hfits : p.heap.Fits) (payload : Payload) :
    Ensures (deliver payload) p
      (fun _ q => p.HasRoom payload ∧ ∃ heap v, q = { p with heap, mailbox := p.mailbox.push v } ∧
        Heap.Ages 1 ∅ p.heap heap ∧ heap.Backs v ∧ Payload.capture heap v = .ok payload)
      (fun _ q => ¬ p.HasRoom payload ∧ ∃ heap, q = { p with heap } ∧
        Heap.Ages 1 ∅ p.heap heap) := by
  rw [deliver, ensures_bind]
  refine (prepareHeap_ages hp hfits payload.heapBytes).mono ?_ ?_
  · rintro _ _ ⟨hhas, heap, rfl, hq, hages, hroom⟩
    rw [ensures_bind, ensures_onHeap]
    refine (Payload.materialize_spec hq.heap hages.fits payload).mono ?_ ?_
    · rintro v heap' ⟨hgains, hv, depth, hdepth⟩
      rw [ensures_modify]
      exact ⟨hhas, heap', v, rfl, hgains.ages.trans hages, hv,
        Payload.capture_of_captureWithin hgains.sound hv hdepth⟩
    · -- The room that was made is the room that rebuilding takes.
      exact fun _ heap' hlacks => absurd hlacks.short (Nat.not_lt.2 hroom)
  · rintro _ _ ⟨hhas, heap, rfl, -, hages⟩
    exact ⟨hhas, heap, rfl, hages⟩

/-! ### Starting -/

theorem tends_forM_pushPayload (hp : p.Sound) (hfits : p.heap.Fits) (payloads : List Payload) :
    Tends 0 ∅ p (payloads.forM pushPayload) := by
  induction payloads generalizing p with
  | nil => exact tends_pure hfits ()
  | cons payload payloads ih =>
    have hfirst : Tends 0 ∅ p (pushPayload payload) := by
      refine (tends_onHeap ((Payload.materialize_spec hp.heap hfits payload).mono
        (fun _ _ h => h.1.ages) fun _ _ h => h.ages)).bind fun v q _ hfits' => ?_
      exact (leaves_onStack _).tends hfits' ∅
    refine hfirst.bind fun _ q hq hfits' => ?_
    exact ih ((pushPayload_spec hp payload).of_ok hq).sound hfits'

/-- An actor that has just been started has all bytes in use within the capacities and has got no
message. -/
theorem memory_of_start {pid : Pid} {config : ActorConfig} {callee : Payload} {args : List Payload}
    (h : start callee args (.create pid config) = .ok () p) :
    p.heap.Fits ∧ p.mailbox.toList = [] := by
  have hspec : Ensures (start callee args) (.create pid config)
      (fun _ q => q.heap.Fits ∧ q.mailbox.toList = []) fun _ _ => True := by
    rw [start, ensures_bind, ensures_get, ensures_bind, ensures_ofExcept]
    refine ⟨fun stack hstack => ?_, fun _ _ => trivial⟩
    obtain ⟨hvalues, hstackFits⟩ := withCapacity_spec hstack
    have hfresh : ({ create pid config with stack, frames := [] } : Actor).Sound := by
      refine ⟨Heap.sound_empty _, ?_, by simp [create], hstackFits⟩
      show ∀ v ∈ stack.toList, _
      simp [hvalues]
    rw [ensures_bind, ensures_modify]
    have hempty : ({ create pid config with stack, frames := [] } : Actor).heap.Fits :=
      Heap.fits_empty config.heap
    have hall := (tends_prepareHeap hfresh hempty
      (Payload.heapBytesAll (callee :: args))).bind fun _ q hq hfits =>
        (tends_forM_pushPayload (sound_of_prepareHeap hfresh hq) hfits (callee :: args)).bind
          fun _ _ _ hfits' => (leaves_enter 0 args.length false).tends hfits' ∅
    -- No step adds to the mailbox, which was empty at first.
    exact Ensures.mono hall (fun _ _ hq => ⟨hq.heap.fits, List.sublist_nil.1 hq.mailbox⟩)
      fun _ _ _ => trivial
  exact hspec.of_ok h

end ActorMachine.Actor
