import ActorMachine.Proofs.Payload
import ActorMachine.Proofs.Stack
import ActorMachine.Actor.Basic

/-!
# Sound actors

The invariant of an actor and the frame of what happens inside one of its calls.

* `Sound`: the heap of the actor is sound and backs its roots, and its stack fits.
* `Keeps n p q`: from `p` to `q` the actor has stayed sound, has kept its calls and the lowest `n`
  values of its stack, and has given back no room. Most of what an actor does is of this kind.
* `Works`: what only concerns the heap. Making room may collect, so the values that matter have to
  be roots meanwhile; that they are is what `Sound` is about.
-/

namespace ActorMachine.Actor

variable {p q : Actor} {n : Nat} {v : Value} {α β : Type}

/-- Everything that an actor can refer to is there, and its stack fits. -/
structure Sound (p : Actor) : Prop where
  /-- The heap is sound. -/
  heap : p.heap.Sound
  /-- What is on the stack is backed. -/
  stack : ∀ v ∈ p.stack.toList, p.heap.Backs v
  /-- What is in the mailbox is backed. -/
  mailbox : ∀ v ∈ p.mailbox.toList, p.heap.Backs v
  /-- The stack fits. -/
  fits : p.stack.Fits

/-- The roots of a sound actor are backed. -/
theorem Sound.roots (hp : p.Sound) : ∀ v ∈ p.roots, p.heap.Backs v := by
  intro v hv
  rcases List.mem_append.1 hv with hv | hv
  · exact hp.stack v hv
  · exact hp.mailbox v hv

/-- An actor stays sound in a sound heap that backs its roots. -/
theorem Sound.withHeap (hp : p.Sound) {heap : Heap} (hheap : heap.Sound)
    (hroots : ∀ v ∈ p.roots, p.heap.Backs v → heap.Backs v) : ({ p with heap } : Actor).Sound where
  heap := hheap
  stack v hv := hroots v (List.mem_append_left _ hv) (hp.stack v hv)
  mailbox v hv := hroots v (List.mem_append_right _ hv) (hp.mailbox v hv)
  fits := hp.fits

/-- An actor stays sound with a fitting stack of backed values. -/
theorem Sound.withStack (hp : p.Sound) {stack : Stack} (hstack : ∀ v ∈ stack.toList, p.heap.Backs v)
    (hfits : stack.Fits) : ({ p with stack } : Actor).Sound where
  heap := hp.heap
  stack := hstack
  mailbox := hp.mailbox
  fits := hfits

/-- What neither the heap nor the stack nor the mailbox has to do with leaves the actor sound. -/
theorem Sound.congr (hp : p.Sound) (hheap : q.heap = p.heap) (hstack : q.stack = p.stack)
    (hmailbox : q.mailbox = p.mailbox) : q.Sound where
  heap := hheap ▸ hp.heap
  stack := by
    rw [hstack, hheap]
    exact hp.stack
  mailbox := by
    rw [hmailbox, hheap]
    exact hp.mailbox
  fits := hstack ▸ hp.fits

/-- The same actor, with the same settings; the scheduler has noted nothing new about it. -/
abbrev Same (p q : Actor) : Prop :=
  q.pid = p.pid ∧ q.state = p.state ∧ q.config = p.config ∧ q.wait = p.wait

theorem Same.refl (p : Actor) : Same p p :=
  ⟨rfl, rfl, rfl, rfl⟩

theorem Same.trans {r : Actor} (hqr : Same q r) (hpq : Same p q) : Same p r := by
  obtain ⟨hpid, hstate, hconfig, hwait⟩ := hqr
  obtain ⟨hpid', hstate', hconfig', hwait'⟩ := hpq
  exact ⟨hpid.trans hpid', hstate.trans hstate', hconfig.trans hconfig', hwait.trans hwait'⟩

/-- What happens inside a call: the actor stays sound, its calls and the lowest `n` values of its
stack stay the same, and it gives back no room. -/
structure Keeps (n : Nat) (p q : Actor) : Prop where
  /-- The actor is sound afterwards. -/
  sound : q.Sound
  /-- It is the same actor. -/
  same : Same p q
  /-- Its calls have not changed. -/
  frames : q.frames = p.frames
  /-- What it asks of the scheduler has not changed. -/
  request : q.request = p.request
  /-- No room was given back. -/
  capacity : p.stack.capacity ≤ q.stack.capacity
  /-- The lowest values are untouched. -/
  below : q.stack.toList.take n = p.stack.toList.take n

namespace Keeps

theorem refl (n : Nat) (hp : p.Sound) : Keeps n p p :=
  ⟨hp, ⟨rfl, rfl, rfl, rfl⟩, rfl, rfl, Nat.le_refl _, rfl⟩

theorem trans {r : Actor} (hqr : Keeps n q r) (hpq : Keeps n p q) : Keeps n p r := by
  exact ⟨hqr.sound, hqr.same.trans hpq.same, hqr.frames.trans hpq.frames,
    hqr.request.trans hpq.request, Nat.le_trans hpq.capacity hqr.capacity,
    hqr.below.trans hpq.below⟩

/-- What keeps the lowest values keeps the lowest of them. -/
theorem mono {m : Nat} (h : Keeps n p q) (hmn : m ≤ n) : Keeps m p q := by
  refine ⟨h.sound, h.same, h.frames, h.request, h.capacity, ?_⟩
  have hbelow := congrArg (List.take m) h.below
  rwa [List.take_take, List.take_take, Nat.min_eq_left hmn] at hbelow

/-- The values that are kept are still there. -/
theorem le_size (h : Keeps n p q) (hn : n ≤ p.stack.size) : n ≤ q.stack.size := by
  have hlen := congrArg List.length h.below
  rw [List.length_take, List.length_take, Stack.length_toList, Stack.length_toList] at hlen
  omega

end Keeps

/-- A change of the heap keeps everything else. -/
theorem keeps_heap {heap : Heap} (h : ({ p with heap } : Actor).Sound) (n : Nat) :
    Keeps n p { p with heap } :=
  ⟨h, ⟨rfl, rfl, rfl, rfl⟩, rfl, rfl, Nat.le_refl _, rfl⟩

/-- A change of the stack above its lowest values keeps them. -/
theorem keeps_stack {stack : Stack} (h : ({ p with stack } : Actor).Sound)
    (hcapacity : p.stack.capacity ≤ stack.capacity)
    (hbelow : stack.toList.take n = p.stack.toList.take n) : Keeps n p { p with stack } :=
  ⟨h, ⟨rfl, rfl, rfl, rfl⟩, rfl, rfl, hcapacity, hbelow⟩

/-- With no other values in the mailbox than before everything is kept. -/
theorem keeps_mailbox (hp : p.Sound) (mailbox : Mailbox)
    (hsub : ∀ v ∈ mailbox.toList, v ∈ p.mailbox.toList) (n : Nat) :
    Keeps n p { p with mailbox } :=
  ⟨⟨hp.heap, hp.stack, fun v hv => hp.mailbox v (hsub v hv), hp.fits⟩, ⟨rfl, rfl, rfl, rfl⟩, rfl,
    rfl, Nat.le_refl _, rfl⟩

/-! ### Working on the heap -/

/-- The action works on the heap alone and leaves the actor sound; `post` holds of its result. -/
def Works (p : Actor) (act : Action α) (post : α → Heap → Prop) : Prop :=
  Ensures act p (fun a q => ∃ heap, q = { p with heap } ∧ q.Sound ∧ post a heap)
    (fun _ q => ∃ heap, q = { p with heap } ∧ q.Sound)

theorem Works.bind {act : Action α} {f : α → Action β} {mid : α → Heap → Prop}
    {post : β → Heap → Prop} (hact : p.Works act mid)
    (hf : ∀ a heap, ({ p with heap } : Actor).Sound → mid a heap →
      ({ p with heap } : Actor).Works (f a) post) :
    p.Works (act >>= f) post := by
  rw [Works, ensures_bind]
  refine Ensures.mono hact ?_ (fun _ _ => id)
  rintro a _ ⟨heap, rfl, hq, hmid⟩
  exact hf a heap hq hmid

theorem works_pure {post : α → Heap → Prop} (hp : p.Sound) {a : α} (ha : post a p.heap) :
    p.Works (pure a) post :=
  ⟨p.heap, rfl, hp, ha⟩

/-- Looking something up changes nothing, whether it is there or not. -/
theorem works_look {f : α → Action β} {post : β → Heap → Prop} (hp : p.Sound)
    (result : Except Fault α) (hf : ∀ a, result = .ok a → p.Works (f a) post) :
    p.Works (ofExcept result >>= f) post := by
  rw [Works, ensures_bind, ensures_ofExcept]
  exact ⟨hf, fun _ _ => ⟨p.heap, rfl, hp⟩⟩

/-- A safe action of the heap is safe for the actor, for it goes on backing the roots. -/
theorem works_onHeap {act : Heap.Action α} {post : α → Heap → Prop} (hp : p.Sound)
    (hact : p.heap.SafeAt act post) : p.Works (onHeap act) post := by
  rw [Works, ensures_onHeap]
  refine Ensures.mono hact ?_ ?_
  · rintro a heap ⟨hheap, hcarries, hpost⟩
    exact ⟨heap, rfl, hp.withHeap hheap fun v _ => hcarries v, hpost⟩
  · rintro _ heap ⟨hheap, hcarries⟩
    exact ⟨heap, rfl, hp.withHeap hheap fun v _ => hcarries v⟩

/-- A collection leaves a sound actor sound. -/
theorem sound_collectGarbage (hp : p.Sound) :
    ({ p with heap := (p.heap.collect p.roots).2 } : Actor).Sound := by
  obtain ⟨hheap, hroots⟩ := Heap.sound_collect hp.heap p.roots
  exact hp.withHeap hheap hroots

/-- Room is made, or there is too little of it even after a collection. -/
theorem prepareHeap_spec (hp : p.Sound) (bytes : Nat) :
    Ensures (prepareHeap bytes) p
      (fun _ q => ∃ heap, q = { p with heap } ∧ q.Sound ∧ bytes ≤ heap.available)
      (fun _ q => q = { p with heap := (p.heap.collect p.roots).2 } ∧ q.Sound ∧
        q.heap.available < bytes) := by
  rw [prepareHeap, ensures_bind, ensures_get]
  dsimp only
  -- If room is missing a collection is due, so without one there was room.
  by_cases hdue : (p.heap.shouldCollect || decide (p.heap.available < bytes)) = true
  · rw [if_pos hdue, ensures_bind, ensures_discard, ensures_collectGarbage, ensures_onHeap,
      Heap.ensures_reserve]
    have hq := sound_collectGarbage hp
    exact ⟨fun hroom => ⟨_, rfl, hq, hroom⟩, fun hshort => ⟨rfl, hq, hshort⟩⟩
  · rw [if_neg hdue, ensures_onHeap, Heap.ensures_reserve]
    refine ⟨fun hroom => ⟨p.heap, rfl, hp, hroom⟩, fun hshort => absurd ?_ hdue⟩
    rw [decide_eq_true hshort, Bool.or_true]

theorem works_prepareHeap (hp : p.Sound) (bytes : Nat) :
    p.Works (prepareHeap bytes) fun _ _ => True := by
  refine Ensures.mono (prepareHeap_spec hp bytes) ?_ ?_
  · rintro _ _ ⟨heap, rfl, hq, -⟩
    exact ⟨heap, rfl, hq, trivial⟩
  · rintro _ _ ⟨rfl, hq, -⟩
    exact ⟨_, rfl, hq⟩

/-! ### Putting values on the stack -/

/-- From `p` to `q` some values were put on the stack and nothing else has happened. -/
def Extends (vs : List Value) (p q : Actor) : Prop :=
  ∃ stack, q = { p with stack } ∧ stack.toList = p.stack.toList ++ vs ∧
    p.stack.capacity ≤ stack.capacity ∧ q.Sound

namespace Extends

theorem trans {vs ws : List Value} {r : Actor} (hqr : Extends ws q r) (hpq : Extends vs p q) :
    Extends (vs ++ ws) p r := by
  obtain ⟨stack, rfl, hstack, hcap, -⟩ := hpq
  obtain ⟨stack', rfl, hstack', hcap', hr⟩ := hqr
  exact ⟨stack', rfl, by rw [hstack', hstack, List.append_assoc], Nat.le_trans hcap hcap', hr⟩

theorem sound {vs : List Value} (h : Extends vs p q) : q.Sound := by
  obtain ⟨-, -, -, -, hq⟩ := h
  exact hq

theorem heap_eq {vs : List Value} (h : Extends vs p q) : q.heap = p.heap := by
  obtain ⟨stack, rfl, -⟩ := h
  rfl

theorem toList_eq {vs : List Value} (h : Extends vs p q) :
    q.stack.toList = p.stack.toList ++ vs := by
  obtain ⟨stack, rfl, hstack, -⟩ := h
  exact hstack

/-- What is put on top keeps all values below. -/
theorem keeps {vs : List Value} (h : Extends vs p q) (hn : n ≤ p.stack.size) : Keeps n p q := by
  obtain ⟨stack, rfl, hstack, hcap, hq⟩ := h
  refine keeps_stack hq hcap ?_
  rw [hstack, List.take_append_of_le_length]
  rwa [Stack.length_toList]

end Extends

/-- A backed value goes on top of the stack, unless the room there is used up. -/
theorem push_spec (hp : p.Sound) (hv : p.heap.Backs v) :
    Ensures (push v) p (fun _ q => Extends [v] p q)
      (fun _ q => q = p ∧ p.stack.size = p.stack.capacity) := by
  rw [push, ensures_onStack]
  refine Ensures.mono (Stack.push_spec hp.fits v) ?_ ?_
  · rintro _ stack ⟨capacity, rfl, hcap, hfits, -⟩
    refine ⟨_, rfl, Stack.toList_pushed _ _ _, hcap, hp.withStack ?_ hfits⟩
    rw [Stack.toList_pushed]
    intro w hw
    rcases List.mem_append.1 hw with hw | hw
    · exact hp.stack w hw
    · rwa [List.mem_singleton.1 hw]
  · rintro _ stack ⟨rfl, hfull, -⟩
    exact ⟨rfl, hfull⟩

/-- Below the capacity a push does not fail. -/
theorem push_room (hp : p.Sound) (hv : p.heap.Backs v) (hroom : p.stack.size < p.stack.capacity) :
    Ensures (push v) p (fun _ q => Extends [v] p q) (fun _ _ => False) := by
  refine Ensures.mono (push_spec hp hv) (fun _ _ => id) ?_
  rintro _ _ ⟨-, hfull⟩
  omega

/-- Values for which there is room go on top of the stack one after the other. -/
theorem forM_push_room {vs : List Value} (hfits : p.stack.Fits)
    (hroom : p.stack.size + vs.length ≤ p.stack.capacity) :
    Ensures (vs.forM push) p
      (fun _ q => ∃ stack, q = { p with stack } ∧ stack.toList = p.stack.toList ++ vs ∧
        p.stack.capacity ≤ stack.capacity ∧ stack.Fits)
      (fun _ _ => False) := by
  induction vs generalizing p with
  | nil => exact ⟨p.stack, rfl, (List.append_nil _).symm, Nat.le_refl _, hfits⟩
  | cons v vs ih =>
    rw [List.length_cons] at hroom
    show Ensures (push v >>= fun _ => vs.forM push) p _ _
    rw [ensures_bind, push, ensures_onStack]
    refine (Stack.push_spec hfits v).mono ?_ ?_
    · rintro _ _ ⟨capacity, rfl, hcap, hfits', -⟩
      -- The room that is left is enough for the values that are left.
      have hleft : p.stack.size + 1 + vs.length ≤ p.stack.capacity := by omega
      rw [← Stack.size_pushed p.stack v capacity] at hleft
      refine (ih hfits' (Nat.le_trans hleft hcap)).mono ?_ (fun _ _ => id)
      rintro _ _ ⟨stack, rfl, hstack, hcap', hstack'⟩
      refine ⟨stack, rfl, ?_, Nat.le_trans hcap hcap', hstack'⟩
      rw [hstack, Stack.toList_pushed, List.append_assoc, List.singleton_append]
    · rintro _ _ ⟨-, hfull, -⟩
      omega

/-- A string goes on top of the stack, unless the room there is used up or there is too little of
it in the heap. -/
theorem pushString_spec (hp : p.Sound) (text : String) :
    Ensures (pushString text) p
      (fun _ q => ∃ heap r, ({ p with heap } : Actor).Sound ∧ heap.string r = .ok text ∧
        Extends [.ref r] { p with heap } q)
      (fun _ q => ∃ heap, q = { p with heap } ∧ q.Sound ∧
        (p.stack.size = p.stack.capacity ∨
          heap.available < text.utf8ByteSize ∧ heap.sinceCollection = 0)) := by
  rw [pushString, ensures_bind]
  refine Ensures.mono (prepareHeap_spec hp _) ?_ ?_
  · rintro _ _ ⟨heap, rfl, hq, hroom⟩
    rw [ensures_bind, ensures_onHeap]
    -- There is room now, so only the stack can still be full.
    refine Ensures.mono (Heap.allocString_spec hq.heap hroom) ?_ (fun _ _ => False.elim)
    rintro r heap' ⟨hheap', hcarries, hbacks, htext⟩
    have hq' : ({ p with heap := heap' } : Actor).Sound :=
      hq.withHeap hheap' fun v _ => hcarries v
    refine Ensures.mono (push_spec hq' hbacks) ?_ ?_
    · intro _ r' hr'
      exact ⟨heap', r, hq', htext, hr'⟩
    · rintro _ _ ⟨rfl, hfull⟩
      exact ⟨heap', rfl, hq', .inl hfull⟩
  · rintro _ _ ⟨rfl, hq, hshort⟩
    exact ⟨_, rfl, hq, .inr ⟨hshort, rfl⟩⟩

end ActorMachine.Actor
