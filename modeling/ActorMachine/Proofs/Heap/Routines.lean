import ActorMachine.Proofs.Content
import ActorMachine.Proofs.Heap.Closures

/-!
# The code that a heap holds

A heap gets to hold code only by the closures that are stored in it, and a payload takes no other
code out of it.

* `Knows`: the code of all closures of a heap is among what is known.
* `upholds_allocClosure`, `upholds_resizeBuffer` and so on: whatever is done to a heap, its code
  stays known, provided that the code of new closures is.
* `Payload.knows_of_capture`, `Payload.upholds_materialize`: payloads carry code from heap to heap.
-/

namespace ActorMachine

namespace Heap

variable {known : Set Routine} {h : Heap} {handle : Handle} {routine : Routine} {α : Type}

/-- The code of a heap is that of its closures. -/
theorem mem_routines : routine ∈ h.routines ↔
    ∃ handle upvalues, h.lookup? handle = some (.closure routine upvalues) := by
  rw [routines, List.mem_filterMap]
  constructor
  · rintro ⟨⟨generation, occupant⟩, hslot, hroutine⟩
    obtain ⟨i, hi, hget⟩ := List.getElem_of_mem hslot
    obtain ⟨object, rfl, hobject⟩ := Option.bind_eq_some_iff.1 hroutine
    cases object with
    | closure r upvalues =>
      obtain rfl := Option.some.inj hobject
      refine ⟨⟨i, generation⟩, upvalues, lookup?_eq_some_iff.2 ?_⟩
      rw [← Array.getElem?_toList, List.getElem?_eq_getElem hi, hget]
    | _ => cases hobject
  · rintro ⟨handle, upvalues, hlook⟩
    have hslot := lookup?_eq_some_iff.1 hlook
    rw [← Array.getElem?_toList] at hslot
    exact ⟨_, List.mem_of_getElem? hslot, rfl⟩

/-- The free slots are vacant, and the code of every closure is known. -/
structure Knows (known : Set Routine) (h : Heap) : Prop where
  /-- Free slots are vacant. -/
  freeList : h.FreeList
  /-- No closure has other code. -/
  code : ∀ {handle routine upvalues}, h.lookup? handle = some (.closure routine upvalues) →
    routine ∈ known

/-- That is, no closure is there but those whose code is known. -/
theorem knows_iff_encloses : Knows known h ↔ h.Encloses fun _ routine _ => routine ∈ known :=
  ⟨fun hh => ⟨hh.freeList, hh.code⟩, fun hh => ⟨hh.freeList, hh.closures⟩⟩

theorem knows_empty (config : HeapConfig) : Knows known (empty config) :=
  knows_iff_encloses.2 (encloses_empty config)

theorem Knows.routines (hh : Knows known h) : ∀ r ∈ h.routines, r ∈ known := by
  intro r hr
  obtain ⟨handle, upvalues, hlook⟩ := mem_routines.1 hr
  exact hh.code hlook

/-- A collection only releases objects. -/
theorem Knows.collect (hh : Knows known h) (roots : List Value) :
    Knows known (h.collect roots).2 :=
  knows_iff_encloses.2 ((knows_iff_encloses.1 hh).collect roots)

/-! ### Actions -/

/-- Which closures are there is all that matters. -/
theorem upholds_knows {act : Action α} {post : α → Prop}
    (hact : Upholds (Encloses fun _ routine _ => routine ∈ known) act post) :
    Upholds (Knows known) act post := by
  have heq : Knows known = Encloses fun _ routine _ => routine ∈ known :=
    funext fun _ => propext knows_iff_encloses
  rwa [heq]

theorem upholds_allocString (text : String) :
    Upholds (Knows known) (allocString text) fun _ => True :=
  upholds_knows (encloses_allocString text)

theorem upholds_allocFixed (size : Nat) :
    Upholds (Knows known) (allocFixed size) fun _ => True :=
  upholds_knows (encloses_allocFixed size)

theorem upholds_allocBuffer (capacity : Nat) :
    Upholds (Knows known) (allocBuffer capacity) fun _ => True :=
  upholds_knows (encloses_allocBuffer capacity)

theorem upholds_allocClosure (hroutine : routine ∈ known) (upvalues : Array Value) :
    Upholds (Knows known) (allocClosure routine upvalues) fun _ => True :=
  upholds_knows (encloses_allocClosure fun _ => hroutine)

theorem upholds_writeFixed (r : HeapRef) (position : Nat) (source : ByteArray) :
    Upholds (Knows known) (writeFixed r position source) fun _ => True :=
  upholds_knows (encloses_writeFixed r position source)

theorem upholds_writeBuffer (r : HeapRef) (position : Nat) (source : ByteArray) :
    Upholds (Knows known) (writeBuffer r position source) fun _ => True :=
  upholds_knows (encloses_writeBuffer r position source)

theorem upholds_reserveBuffer (r : HeapRef) (capacity : Nat) :
    Upholds (Knows known) (reserveBuffer r capacity) fun _ => True :=
  upholds_knows (encloses_reserveBuffer r capacity)

theorem upholds_resizeBuffer (r : HeapRef) (size : Nat) :
    Upholds (Knows known) (resizeBuffer r size) fun _ => True :=
  upholds_knows (encloses_resizeBuffer r size)

theorem upholds_shrinkBuffer (r : HeapRef) :
    Upholds (Knows known) (shrinkBuffer r) fun _ => True :=
  upholds_knows (encloses_shrinkBuffer r)

end Heap

/-! ### Payloads -/

namespace Payload

variable {known : Set Routine} {h : Heap}

/-- The code of a payload is known. -/
def Knows (known : Set Routine) (payload : Payload) : Prop :=
  ∀ r ∈ payload.routines, r ∈ known

theorem knows_routinesAll {payloads : List Payload} :
    (∀ r ∈ routinesAll payloads, r ∈ known) ↔ ∀ payload ∈ payloads, payload.Knows known := by
  induction payloads with
  | nil => simp [routinesAll]
  | cons payload payloads ih =>
    simp only [routinesAll, List.mem_append, or_imp, forall_and, ih, List.forall_mem_cons, Knows]

theorem knows_closure {routine : Routine} {upvalues : List Payload} :
    (closure routine upvalues).Knows known ↔
      routine ∈ known ∧ ∀ payload ∈ upvalues, payload.Knows known := by
  rw [← knows_routinesAll, Knows, routines, List.forall_mem_cons]

/-- What is captured has no code but that of closures of the heap. -/
theorem knows_of_captureWithin (hh : h.Knows known) {depth : Nat} {v : Value} {payload : Payload}
    (hcapture : captureWithin h depth v = pure payload) : payload.Knows known := by
  induction depth generalizing v payload with
  | zero =>
    cases v with
    | ref r => cases hcapture
    | _ =>
      obtain rfl := pure_inj hcapture
      exact List.forall_mem_nil _
  | succ depth ih =>
    cases v with
    | ref r =>
      rw [captureWithin] at hcapture
      obtain ⟨object, hobject, hcapture⟩ := bind_eq_pure_iff.1 hcapture
      have hlook := (Heap.deref_eq_ok_iff.1 (Option.some.inj hobject)).1
      cases object with
      -- Its own code is known by the heap, and that of its upvalues by induction.
      | closure routine upvalues =>
        obtain ⟨payloads, hpayloads, hclosure⟩ := bind_eq_pure_iff.1 hcapture
        obtain rfl := pure_inj hclosure
        refine knows_closure.2 ⟨hh.code hlook, fun payload hmem => ?_⟩
        obtain ⟨i, hi, rfl⟩ := List.getElem_of_mem hmem
        have hall := mapM_eq_pure_iff.1 hpayloads
        exact ih (hall.get (hall.length_eq ▸ hi) hi)
      | buffer header =>
        obtain ⟨bytes, -, hbuffer⟩ := bind_eq_pure_iff.1 hcapture
        obtain rfl := pure_inj hbuffer
        exact List.forall_mem_nil _
      | fixedBuffer | string =>
        obtain rfl := pure_inj hcapture
        exact List.forall_mem_nil _
    | _ =>
      obtain rfl := pure_inj hcapture
      exact List.forall_mem_nil _

theorem knows_of_capture (hh : h.Knows known) {v : Value} {payload : Payload}
    (hcapture : capture h v = .ok payload) : payload.Knows known :=
  knows_of_captureWithin hh (captureWithin_of_capture hcapture)

mutual

/-- What is rebuilt brings its own code with it. -/
theorem upholds_materialize {payload : Payload} (hpayload : payload.Knows known) :
    Upholds (Heap.Knows known) payload.materialize fun _ => True := by
  cases payload with
  | nil | bool | int | real | pid | native =>
    rw [materialize]
    exact upholds_pure trivial
  | string text =>
    rw [materialize]
    exact (Heap.upholds_allocString text).map fun _ _ => trivial
  | fixedBuffer bytes =>
    rw [materialize]
    refine (Heap.upholds_allocFixed _).bind fun r _ => ?_
    exact (Heap.upholds_writeFixed r _ _).bind fun _ _ => upholds_pure trivial
  | buffer bytes =>
    rw [materialize]
    refine (Heap.upholds_allocBuffer _).bind fun r _ => ?_
    refine (Heap.upholds_resizeBuffer r _).bind fun _ _ => ?_
    exact (Heap.upholds_writeBuffer r _ _).bind fun _ _ => upholds_pure trivial
  | closure routine upvalues =>
    rw [materialize]
    obtain ⟨hroutine, hupvalues⟩ := knows_closure.1 hpayload
    refine (upholds_materializeAll hupvalues).bind fun values _ => ?_
    exact (Heap.upholds_allocClosure hroutine _).map fun _ _ => trivial

theorem upholds_materializeAll {payloads : List Payload}
    (hpayloads : ∀ payload ∈ payloads, payload.Knows known) :
    Upholds (Heap.Knows known) (materializeAll payloads) fun _ => True := by
  cases payloads with
  | nil =>
    rw [materializeAll]
    exact upholds_pure trivial
  | cons payload payloads =>
    rw [materializeAll]
    obtain ⟨hpayload, hpayloads⟩ := List.forall_mem_cons.1 hpayloads
    refine (upholds_materialize hpayload).bind fun _ _ => ?_
    exact (upholds_materializeAll hpayloads).bind fun _ _ => upholds_pure trivial

end

end Payload

end ActorMachine
