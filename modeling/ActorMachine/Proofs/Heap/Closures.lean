import ActorMachine.Proofs.Heap.Ages
import ActorMachine.Proofs.Heap.Operations

/-!
# The closures of a heap

Closures come into a heap by being allocated, and stay what they are until they are released. No
operation on buffers makes a closure of anything, and none changes one.

* `Encloses`: all closures of a heap are among those that are known. Single changes keep this up
  (`Encloses.store`, `Encloses.release`, `Encloses.update`), and so do all actions on a heap
  (`encloses_resizeBuffer` and so on), provided that new closures are known.
* `closure_of_after`: a closure was there before an operation, or it is the one that the operation
  has allocated.
-/

namespace ActorMachine.Heap

variable {known : Handle → Routine → Array Value → Prop} {h t : Heap} {x handle : Handle}
  {routine : Routine} {upvalues : Array Value} {op : Operation} {α : Type}

/-- Free slots are vacant, and every closure is known by its handle, its routine and its upvalues. -/
structure Encloses (known : Handle → Routine → Array Value → Prop) (h : Heap) : Prop where
  /-- Free slots are vacant. -/
  freeList : h.FreeList
  /-- There are no other closures. -/
  closures : ∀ {x routine upvalues}, h.lookup? x = some (.closure routine upvalues) →
    known x routine upvalues

theorem encloses_empty (config : HeapConfig) : Encloses known (empty config) where
  freeList := ⟨List.nodup_nil, by simp [empty]⟩
  closures := by simp [lookup?, empty]

/-- The closures of a heap are those that it has. -/
theorem encloses_self (hfree : h.FreeList) :
    Encloses (fun x routine upvalues => h.lookup? x = some (.closure routine upvalues)) h :=
  ⟨hfree, id⟩

/-! ### Single changes -/

theorem Encloses.store (hh : Encloses known h) {object : HeapObject}
    (hobject : ∀ routine upvalues, object = .closure routine upvalues →
      known h.nextHandle routine upvalues) : Encloses known (h.store object).2 where
  freeList := freeList_store hh.freeList
  closures hlook := by
    rw [lookup?_store hh.freeList] at hlook
    split at hlook
    next heq => exact heq ▸ hobject _ _ (Option.some.inj hlook)
    next => exact hh.closures hlook

theorem Encloses.release (hh : Encloses known h) (handle : Handle) :
    Encloses known (h.release handle) where
  freeList := freeList_release hh.freeList
  closures hlook := by
    rw [lookup?_release] at hlook
    split at hlook
    next => cases hlook
    next => exact hh.closures hlook

/-- A change that makes no closure of anything adds none. -/
theorem Encloses.update (hh : Encloses known h) {change : HeapObject → HeapObject}
    (hchange : ∀ object routine upvalues, change object = .closure routine upvalues →
      object = .closure routine upvalues) (handle : Handle) :
    Encloses known (h.update handle change) where
  freeList := freeList_update change hh.freeList
  closures hlook := by
    rw [lookup?_update] at hlook
    split at hlook
    next =>
      obtain ⟨object, hobject, heq⟩ := Option.map_eq_some_iff.1 hlook
      rw [hchange _ _ _ heq] at hobject
      exact hh.closures hobject
    next => exact hh.closures hlook

/-- The counters have nothing to do with it. -/
theorem Encloses.congr (hh : Encloses known h) (hslots : t.slots = h.slots)
    (hfree : t.free = h.free) : Encloses known t where
  freeList := ⟨hfree ▸ hh.freeList.nodup, fun i hi => hslots ▸ hh.freeList.vacant i (hfree ▸ hi)⟩
  closures {_ _ _} hlook := by
    rw [lookup?, hslots] at hlook
    exact hh.closures hlook

theorem Encloses.sweepSlot (hh : Encloses known h) (marks : Array Bool) (freed index : Nat) :
    Encloses known (Heap.sweepSlot marks (freed, h) index).2 := by
  rw [Heap.sweepSlot]
  split
  next =>
    split
    next => exact hh
    next => exact hh.release _
  next => exact hh

/-- A collection only releases objects. -/
theorem Encloses.collect (hh : Encloses known h) (roots : List Value) :
    Encloses known (h.collect roots).2 := by
  have hfold (indices : List Nat) (freed : Nat) (t : Heap) (ht : Encloses known t) :
      Encloses known (indices.foldl (Heap.sweepSlot (h.marksFrom roots)) (freed, t)).2 := by
    induction indices generalizing freed t with
    | nil => exact ht
    | cons index indices ih => exact ih _ _ (ht.sweepSlot _ freed index)
  have hcounted : Encloses known
      { h with stats := { h.stats with collections := h.stats.collections + 1 } } :=
    hh.congr rfl rfl
  exact (hfold (List.range h.slots.size) 0 _ hcounted).congr rfl rfl

theorem encloses_clear (h : Heap) : Encloses known h.clear where
  freeList := (balanced_clear h).freeList
  closures := by simp [lookup?, clear]

/-! ### Actions -/

/-- A lookup is followed by something. -/
theorem encloses_observe {look : Heap → Except Fault α} :
    Upholds (Encloses known) (observe look) fun _ => True :=
  upholds_get_bind fun _ _ => upholds_ofExcept fun _ _ => trivial

/-- An object other than a closure may be stored anywhere. -/
theorem encloses_insert {object : HeapObject} (hkind : object.kind ≠ .closure) :
    Upholds (Encloses known) (insert object) fun _ => True := by
  refine upholds_modifyGet fun _ hh => ⟨hh.store ?_, trivial⟩
  rintro _ _ rfl
  exact absurd rfl hkind

/-- A closure may be stored if it is known under every handle. -/
theorem encloses_allocClosure (hclosure : ∀ x, known x routine upvalues) :
    Upholds (Encloses known) (allocClosure routine upvalues) fun _ => True := by
  refine (upholds_reserve _).bind fun _ _ => upholds_modifyGet fun h hh => ⟨hh.store ?_, trivial⟩
  rintro _ _ ⟨⟩
  exact hclosure h.nextHandle

theorem encloses_allocString (text : String) :
    Upholds (Encloses known) (allocString text) fun _ => True :=
  (upholds_reserve _).bind fun _ _ => encloses_insert (by simp [HeapObject.kind])

theorem encloses_allocFixed (size : Nat) :
    Upholds (Encloses known) (allocFixed size) fun _ => True :=
  (upholds_reserve _).bind fun _ _ => encloses_insert (by simp [HeapObject.kind])

theorem encloses_allocBuffer (capacity : Nat) :
    Upholds (Encloses known) (allocBuffer capacity) fun _ => True :=
  (upholds_reserve _).bind fun _ _ =>
    (encloses_insert (by simp [HeapObject.kind])).bind fun _ _ =>
      encloses_insert (by simp [HeapObject.kind])

theorem encloses_allocate (kind : ObjectKind) (size : Nat) :
    Upholds (Encloses known) (allocate kind size) fun _ => True := by
  cases kind with
  | fixedBuffer => exact encloses_allocFixed size
  | buffer => exact encloses_allocBuffer size
  | closure => exact upholds_throw _
  | string =>
    exact (upholds_reserve _).bind fun _ _ => encloses_insert (by simp [HeapObject.kind])

theorem encloses_changeRegion (handle : Handle) (change : ByteArray → ByteArray) :
    Upholds (Encloses known) (changeRegion handle change) fun _ => True := by
  refine encloses_observe.discard.bind fun _ _ => upholds_modify fun h hh => hh.update ?_ handle
  rintro (_ | _ | _ | _) <;> simp

theorem encloses_changeHeader (r : HeapRef) (change : BufferHeader → BufferHeader) :
    Upholds (Encloses known) (changeHeader r change) fun _ => True := by
  refine encloses_observe.discard.bind fun _ _ => upholds_modify fun h hh => hh.update ?_ r.handle
  rintro (_ | _ | _ | _) <;> simp

theorem encloses_writeFixed (r : HeapRef) (position : Nat) (source : ByteArray) :
    Upholds (Encloses known) (writeFixed r position source) fun _ => True :=
  upholds_look fun _ _ => encloses_changeRegion _ _

theorem encloses_writeBuffer (r : HeapRef) (position : Nat) (source : ByteArray) :
    Upholds (Encloses known) (writeBuffer r position source) fun _ => True :=
  encloses_observe.bind fun _ _ => encloses_changeRegion _ _

theorem encloses_setCapacity (r : HeapRef) (capacity : Nat) :
    Upholds (Encloses known) (setCapacity r capacity) fun _ => True := by
  refine encloses_observe.bind fun header _ => (upholds_reserve _).bind fun _ _ => ?_
  refine encloses_observe.bind fun bytes _ => ?_
  refine (encloses_insert (by simp [HeapObject.kind])).bind fun storage _ => ?_
  exact (encloses_changeHeader r _).bind fun _ _ => upholds_modify fun h hh => hh.release _

theorem encloses_reserveBuffer (r : HeapRef) (capacity : Nat) :
    Upholds (Encloses known) (reserveBuffer r capacity) fun _ => True := by
  refine encloses_observe.bind fun header _ => ?_
  split
  next => exact encloses_setCapacity r capacity
  next => exact upholds_pure trivial

theorem encloses_resizeBuffer (r : HeapRef) (size : Nat) :
    Upholds (Encloses known) (resizeBuffer r size) fun _ => True := by
  have hlast : Upholds (Encloses known) (do
      let header ← observe (·.header r)
      changeHeader r fun header => { header with size }
      if header.size < size then
        changeRegion header.storage (zeroFill · header.size size)) fun _ => True := by
    refine encloses_observe.bind fun header _ => (encloses_changeHeader r _).bind fun _ _ => ?_
    split
    next => exact encloses_changeRegion _ _
    next => exact upholds_pure trivial
  refine encloses_observe.bind fun header _ => ?_
  dsimp only
  split
  next => exact (encloses_setCapacity r _).bind fun _ _ => hlast
  next => exact hlast

theorem encloses_shrinkBuffer (r : HeapRef) :
    Upholds (Encloses known) (shrinkBuffer r) fun _ => True :=
  encloses_observe.bind fun _ _ => encloses_setCapacity r _

/-! ### Operations -/

/-- Every operation keeps it up, if it allocates no closure that is not known. -/
theorem Encloses.after (hh : Encloses known h)
    (hop : ∀ routine upvalues, op = .allocClosure routine upvalues →
      ∀ x, known x routine upvalues) : Encloses known (op.after h) := by
  have hrun : Upholds (Encloses known) op.run fun _ => True := by
    -- Only where a closure is allocated there is something to ask.
    cases op with
    | allocate kind size => exact (encloses_allocate kind size).map fun _ _ => trivial
    | allocString text => exact (encloses_allocString text).map fun _ _ => trivial
    | allocBuffer capacity => exact (encloses_allocBuffer capacity).map fun _ _ => trivial
    | allocClosure routine upvalues =>
      exact (encloses_allocClosure (hop routine upvalues rfl)).map fun _ _ => trivial
    | writeFixed r position source =>
      exact (encloses_writeFixed r position source).map fun _ _ => trivial
    | writeBuffer r position source =>
      exact (encloses_writeBuffer r position source).map fun _ _ => trivial
    | reserveBuffer r capacity =>
      exact (encloses_reserveBuffer r capacity).map fun _ _ => trivial
    | resizeBuffer r size => exact (encloses_resizeBuffer r size).map fun _ _ => trivial
    | shrinkBuffer r => exact (encloses_shrinkBuffer r).map fun _ _ => trivial
    | release handle =>
      exact (upholds_modify fun _ hh => hh.release handle).map fun _ _ => trivial
    | collect roots =>
      have hcollect : Upholds (Encloses known) (modifyGet (Heap.collect roots)) fun _ => True :=
        upholds_modifyGet fun _ hh => ⟨hh.collect roots, trivial⟩
      exact hcollect.map fun _ _ => trivial
    | clear => exact (upholds_modify fun h _ => encloses_clear h).map fun _ _ => trivial
  exact Operation.after_of_ensures ((hrun h hh).mono (fun _ _ ht => ht.1) fun _ _ ht => ht)

/-- A closure was there before an operation, or the operation has allocated it under a handle that
has reached nothing. -/
theorem closure_of_after (hfree : h.FreeList)
    (hlook : (op.after h).lookup? x = some (.closure routine upvalues)) :
    h.lookup? x = some (.closure routine upvalues) ∨
      op = .allocClosure routine upvalues ∧ h.lookup? x = none := by
  by_cases hop : ∃ routine upvalues, op = .allocClosure routine upvalues
  · obtain ⟨routine', upvalues', rfl⟩ := hop
    -- What is allocated is all that is stored.
    have hstores : Ensures (Operation.allocClosure routine' upvalues').run h
        (fun _ t => t = h ∨ t = (h.store (.closure routine' upvalues')).2)
        fun _ t => t = h ∨ t = (h.store (.closure routine' upvalues')).2 := by
      rw [Operation.run, ensures_map, allocClosure, ensures_bind, ensures_reserve]
      refine ⟨fun _ => ?_, fun _ => .inl rfl⟩
      rw [ensures_insert]
      exact .inr rfl
    rcases Operation.after_of_ensures hstores with heq | heq
    · rw [heq] at hlook
      exact .inl hlook
    · rw [heq, lookup?_store hfree] at hlook
      split at hlook
      next hx =>
        obtain ⟨rfl, rfl⟩ := HeapObject.closure.inj (Option.some.inj hlook)
        exact .inr ⟨rfl, hx ▸ lookup?_nextHandle hfree⟩
      next => exact .inl hlook
  · have hafter := (encloses_self hfree).after fun routine upvalues heq =>
      absurd ⟨routine, upvalues, heq⟩ hop
    exact .inl (hafter.closures hlook)

end ActorMachine.Heap
