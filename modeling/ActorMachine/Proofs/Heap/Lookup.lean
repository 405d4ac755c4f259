import ActorMachine.Heap.Collect

/-!
# Looking objects up

What the handles of a heap reach after an object was stored, released or changed.

* `mapBytes`, `mapHeader`: the changes that are made to objects where they lie.
* `FreeList`: the free slots are vacant and listed once, which is what makes storing safe.
* `lookup?_store`, `lookup?_release`, `lookup?_update`: each operation changes what its own
  handle reaches and nothing else.
-/

namespace ActorMachine.HeapObject

/-- Changes the bytes of a fixed buffer, and no other object. -/
def mapBytes (change : ByteArray → ByteArray) : HeapObject → HeapObject
  | .fixedBuffer bytes => .fixedBuffer (change bytes)
  | object => object

/-- Changes the header of a growable buffer, and no other object. -/
def mapHeader (change : BufferHeader → BufferHeader) : HeapObject → HeapObject
  | .buffer header => .buffer (change header)
  | object => object

end ActorMachine.HeapObject

namespace ActorMachine.Heap

variable {h : Heap} {handle other : Handle} {object : HeapObject}

/-- A handle reaches an object iff its slot has its generation and holds the object. -/
theorem lookup?_eq_some_iff :
    h.lookup? handle = some object ↔
      h.slots[handle.index]? = some ⟨handle.generation, some object⟩ := by
  rw [lookup?]
  cases hslot : h.slots[handle.index]? with
  | none => simp
  | some slot =>
    obtain ⟨generation, occupant⟩ := slot
    by_cases hg : generation = handle.generation <;> simp [hg]

/-- A handle that reaches an object names a slot of the heap. -/
theorem index_lt_of_lookup? (hlook : h.lookup? handle = some object) :
    handle.index < h.slots.size :=
  (Array.getElem?_eq_some_iff.1 (lookup?_eq_some_iff.1 hlook)).1

/-- Of all handles that name one slot, at most one reaches an object. -/
theorem eq_of_index_eq {object' : HeapObject} (hlook : h.lookup? handle = some object)
    (hother : h.lookup? other = some object') (hindex : other.index = handle.index) :
    other = handle := by
  have hslot := lookup?_eq_some_iff.1 hlook
  have hslot' := lookup?_eq_some_iff.1 hother
  rw [hindex, hslot] at hslot'
  obtain ⟨hg, -⟩ := Slot.mk.inj (Option.some.inj hslot')
  cases handle
  cases other
  simp_all

/-- The slots on the free list hold no object and are listed once. -/
structure FreeList (h : Heap) : Prop where
  /-- No slot is listed twice. -/
  nodup : h.free.Nodup
  /-- A listed slot is there and has no object. -/
  vacant : ∀ i ∈ h.free, ∃ generation, h.slots[i]? = some ⟨generation, none⟩

/-! ### Storing -/

/-- The handle of the next object reaches nothing yet. -/
theorem lookup?_nextHandle (hfree : h.FreeList) : h.lookup? h.nextHandle = none := by
  cases hlist : h.free with
  | nil => simp [lookup?, nextHandle, hlist]
  | cons i rest =>
    obtain ⟨generation, hslot⟩ := hfree.vacant i (by simp [hlist])
    simp [lookup?, nextHandle, hlist, hslot]

/-- Storing answers the next handle. -/
theorem fst_store : (h.store object).1 = h.nextHandle := rfl

/-- After an object was stored its handle reaches it; all others reach what they did. -/
theorem lookup?_store (hfree : h.FreeList) :
    (h.store object).2.lookup? handle =
      if handle = h.nextHandle then some object else h.lookup? handle := by
  obtain ⟨index, generation⟩ := handle
  cases hlist : h.free with
  | nil =>
    by_cases hi : index = h.slots.size
    · -- The new slot starts with the generation zero, so the handle has to have it.
      subst hi
      by_cases hg : (0 : UInt32) = generation
      · simp [store, lookup?, nextHandle, hlist, hg]
      · simp [store, lookup?, nextHandle, hlist, hg, Ne.symm hg]
    · simp [store, lookup?, nextHandle, hlist, hi, Array.getElem?_push]
  | cons i rest =>
    -- The slot that was freed last is filled, and keeps the generation that it has got.
    obtain ⟨g, hslot⟩ := hfree.vacant i (by simp [hlist])
    obtain ⟨hlt, hget⟩ := Array.getElem?_eq_some_iff.1 hslot
    by_cases hi : i = index
    · subst hi
      by_cases hg : g = generation
      · simp [store, lookup?, nextHandle, hlist, hget, hg, hlt]
      · simp [store, lookup?, nextHandle, hlist, hget, hg, Ne.symm hg, hlt]
    · simp [store, lookup?, nextHandle, hlist, hslot, hi, Ne.symm hi]

/-- What is there is reached by another handle than the next one. -/
theorem ne_nextHandle (hfree : h.FreeList) (hlook : h.lookup? handle = some object) :
    handle ≠ h.nextHandle := by
  rintro rfl
  rw [lookup?_nextHandle hfree] at hlook
  cases hlook

/-- Storing leaves all that is there. -/
theorem lookup?_store_of_lookup? {object' : HeapObject} (hfree : h.FreeList)
    (hlook : h.lookup? handle = some object) :
    (h.store object').2.lookup? handle = some object := by
  rw [lookup?_store hfree, if_neg (ne_nextHandle hfree hlook), hlook]

/-- Storing takes its slot off the free list. -/
theorem freeList_store (hfree : h.FreeList) : (h.store object).2.FreeList := by
  cases hlist : h.free with
  | nil => exact ⟨by simp [store, hlist], by simp [store, hlist]⟩
  | cons i rest =>
    have hnodup := hfree.nodup
    rw [hlist, List.nodup_cons] at hnodup
    refine ⟨by simpa [store, hlist] using hnodup.2, fun j hj => ?_⟩
    have hmem : j ∈ rest := by simpa [store, hlist] using hj
    obtain ⟨g, hslot⟩ := hfree.vacant j (by simp [hlist, hmem])
    have hne : i ≠ j := fun heq => hnodup.1 (heq ▸ hmem)
    exact ⟨g, by simpa [store, hlist, hne] using hslot⟩

/-- A storage and a header on top of it are two new objects. -/
theorem lookup?_storeBuffer (hfree : h.FreeList) (bytes : ByteArray) (header : BufferHeader)
    (handle : Handle) :
    ((h.store (.fixedBuffer bytes)).2.store (.buffer header)).2.lookup? handle =
      if handle = (h.store (.fixedBuffer bytes)).2.nextHandle then some (.buffer header)
      else if handle = h.nextHandle then some (.fixedBuffer bytes) else h.lookup? handle := by
  rw [lookup?_store (freeList_store hfree), lookup?_store hfree]

/-- The header goes to another slot than the storage, and to one where nothing was either. -/
theorem fresh_storeBuffer (hfree : h.FreeList) (bytes : ByteArray) :
    (h.store (.fixedBuffer bytes)).2.nextHandle ≠ h.nextHandle ∧
      h.lookup? (h.store (.fixedBuffer bytes)).2.nextHandle = none := by
  have hnext : (h.store (.fixedBuffer bytes)).2.lookup? _ = none :=
    lookup?_nextHandle (freeList_store hfree)
  rw [lookup?_store hfree] at hnext
  split at hnext
  next => cases hnext
  next hne => exact ⟨hne, hnext⟩

/-! ### Releasing -/

/-- After a release its handle reaches nothing; all others reach what they did. -/
theorem lookup?_release :
    (h.release handle).lookup? other = if other = handle then none else h.lookup? other := by
  cases hlook : h.lookup? handle with
  | none =>
    simp only [release, hlook]
    split
    next heq => rw [heq, hlook]
    next => rfl
  | some object =>
    obtain ⟨index, generation⟩ := handle
    obtain ⟨i, g⟩ := other
    obtain ⟨hlt, hget⟩ := Array.getElem?_eq_some_iff.1 (lookup?_eq_some_iff.1 hlook)
    simp only at hlt hget
    simp only [release, hlook]
    -- In the slot itself the generation goes up, so no other handle reaches what was there.
    by_cases hi : index = i
    · subst hi
      by_cases hg : generation = g
      · simp [lookup?, hlt, hg]
      · simp [lookup?, hlt, hget, hg]
    · simp [lookup?, hi, Ne.symm hi]

/-- A release puts the slot of its object on the free list. -/
theorem freeList_release (hfree : h.FreeList) : (h.release handle).FreeList := by
  cases hlook : h.lookup? handle with
  | none => simpa [release, hlook] using hfree
  | some object =>
    have hslot := lookup?_eq_some_iff.1 hlook
    have hnot : handle.index ∉ h.free := by
      intro hmem
      obtain ⟨g, hvacant⟩ := hfree.vacant _ hmem
      simp [hslot] at hvacant
    refine ⟨?_, fun i hi => ?_⟩
    · simpa [release, hlook] using ⟨hnot, hfree.nodup⟩
    · by_cases heq : handle.index = i
      · subst heq
        exact ⟨handle.generation + 1, by simp [release, hlook, index_lt_of_lookup? hlook]⟩
      · have hmem : i ∈ h.free := by simpa [release, hlook, Ne.symm heq] using hi
        obtain ⟨g, hvacant⟩ := hfree.vacant i hmem
        exact ⟨g, by simpa [release, hlook, heq] using hvacant⟩

/-! ### Changing -/

/-- A change shows under every handle of its slot, of which only one reaches an object. -/
theorem lookup?_update (change : HeapObject → HeapObject) :
    (h.update handle change).lookup? other =
      if other.index = handle.index then (h.lookup? other).map change
      else h.lookup? other := by
  by_cases hi : other.index = handle.index
  · cases hslot : h.slots[handle.index]? with
    | none => simp [update, lookup?, Array.getElem?_modify, hi, hslot]
    | some slot =>
      by_cases hg : slot.generation = other.generation
      · simp [update, lookup?, Array.getElem?_modify, hi, hslot, hg]
      · simp [update, lookup?, Array.getElem?_modify, hi, hslot, hg]
  · simp [update, lookup?, Array.getElem?_modify, hi, Ne.symm hi]

/-- A change under a handle that reaches an object shows under this handle alone. -/
theorem lookup?_update_of_lookup? (change : HeapObject → HeapObject)
    (hlook : h.lookup? handle = some object) :
    (h.update handle change).lookup? other =
      if other = handle then some (change object) else h.lookup? other := by
  rw [lookup?_update]
  by_cases heq : other = handle
  · simp [heq, hlook]
  · rw [if_neg heq]
    split
    next hi =>
      cases hother : h.lookup? other with
      | none => rfl
      | some object' => exact absurd (eq_of_index_eq hlook hother hi) heq
    next => rfl

/-- A change leaves the free list alone. -/
theorem freeList_update (change : HeapObject → HeapObject) (hfree : h.FreeList) :
    (h.update handle change).FreeList := by
  refine ⟨hfree.nodup, fun i hi => ?_⟩
  obtain ⟨g, hvacant⟩ := hfree.vacant i hi
  refine ⟨g, ?_⟩
  by_cases heq : handle.index = i
  · simp [update, Array.getElem?_modify, heq, hvacant]
  · simpa [update, Array.getElem?_modify, heq] using hvacant

end ActorMachine.Heap
