import ActorMachine.Proofs.Heap.Lookup
import Mathlib.Algebra.GroupWithZero.Nat

/-!
# The objects of a heap

A heap seen as the list of its objects, each under the handle that reaches it.

* `mem_objects`, `pairwise_objects`: the list has what can be looked up, in the order of the slots.
* `perm_objects_store`, `perm_objects_release`, `perm_objects_update`: an object comes, goes or is
  replaced, and the others stay.
* `Balanced`: the bytes that a heap holds are those charged for its objects. Storing, releasing and
  changing objects preserves this.
-/

namespace ActorMachine.Heap

variable {h t : Heap} {handle other : Handle} {object : HeapObject}

/-! ### The view -/

/-- The objects of a heap under their handles, in the order of their slots. -/
def objects (h : Heap) : List (Handle × HeapObject) :=
  h.slots.toList.zipIdx.filterMap fun (slot, index) =>
    slot.object.map fun object => (⟨index, slot.generation⟩, object)

/-- The objects are those that can be looked up. -/
@[simp]
theorem mem_objects : (handle, object) ∈ h.objects ↔ h.lookup? handle = some object := by
  rw [objects, List.mem_filterMap, lookup?_eq_some_iff]
  constructor
  · rintro ⟨⟨⟨generation, occupant⟩, index⟩, hmem, hentry⟩
    obtain ⟨object', hobject, hpair⟩ := Option.map_eq_some_iff.1 hentry
    obtain ⟨rfl, rfl⟩ := Prod.mk.inj hpair
    rw [List.mem_zipIdx_iff_getElem?, Array.getElem?_toList] at hmem
    simp_all
  · intro hslot
    refine ⟨(⟨handle.generation, some object⟩, handle.index), ?_, rfl⟩
    simpa [List.mem_zipIdx_iff_getElem?] using hslot

/-- The objects are listed in the order of their slots. -/
theorem pairwise_objects (h : Heap) : h.objects.Pairwise fun a b => a.1.index < b.1.index := by
  have hindices : h.slots.toList.zipIdx.Pairwise fun a b => a.2 < b.2 := by
    apply List.pairwise_map.1
    rw [List.zipIdx_map_snd]
    exact List.pairwise_lt_range'
  refine hindices.filterMap _ fun a b hlt entry ha entry' hb => ?_
  obtain ⟨object, -, rfl⟩ := Option.map_eq_some_iff.1 ha
  obtain ⟨object', -, rfl⟩ := Option.map_eq_some_iff.1 hb
  exact hlt

/-- No object is listed twice. -/
theorem nodup_objects (h : Heap) : h.objects.Nodup :=
  h.pairwise_objects.imp fun hlt heq => absurd hlt (by simp [heq])

/-- There are as many of them as there are live objects. -/
theorem length_objects (h : Heap) : h.objects.length = h.liveObjects := by
  have hoccupied : h.slots.toList.zipIdx.countP (fun entry => entry.1.object.isSome) =
      h.slots.toList.countP fun slot => slot.object.isSome := by
    rw [← Function.comp_def (fun slot : Slot => slot.object.isSome) Prod.fst, ← List.countP_map,
      List.zipIdx_map_fst]
  rw [objects, List.length_filterMap_eq_countP, liveObjects, ← Array.countP_toList, ← hoccupied]
  simp

/-- Heaps in which the same can be looked up have the same objects. -/
theorem perm_objects_of_lookup? {entries : List (Handle × HeapObject)} (hnodup : entries.Nodup)
    (hmem : ∀ handle object, (handle, object) ∈ entries ↔ h.lookup? handle = some object) :
    h.objects.Perm entries := by
  rw [List.perm_ext_iff_of_nodup h.nodup_objects hnodup]
  rintro ⟨handle, object⟩
  rw [mem_objects, hmem]

/-- A handle that reaches nothing has no entry among the objects. -/
theorem not_mem_objects (hlook : h.lookup? handle = none) (object : HeapObject) :
    (handle, object) ∉ h.objects := by
  simp [hlook]

/-- Storing adds an object under the next handle. -/
theorem perm_objects_store (hfree : h.FreeList) (object : HeapObject) :
    (h.store object).2.objects.Perm ((h.nextHandle, object) :: h.objects) := by
  have hnext := lookup?_nextHandle hfree
  refine perm_objects_of_lookup?
    (List.nodup_cons.2 ⟨not_mem_objects hnext object, h.nodup_objects⟩) fun x o => ?_
  rw [lookup?_store hfree, List.mem_cons, Prod.mk.injEq, mem_objects]
  by_cases heq : x = h.nextHandle
  · simp [heq, hnext, eq_comm]
  · simp [heq]

/-- A release removes the object of its handle. -/
theorem perm_objects_release (hlook : h.lookup? handle = some object) :
    h.objects.Perm ((handle, object) :: (h.release handle).objects) := by
  have hgone : (h.release handle).lookup? handle = none := by rw [lookup?_release, if_pos rfl]
  refine perm_objects_of_lookup?
    (List.nodup_cons.2 ⟨not_mem_objects hgone object, nodup_objects _⟩) fun x o => ?_
  rw [List.mem_cons, Prod.mk.injEq, mem_objects, lookup?_release]
  by_cases heq : x = handle
  · simp [heq, hlook, eq_comm]
  · simp [heq]

/-- A change replaces the object of its handle. -/
theorem perm_objects_update (change : HeapObject → HeapObject)
    (hlook : h.lookup? handle = some object) :
    (h.update handle change).objects.Perm
      ((handle, change object) :: (h.release handle).objects) := by
  have hgone : (h.release handle).lookup? handle = none := by rw [lookup?_release, if_pos rfl]
  refine perm_objects_of_lookup?
    (List.nodup_cons.2 ⟨not_mem_objects hgone _, nodup_objects _⟩) fun x o => ?_
  rw [List.mem_cons, Prod.mk.injEq, mem_objects, lookup?_release,
    lookup?_update_of_lookup? change hlook]
  by_cases heq : x = handle
  · simp [heq, eq_comm]
  · simp [heq]

/-! ### The bytes held -/

/-- Bytes charged for some objects. -/
def chargeOf (entries : List (Handle × HeapObject)) : Nat :=
  (entries.map fun entry => entry.2.charge).sum

@[simp]
theorem chargeOf_cons (entry : Handle × HeapObject) (entries : List (Handle × HeapObject)) :
    chargeOf (entry :: entries) = entry.2.charge + chargeOf entries := by
  simp [chargeOf]

@[simp]
theorem chargeOf_append (entries entries' : List (Handle × HeapObject)) :
    chargeOf (entries ++ entries') = chargeOf entries + chargeOf entries' := by
  simp [chargeOf]

theorem chargeOf_eq_of_perm {entries entries' : List (Handle × HeapObject)}
    (hperm : entries.Perm entries') : chargeOf entries = chargeOf entries' :=
  (hperm.map _).sum_nat

/-- The free slots are vacant, and the bytes held are those charged for the objects. -/
structure Balanced (h : Heap) : Prop where
  /-- Free slots are vacant. -/
  freeList : h.FreeList
  /-- The objects account for the bytes that are held. -/
  used : h.used = chargeOf h.objects

theorem balanced_empty (config : HeapConfig) : (empty config).Balanced where
  freeList := ⟨List.nodup_nil, by simp [empty]⟩
  used := rfl

/-- No object is charged with more bytes than are held. -/
theorem Balanced.charge_le (hb : h.Balanced) (hlook : h.lookup? handle = some object) :
    object.charge ≤ h.used := by
  rw [hb.used, chargeOf_eq_of_perm (perm_objects_release hlook), chargeOf_cons]
  exact Nat.le_add_right _ _

theorem Balanced.store (hb : h.Balanced) (object : HeapObject) : (h.store object).2.Balanced where
  freeList := freeList_store hb.freeList
  used := by
    rw [chargeOf_eq_of_perm (perm_objects_store hb.freeList object), chargeOf_cons, ← hb.used]
    exact Nat.add_comm _ _

theorem Balanced.release (hb : h.Balanced) (handle : Handle) : (h.release handle).Balanced where
  freeList := freeList_release hb.freeList
  used := by
    cases hlook : h.lookup? handle with
    | none => simp [Heap.release, hlook, hb.used]
    | some object =>
      have hused : (h.release handle).used = h.used - object.charge := by
        simp [Heap.release, hlook]
      rw [hused, hb.used, chargeOf_eq_of_perm (perm_objects_release hlook), chargeOf_cons]
      exact Nat.add_sub_cancel_left _ _

theorem Balanced.update (hb : h.Balanced) {change : HeapObject → HeapObject}
    (hlook : h.lookup? handle = some object) (hcharge : (change object).charge = object.charge) :
    (h.update handle change).Balanced where
  freeList := freeList_update change hb.freeList
  used := by
    rw [chargeOf_eq_of_perm (perm_objects_update change hlook), chargeOf_cons, hcharge,
      ← chargeOf_cons (handle, object), ← chargeOf_eq_of_perm (perm_objects_release hlook)]
    exact hb.used

end ActorMachine.Heap
