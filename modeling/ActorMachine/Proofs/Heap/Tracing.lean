import ActorMachine.Proofs.Heap.Lookup

/-!
# Tracing and sweeping

What a collection takes away and what it leaves.

* `marksFrom_root`, `marksFrom_reference`: the slot of what a root names is marked, and so is
  the slot of what a marked object refers to. The invariant of the work list behind them is
  `ClosedUpTo`.
* `lookup?_collect`: a collection takes away the objects in unmarked slots and no others.
-/

namespace ActorMachine.Heap

variable {h : Heap} {handle other : Handle} {object : HeapObject}

/-! ### Marking -/

/-- A mark is never taken back. -/
theorem mark_of_marked {marks : Array Bool} {i : Nat} (work : List Handle)
    (hi : marks[i]? = some true) : (h.mark marks work)[i]? = some true := by
  fun_induction mark h marks work with
  | case1 => exact hi
  | case2 marks handle work hlook ih => exact ih hi
  | case3 marks handle work object hlook hlt hm ih =>
    refine ih ?_
    rw [Array.getElem?_set]
    split
    next => rfl
    next => exact hi
  | case4 marks handle work object hlook hlt hm ih => exact ih hi
  | case5 marks handle work object hlook hlt ih => exact ih hi

/-- Every object that the work list names ends up marked. -/
theorem mark_of_mem_work {marks : Array Bool} {work : List Handle}
    (hsize : marks.size = h.slots.size)
    (hmem : handle ∈ work) (hlook : h.lookup? handle = some object) :
    (h.mark marks work)[handle.index]? = some true := by
  have hin : handle.index < marks.size := hsize ▸ index_lt_of_lookup? hlook
  -- The work list shrinks until the handle is its first one; then its slot is marked or was so.
  fun_induction mark h marks work generalizing object with
  | case1 => cases hmem
  | case2 marks first work hnone ih =>
    rcases List.mem_cons.1 hmem with rfl | hmem
    · cases hlook.symm.trans hnone
    · exact ih hsize hmem hlook hin
  | case3 marks first work object' hlook' hlt hm ih =>
    rcases List.mem_cons.1 hmem with rfl | hmem
    · exact mark_of_marked _ (by simp [hlt])
    · exact ih (by simpa using hsize) (List.mem_append_right _ hmem) hlook (by simpa using hin)
  | case4 marks first work object' hlook' hlt hm ih =>
    rcases List.mem_cons.1 hmem with rfl | hmem
    · exact mark_of_marked _ (by simpa [hlt] using hm)
    · exact ih hsize hmem hlook hin
  | case5 marks first work object' hlook' hlt ih =>
    rcases List.mem_cons.1 hmem with rfl | hmem
    · exact absurd hin hlt
    · exact ih hsize hmem hlook hin

/-- What a marked object refers to is marked too, or still on the work list. -/
def ClosedUpTo (h : Heap) (marks : Array Bool) (work : List Handle) : Prop :=
  ∀ handle object, h.lookup? handle = some object → marks[handle.index]? = some true →
    ∀ r ∈ object.references, (h.lookup? r).isSome → marks[r.index]? = some true ∨ r ∈ work

/-- Marking works the list off, so nothing is left to be marked. -/
theorem closedUpTo_mark {marks : Array Bool} {work : List Handle}
    (hsize : marks.size = h.slots.size)
    (hclosed : h.ClosedUpTo marks work) : h.ClosedUpTo (h.mark marks work) [] := by
  fun_induction mark h marks work with
  | case1 => exact hclosed
  | case2 marks first work hnone ih =>
    refine ih hsize fun handle object hlook hm r hr hlive => ?_
    rcases hclosed handle object hlook hm r hr hlive with hmarked | hmem
    · exact .inl hmarked
    · rcases List.mem_cons.1 hmem with rfl | hmem
      · simp [hnone] at hlive
      · exact .inr hmem
  | case3 marks first work object' hlook' hlt hm ih =>
    -- The object that is marked here has its references put on the work list.
    refine ih (by simpa using hsize) fun handle object hlook hm r hr hlive => ?_
    by_cases hi : handle.index = first.index
    · obtain rfl := eq_of_index_eq hlook' hlook hi
      obtain rfl := Option.some.inj (hlook.symm.trans hlook')
      exact .inr (List.mem_append_left _ hr)
    · have hm' : marks[handle.index]? = some true := by simpa [Ne.symm hi] using hm
      by_cases hr' : r.index = first.index
      · exact .inl (by simp [hr', hlt])
      · rcases hclosed handle object hlook hm' r hr hlive with hmarked | hmem
        · exact .inl (by simpa [Ne.symm hr'] using hmarked)
        · rcases List.mem_cons.1 hmem with rfl | hmem
          · exact absurd rfl hr'
          · exact .inr (List.mem_append_right _ hmem)
  | case4 marks first work object' hlook' hlt hm ih =>
    refine ih hsize fun handle object hlook hm' r hr hlive => ?_
    rcases hclosed handle object hlook hm' r hr hlive with hmarked | hmem
    · exact .inl hmarked
    · rcases List.mem_cons.1 hmem with rfl | hmem
      · exact .inl (by simpa [hlt] using hm)
      · exact .inr hmem
  | case5 marks first work object' hlook' hlt ih =>
    -- A live object has a slot, so there is always a mark for it.
    exact absurd (hsize ▸ index_lt_of_lookup? hlook') hlt

/-- The slot of every object that a root names is marked. -/
theorem marksFrom_root {roots : List Value} {v : Value} (hroot : v ∈ roots)
    (hv : v.handle? = some handle) (hlook : h.lookup? handle = some object) :
    (h.marksFrom roots)[handle.index]? = some true :=
  mark_of_mem_work (by simp) (List.mem_filterMap.2 ⟨v, hroot, hv⟩) hlook

/-- The slot of every object that a marked object refers to is marked. -/
theorem marksFrom_reference {roots : List Value} (hlook : h.lookup? handle = some object)
    (hmarked : (h.marksFrom roots)[handle.index]? = some true) (hr : other ∈ object.references)
    (hlive : (h.lookup? other).isSome) : (h.marksFrom roots)[other.index]? = some true := by
  have hclosed : h.ClosedUpTo (h.marksFrom roots) [] := by
    -- At first nothing is marked, so there is nothing to be closed.
    refine closedUpTo_mark (by simp) fun handle object hlook hm => ?_
    simp [Array.getElem?_replicate] at hm
  simpa using hclosed handle object hlook hmarked other hr hlive

/-! ### Sweeping -/

/-- Sweeping a slot takes away its object unless the slot is marked. -/
theorem lookup?_sweepSlot (marks : Array Bool) (freed : Nat) (index : Nat) :
    (sweepSlot marks (freed, h) index).2.lookup? handle =
      if handle.index = index ∧ marks[index]? ≠ some true then none else h.lookup? handle := by
  have hvacant : (∀ g object, h.slots[index]? ≠ some ⟨g, some object⟩) →
      handle.index = index → h.lookup? handle = none := by
    rintro hno rfl
    cases hlook : h.lookup? handle with
    | none => rfl
    | some object => exact absurd (lookup?_eq_some_iff.1 hlook) (hno _ _)
  rw [sweepSlot]
  split
  next g object hslot =>
    by_cases hm : marks[index]? = some true
    · simp [hm]
    · have hfalse : marks[index]?.getD false = false := by
        cases hc : marks[index]? with
        | none => rfl
        | some b => cases b <;> simp_all
      simp only [hfalse, Bool.false_eq_true, if_false, lookup?_release]
      by_cases hi : handle.index = index
      -- A handle of the same slot but another generation has named nothing before.
      · by_cases heq : handle = ⟨index, g⟩
        · simp [heq, hm]
        · have hnone : h.lookup? handle = none := by
            cases hlook : h.lookup? handle with
            | none => rfl
            | some object' =>
              exact absurd (eq_of_index_eq (lookup?_eq_some_iff.2 hslot) hlook hi) heq
          simp [heq, hnone]
      · have hne : handle ≠ ⟨index, g⟩ := fun heq => hi (by rw [heq])
        simp [hi, hne]
  next hno =>
    split
    next hc => exact hvacant (fun g object hslot => hno g object hslot) hc.1
    next => rfl

theorem freeList_sweepSlot (marks : Array Bool) (freed : Nat) (index : Nat) (hfree : h.FreeList) :
    (sweepSlot marks (freed, h) index).2.FreeList := by
  rw [sweepSlot]
  split
  next =>
    split
    next => exact hfree
    next => exact freeList_release hfree
  next => exact hfree

/-- Sweeping some slots takes away the objects of those that are not marked. -/
theorem lookup?_foldl_sweepSlot (marks : Array Bool) (indices : List Nat) (freed : Nat) (h : Heap)
    (handle : Handle) :
    (indices.foldl (sweepSlot marks) (freed, h)).2.lookup? handle =
      if handle.index ∈ indices ∧ marks[handle.index]? ≠ some true then none
      else h.lookup? handle := by
  induction indices generalizing freed h with
  | nil => simp
  | cons index indices ih =>
    rw [List.foldl_cons]
    refine (ih (sweepSlot marks (freed, h) index).1 (sweepSlot marks (freed, h) index).2).trans ?_
    rw [lookup?_sweepSlot]
    by_cases hm : marks[handle.index]? = some true
    · by_cases hi : handle.index = index <;> simp_all
    · by_cases hi : handle.index = index <;> simp_all

theorem freeList_foldl_sweepSlot (marks : Array Bool) (indices : List Nat) (freed : Nat) {h : Heap}
    (hfree : h.FreeList) : (indices.foldl (sweepSlot marks) (freed, h)).2.FreeList := by
  induction indices generalizing freed h with
  | nil => exact hfree
  | cons index indices ih => exact ih _ (freeList_sweepSlot marks freed index hfree)

/-- A collection takes away the objects in unmarked slots and leaves the others. -/
theorem lookup?_collect (roots : List Value) :
    (h.collect roots).2.lookup? handle =
      if (h.marksFrom roots)[handle.index]? = some true then h.lookup? handle else none := by
  have hswept := lookup?_foldl_sweepSlot (h.marksFrom roots) (List.range h.slots.size) 0
    { h with stats := { h.stats with collections := h.stats.collections + 1 } } handle
  have hsame : ∀ stats, ({ h with stats } : Heap).lookup? handle = h.lookup? handle := fun _ => rfl
  calc (h.collect roots).2.lookup? handle
      = _ := hswept
    _ = _ := by
      rw [hsame]
      by_cases hm : (h.marksFrom roots)[handle.index]? = some true
      · simp [hm]
      · simp only [hm, ne_eq, not_false_eq_true, and_true, if_false]
        split
        next => rfl
        next hout =>
          cases hlook : h.lookup? handle with
          | none => rfl
          | some object =>
            exact absurd (List.mem_range.2 (index_lt_of_lookup? hlook)) hout

theorem freeList_collect (roots : List Value) (hfree : h.FreeList) :
    (h.collect roots).2.FreeList := by
  have hswept := freeList_foldl_sweepSlot (h.marksFrom roots) (List.range h.slots.size) 0
    (h := { h with stats := { h.stats with collections := h.stats.collections + 1 } })
    ⟨hfree.nodup, hfree.vacant⟩
  exact ⟨hswept.nodup, hswept.vacant⟩

end ActorMachine.Heap
