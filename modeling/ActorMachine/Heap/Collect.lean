import ActorMachine.Heap.Basic

/-!
# Collection

The collector marks what can be reached from a list of root values, following the handles
that objects hold, and releases everything else. Handles are followed by slot and
generation alone; the kind tags of references play no part.

Marking works off a list of handles. Every round either drops a handle or marks one more
slot, which bounds it.
-/

namespace ActorMachine.Heap

/-- Number of slots that are not marked. -/
def unmarked (marks : Array Bool) : Nat :=
  marks.count false

theorem unmarked_set_lt {marks : Array Bool} {i : Nat} (h : i < marks.size)
    (hi : marks[i] = false) : unmarked (marks.set i true) < unmarked marks := by
  have hpos : 0 < unmarked marks := Array.count_pos_iff.2 (hi ▸ Array.getElem_mem h)
  have hset : unmarked (marks.set i true) = unmarked marks - 1 := by
    simp [unmarked, Array.count_set, hi]
  rw [hset]
  exact Nat.sub_lt hpos Nat.one_pos

/-- Marks the slots of all objects that can be reached from the handles in `work`. -/
def mark (h : Heap) (marks : Array Bool) : List Handle → Array Bool
  | [] => marks
  | handle :: work =>
    match h.lookup? handle with
    | none => mark h marks work
    | some object =>
      if hi : handle.index < marks.size then
        if hm : marks[handle.index] = false then
          mark h (marks.set handle.index true) (object.references ++ work)
        else
          mark h marks work
      else
        mark h marks work
termination_by work => (unmarked marks, work.length)
decreasing_by
  · exact Prod.Lex.right _ (Nat.lt_succ_self _)
  · exact Prod.Lex.left _ _ (unmarked_set_lt hi hm)
  · exact Prod.Lex.right _ (Nat.lt_succ_self _)
  · exact Prod.Lex.right _ (Nat.lt_succ_self _)

/-- The marks after tracing from these values. -/
def marksFrom (h : Heap) (roots : List Value) : Array Bool :=
  mark h (Array.replicate h.slots.size false) (roots.filterMap Value.handle?)

/-- Releases the object of a slot unless the slot is marked, and counts it. -/
def sweepSlot (marks : Array Bool) (acc : Nat × Heap) (index : Nat) : Nat × Heap :=
  let (freed, h) := acc
  match h.slots[index]? with
  | some { generation, object := some _ } =>
    -- Releasing one slot after the other leaves the highest one to be reused first.
    if marks[index]?.getD false then
      (freed, h)
    else
      (freed + 1, h.release ⟨index, generation⟩)
  | _ => (freed, h)

/-- Releases every object that cannot be reached from the roots, and answers how many
there were. -/
def collect (roots : List Value) (h : Heap) : Nat × Heap :=
  let marks := h.marksFrom roots
  let h := { h with stats := { h.stats with collections := h.stats.collections + 1 } }
  let (freed, h) := (List.range h.slots.size).foldl (sweepSlot marks) (0, h)
  (freed, { h with sinceCollection := 0 })

end ActorMachine.Heap
