import ActorMachine.Proofs.Heap.Handles

/-!
# Handles that outlive a clearing

Dropping everything drops the slots as well, and with them the generations: numbering starts over,
and the handles that are given out then have been given out before.

* `occupant?`: the object in a slot, whatever handle leads to it.
* `stale_iff`: all that is tried through a reference is told that it is stale exactly if its handle
  reaches nothing.
* `lookup?_of_cleared`: what a handle reaches after a clearing is decided by what has happened since.
* `stale_after_clear_iff`: so a reference from before is stale exactly as long as its slot is vacant
  or has not lost as many objects since the clearing as the reference has in its generation.
-/

namespace ActorMachine.Heap

variable {h t : Heap} {object : HeapObject} {r : HeapRef} {later : List Operation}

/-- The object in a slot, whatever its generation. -/
def occupant? (h : Heap) (i : Nat) : Option HeapObject :=
  h.slots[i]?.bind Slot.object

/-- A handle reaches the occupant of its slot if it is of the generation of the slot. -/
theorem lookup?_eq_occupant? (h : Heap) (x : Handle) :
    h.lookup? x = if x.generation = h.generationAt x.index then h.occupant? x.index else none := by
  rw [lookup?, occupant?]
  cases hslot : h.slots[x.index]? with
  | none => simp
  | some slot =>
    rw [generationAt_of_slot hslot, Option.bind_some]
    simp only [eq_comm]

/-- A reference to an object that is there is told something else than that it is stale: the object,
or that it is of another kind. -/
theorem object_ne_stale (hlook : h.lookup? r.handle = some object) :
    Access.object.run r h ≠ .error .staleHandle h := by
  intro hstale
  have hspec : Ensures (Access.object.run r) h (fun _ _ => True)
      fun fault _ => fault ≠ .staleHandle := by
    rw [Access.run, ensures_discard, ensures_observe]
    refine ⟨fun _ _ => trivial, fun fault hfault => ?_⟩
    rintro rfl
    rw [deref, lookup, hlook] at hfault
    change (if object.kind = r.kind then _ else _) = _ at hfault
    split at hfault
    next => cases hfault
    next => cases hfault
  exact hspec.of_error hstale rfl

/-- All that is tried through a reference is told that it is stale exactly if its handle reaches
nothing. -/
theorem stale_iff :
    (∀ access : Access, access.run r h = .error (access.fault r) h) ↔
      h.lookup? r.handle = none := by
  constructor
  · intro hstale
    cases hlook : h.lookup? r.handle with
    | none => rfl
    | some object => exact absurd (hstale .object) (object_ne_stale hlook)
  · exact run_of_lookup?_eq_none

/-- After everything was dropped, the generation of a slot is the number of objects that it has lost
since. -/
theorem generationAt_of_cleared (h : Heap) (hclear : .clear ∉ later) (i : Nat) :
    (afterAll later h.clear).generationAt i = UInt32.ofNat (timesFreed i later h.clear) := by
  rw [generationAt_afterAll (accounts_clear h) hclear]
  exact UInt32.zero_add _

/-- What a handle reaches after a clearing is decided by what has happened since, whatever there was
before. -/
theorem lookup?_of_cleared (h : Heap) (hclear : .clear ∉ later) (x : Handle) :
    (afterAll later h.clear).lookup? x =
      if x.generation = UInt32.ofNat (timesFreed x.index later h.clear) then
        (afterAll later h.clear).occupant? x.index
      else none := by
  rw [lookup?_eq_occupant?, generationAt_of_cleared h hclear]

/-- Exactly when a reference is stale after a clearing, in whatever history: as long as its slot is
vacant, or has not lost as many objects since the clearing as the generation of the reference says,
modulo 2^32. Otherwise it resolves to the object that is in the slot now, if that is of its kind. -/
theorem stale_after_clear_iff (config : HeapConfig) (before later : List Operation)
    (hclear : .clear ∉ later) (ht : afterAll (before ++ .clear :: later) (empty config) = t)
    (r : HeapRef) :
    ((∀ access : Access, access.run r t = .error (access.fault r) t) ↔
      t.occupant? r.handle.index = none ∨ r.handle.generation ≠ UInt32.ofNat
        (timesFreed r.handle.index later (afterAll before (empty config)).clear)) ∧
    ∀ object, t.deref r = .ok object ↔
      t.occupant? r.handle.index = some object ∧ r.handle.generation = UInt32.ofNat
        (timesFreed r.handle.index later (afterAll before (empty config)).clear) ∧
      object.kind = r.kind := by
  -- What a handle reaches since the clearing is told by how often its slot was vacated since.
  have hlook := lookup?_of_cleared (afterAll before (empty config)) hclear r.handle
  have hcleared : afterAll later (afterAll before (empty config)).clear = t := by
    rw [← ht, afterAll_append]
    rfl
  rw [hcleared] at hlook
  generalize UInt32.ofNat _ = generation at hlook ⊢
  refine ⟨?_, fun object => ?_⟩
  · rw [stale_iff, hlook]
    split
    next hsame => simp [hsame]
    next hother => simp [hother]
  · rw [deref_eq_ok_iff, hlook]
    split
    next hsame => simp [hsame]
    next hother => simp [hother]

/-- The reference to a string that was dropped leads to the next string that is made, and is stale
again once that one was released. -/
theorem stale_after_clear_iff_string :
    let r : HeapRef := ⟨.string, ⟨0, 0⟩⟩
    (∃ t, (Operation.allocString "old").run (empty {}) = .ok (.made r) t) ∧
    (∃ object, (afterAll ([.allocString "old"] ++ .clear :: [.allocString "new"])
      (empty {})).deref r = .ok object ∧ object.kind = .string) ∧
    ∀ access : Access, access.run r (afterAll ([.allocString "old"] ++
        .clear :: [.allocString "new", .release ⟨0, 0⟩, .allocString "newest"]) (empty {})) =
      .error (access.fault r) (afterAll ([.allocString "old"] ++
        .clear :: [.allocString "new", .release ⟨0, 0⟩, .allocString "newest"]) (empty {})) := by
  intro r
  obtain ⟨-, hresolves⟩ := stale_after_clear_iff {} [.allocString "old"] [.allocString "new"]
    (by simp) rfl r
  obtain ⟨hstale, -⟩ := stale_after_clear_iff {} [.allocString "old"]
    [.allocString "new", .release ⟨0, 0⟩, .allocString "newest"] (by simp) rfl r
  refine ⟨⟨_, rfl⟩, ⟨.string "new", (hresolves _).2 ⟨rfl, rfl, rfl⟩, rfl⟩, hstale.2 (.inr ?_)⟩
  decide +kernel

/-- A handle may survive a clearing: the reference to a byte that was dropped reads the storage of
the next buffer. -/
theorem not_always_stale_after_clear :
    ¬ ∀ (config : HeapConfig) (before between later : List Operation) (op : Operation) (r : HeapRef)
      (t : Heap), op.run (afterAll before (empty config)) = .ok (.made r) t →
      (∀ object, (afterAll (between ++ .clear :: later) t).deref r ≠ .ok object) ∧
      Access.fixedBytes.run r (afterAll (between ++ .clear :: later) t) =
        .error .staleHandle (afterAll (between ++ .clear :: later) t) := by
  intro hclaim
  have hmade : (Operation.allocate .fixedBuffer 1).run (afterAll [] (empty {})) =
      .ok (.made ⟨.fixedBuffer, ⟨0, 0⟩⟩) ((Operation.allocate .fixedBuffer 1).after (empty {})) := by
    rfl
  obtain ⟨hnone, -⟩ := hclaim {} [] [] [.allocBuffer 3] _ _ _ hmade
  exact hnone (.fixedBuffer (zeroBytes 3)) rfl

end ActorMachine.Heap
