import ActorMachine.Proofs.Heap.Operations

/-!
# What a collection takes and what it leaves

* `Reaches`: what can be reached from some values through the handles that objects hold. Handles
  that are stale lead nowhere; how references are tagged plays no part.
* `exists_of_mark`, `marksFrom_iff`: the marks of a collection are the slots of the live objects
  that are reached, so reachability can be decided.
* `objects_collect`: the objects that a collection leaves are those that were reached.
* `collect_exact`: all that a collection does to a heap that has come about by operations.
-/

namespace ActorMachine.Heap

variable {h : Heap} {handle other : Handle} {object : HeapObject} {roots : List Value}
  {config : HeapConfig}

/-! ### Reachability -/

/-- A handle is reached from some values: it is the handle of one of them, or a live object that is
reached holds it. -/
inductive Reaches (h : Heap) (roots : List Value) : Handle → Prop
  /-- It is the handle of a root. -/
  | root {v : Value} {handle : Handle} (mem : v ∈ roots) (names : v.handle? = some handle) :
      Reaches h roots handle
  /-- An object that is reached holds it. -/
  | reference {handle other : Handle} {object : HeapObject} (reached : Reaches h roots handle)
      (live : h.lookup? handle = some object) (mem : other ∈ object.references) :
      Reaches h roots other

/-- If only slots of live objects that are reached are marked, and the work list has reached handles
only, marking marks no others. -/
theorem exists_of_mark {marks : Array Bool} {work : List Handle}
    (hmarks : ∀ i, marks[i]? = some true →
      ∃ handle, handle.index = i ∧ (h.lookup? handle).isSome ∧ h.Reaches roots handle)
    (hwork : ∀ handle ∈ work, h.Reaches roots handle) {i : Nat}
    (hi : (h.mark marks work)[i]? = some true) :
    ∃ handle, handle.index = i ∧ (h.lookup? handle).isSome ∧ h.Reaches roots handle := by
  fun_induction mark h marks work with
  | case1 => exact hmarks i hi
  | case3 marks first work object hlook hlt hm ih =>
    -- The slot that is marked here is that of the first handle, and its references are reached.
    have hfirst := hwork first List.mem_cons_self
    refine ih (fun j hj => ?_) (fun handle hmem => ?_) hi
    · by_cases heq : first.index = j
      · exact ⟨first, heq, by simp [hlook], hfirst⟩
      · exact hmarks j (by simpa [heq] using hj)
    · rcases List.mem_append.1 hmem with hmem | hmem
      · exact .reference hfirst hlook hmem
      · exact hwork handle (List.mem_cons_of_mem _ hmem)
  | case2 _ _ _ _ ih | case4 _ _ _ _ _ _ _ ih | case5 _ _ _ _ _ _ ih =>
    exact ih hmarks (fun handle hmem => hwork handle (List.mem_cons_of_mem _ hmem)) hi

/-- A slot is marked exactly if its object is reached. -/
theorem marksFrom_iff (hlook : h.lookup? handle = some object) :
    (h.marksFrom roots)[handle.index]? = some true ↔ h.Reaches roots handle := by
  constructor
  · intro hmarked
    obtain ⟨other, hindex, hlive, hreached⟩ :=
      exists_of_mark (by simp [Array.getElem?_replicate]) (fun x hx => by
        obtain ⟨v, hv, hnames⟩ := List.mem_filterMap.1 hx
        exact .root hv hnames) hmarked
    -- A mark tells the slot only, but a slot has one live object at most.
    obtain ⟨object', hlook'⟩ := Option.isSome_iff_exists.1 hlive
    rwa [← eq_of_index_eq hlook hlook' hindex]
  · intro hreached
    induction hreached generalizing object with
    | root hmem hnames => exact marksFrom_root hmem hnames hlook
    | reference _ hlive hmem ih =>
      exact marksFrom_reference hlive (ih hlive) hmem (by simp [hlook])

/-- Only finitely many places have to be looked at to see whether a handle is reached. -/
theorem reaches_iff : h.Reaches roots handle ↔ handle ∈ roots.filterMap Value.handle? ∨
    ∃ entry ∈ h.objects, (h.marksFrom roots)[entry.1.index]? = some true ∧
      handle ∈ entry.2.references := by
  constructor
  · rintro (⟨hmem, hnames⟩ | ⟨hreached, hlive, hmem⟩)
    · exact .inl (List.mem_filterMap.2 ⟨_, hmem, hnames⟩)
    · exact .inr ⟨_, mem_objects.2 hlive, (marksFrom_iff hlive).2 hreached, hmem⟩
  · rintro (hmem | ⟨⟨other, object⟩, hentry, hmarked, hmem⟩)
    · obtain ⟨v, hv, hnames⟩ := List.mem_filterMap.1 hmem
      exact .root hv hnames
    · have hlive := mem_objects.1 hentry
      exact .reference ((marksFrom_iff hlive).1 hmarked) hlive hmem

instance (h : Heap) (roots : List Value) : DecidablePred (h.Reaches roots) :=
  fun _ => decidable_of_iff _ reaches_iff.symm

/-! ### Collecting -/

/-- The live objects that are reached. -/
def kept (h : Heap) (roots : List Value) : List (Handle × HeapObject) :=
  h.objects.filter fun entry => h.Reaches roots entry.1

/-- The live objects that are not reached. -/
def garbage (h : Heap) (roots : List Value) : List (Handle × HeapObject) :=
  h.objects.filter fun entry => ¬h.Reaches roots entry.1

/-- Every object is reached or not. -/
theorem perm_kept_append_garbage (h : Heap) (roots : List Value) :
    (h.kept roots ++ h.garbage roots).Perm h.objects := by
  simpa [kept, garbage] using List.filter_append_perm (fun entry => h.Reaches roots entry.1) h.objects

/-- Of a live object, the mark of its slot tells whether it is reached. -/
theorem decide_reaches_eq {entry : Handle × HeapObject} (hentry : entry ∈ h.objects) :
    decide (h.Reaches roots entry.1) = ((h.marksFrom roots)[entry.1.index]? == some true) := by
  rw [Bool.eq_iff_iff, decide_eq_true_iff, beq_iff_eq, marksFrom_iff (mem_objects.1 hentry)]

/-- The objects that are reached lie in the slots with a mark. -/
theorem kept_eq (h : Heap) (roots : List Value) :
    h.kept roots = h.objects.filter fun entry =>
      (h.marksFrom roots)[entry.1.index]? == some true :=
  List.filter_congr fun _ hentry => decide_reaches_eq hentry

/-- The garbage lies in the slots without a mark. -/
theorem garbage_eq (h : Heap) (roots : List Value) :
    h.garbage roots = h.objects.filter fun entry =>
      !((h.marksFrom roots)[entry.1.index]? == some true) :=
  List.filter_congr fun _ hentry => by rw [decide_not, decide_reaches_eq hentry]

/-- What can be looked up after a collection could be looked up before, and was reached. -/
theorem lookup?_collect_eq_some_iff : (h.collect roots).2.lookup? handle = some object ↔
    h.lookup? handle = some object ∧ h.Reaches roots handle := by
  rw [lookup?_collect]
  constructor
  · intro hleft
    split at hleft
    next hmarked => exact ⟨hleft, (marksFrom_iff hleft).1 hmarked⟩
    next => cases hleft
  · rintro ⟨hlook, hreached⟩
    rw [if_pos ((marksFrom_iff hlook).2 hreached), hlook]

/-- What a collection leaves is what was reached, each object in its slot and with its
generation. -/
theorem objects_collect (h : Heap) (roots : List Value) :
    (h.collect roots).2.objects = h.kept roots := by
  have hkept : (h.kept roots).Pairwise fun a b => a.1.index < b.1.index :=
    h.pairwise_objects.filter _
  -- Both lists are in the order of the slots, so it is enough that their elements are the same.
  refine List.Perm.eq_of_pairwise (fun a b _ _ hab hba => absurd hab (Nat.lt_asymm hba))
    (pairwise_objects _) hkept (perm_objects_of_lookup? (h.nodup_objects.filter _) ?_)
  intro x o
  rw [kept, List.mem_filter, mem_objects, decide_eq_true_iff, lookup?_collect_eq_some_iff]

/-- A sweep counts the object that it takes. -/
theorem freed_sweepSlot (marks : Array Bool) (freed index : Nat) (h : Heap) :
    (sweepSlot marks (freed, h) index).1 + (sweepSlot marks (freed, h) index).2.objects.length =
      freed + h.objects.length := by
  rw [sweepSlot]
  split
  next generation object hslot =>
    split
    next => rfl
    next =>
      have hlook : h.lookup? ⟨index, generation⟩ = some object := lookup?_eq_some_iff.2 hslot
      have hlength := (perm_objects_release hlook).length_eq
      rw [List.length_cons] at hlength
      change freed + 1 + (h.release ⟨index, generation⟩).objects.length = _
      omega
  next => rfl

theorem freed_foldl_sweepSlot (marks : Array Bool) (indices : List Nat) (freed : Nat) (h : Heap) :
    (indices.foldl (sweepSlot marks) (freed, h)).1 +
        (indices.foldl (sweepSlot marks) (freed, h)).2.objects.length =
      freed + h.objects.length := by
  induction indices generalizing freed h with
  | nil => rfl
  | cons index indices ih =>
    rw [List.foldl_cons, ← freed_sweepSlot marks freed index h]
    exact ih _ _

/-- A collection answers how many objects it has taken. -/
theorem freed_collect (h : Heap) (roots : List Value) :
    (h.collect roots).1 + (h.collect roots).2.objects.length = h.objects.length := by
  have hswept := freed_foldl_sweepSlot (h.marksFrom roots) (List.range h.slots.size) 0
    { h with stats := { h.stats with collections := h.stats.collections + 1 } }
  rw [Nat.zero_add] at hswept
  exact hswept

/-- What a collection does: exactly the live objects that are reached are left, in their slots, with
their generations and as they were. All handles of the others are stale; their number is answered,
and the bytes charged for them are given back. No collection is due afterwards, unless one always
is. -/
theorem collect_exact (hreached : Reached config h) (roots : List Value) :
    (h.collect roots).2.objects = h.kept roots ∧
      (∀ entry ∈ h.garbage roots, (h.collect roots).2.lookup entry.1 = .error .staleHandle) ∧
      (h.collect roots).1 = (h.garbage roots).length ∧
      (h.collect roots).2.used + chargeOf (h.garbage roots) = h.used ∧
      ((h.collect roots).2.shouldCollect = true ↔ config.gcThreshold = 0) := by
  have hbefore := balanced_of_reached hreached
  have hafter := hbefore.evolves (evolves_collect roots h)
  have hparts := perm_kept_append_garbage h roots
  refine ⟨objects_collect h roots, fun ⟨x, o⟩ hentry => ?_, ?_, ?_, ?_⟩
  · -- An object that is not marked goes with the sweep, and no handle reaches it then.
    obtain ⟨hmem, hgarbage⟩ := List.mem_filter.1 hentry
    have hlook := mem_objects.1 hmem
    have hgone : (h.collect roots).2.lookup? x = none := by
      rw [lookup?_collect, if_neg]
      simpa [marksFrom_iff hlook] using hgarbage
    rw [lookup, hgone]
  · -- The objects before are those that are kept and those that are not, each of them once.
    have hlength := hparts.length_eq
    have hfreed := freed_collect h roots
    rw [objects_collect] at hfreed
    rw [List.length_append] at hlength
    omega
  · rw [hafter.used, hbefore.used, objects_collect, ← chargeOf_eq_of_perm hparts, chargeOf_append]
  · have hconfig : (h.collect roots).2.config = config := by
      rw [config_eq_of_evolves (evolves_collect roots h), config_of_reached hreached]
    rw [shouldCollect, hconfig]
    simp [collect]

/-- Two closures that have captured each other, the first one by a handle that was made up before
the second one was there. The slot of the first one has lost a string before, of which the second
one has captured the handle as well. Besides there are a buffer and another string. -/
def knot : Heap :=
  [Operation.allocString "old", .release ⟨0, 0⟩,
    .allocClosure (.loose .blank) #[.ref ⟨.string, ⟨1, 0⟩⟩],
    .allocClosure (.loose .blank) #[.ref ⟨.closure, ⟨0, 1⟩⟩, .ref ⟨.string, ⟨0, 0⟩⟩],
    .allocBuffer 4, .allocString "lost"].foldl (fun h op => op.after h) (empty {})

/-- A reference to the second closure that is tagged as one to a buffer, a handle beyond the last
slot and one of a generation that the last slot does not have yet. -/
def knotRoots : List Value :=
  [.ref ⟨.buffer, ⟨1, 0⟩⟩, .ref ⟨.closure, ⟨9, 0⟩⟩, .ref ⟨.string, ⟨4, 1⟩⟩]

/-- Each closure leads to the other one, and the remaining handles lead nowhere. -/
theorem marksFrom_knotRoots : knot.marksFrom knotRoots = #[true, true, false, false, false] := by
  have hfirst : (knot.lookup? ⟨0, 1⟩).map HeapObject.references = some [⟨1, 0⟩] := rfl
  have hsecond : (knot.lookup? ⟨1, 0⟩).map HeapObject.references = some [⟨0, 1⟩, ⟨0, 0⟩] := rfl
  have hnowhere : knot.lookup? ⟨9, 0⟩ = none ∧ knot.lookup? ⟨4, 1⟩ = none ∧
      knot.lookup? ⟨0, 0⟩ = none := ⟨rfl, rfl, rfl⟩
  obtain ⟨first, hfirst, hleads⟩ := Option.map_eq_some_iff.1 hfirst
  obtain ⟨second, hsecond, hleads'⟩ := Option.map_eq_some_iff.1 hsecond
  change knot.mark (Array.replicate 5 false) [⟨1, 0⟩, ⟨9, 0⟩, ⟨4, 1⟩] = _
  simp [mark, hfirst, hsecond, hnowhere, hleads, hleads']
  rfl

/-- The closures are left. The buffer, its storage and the string are not. -/
theorem collect_exact_knot :
    Reached {} knot ∧
      (knot.collect knotRoots).2.objects.map Prod.fst = [⟨0, 1⟩, ⟨1, 0⟩] ∧
      (knot.collect knotRoots).2.lookup ⟨4, 0⟩ = .error .staleHandle ∧
      (knot.collect knotRoots).1 = 3 ∧ (knot.collect knotRoots).2.used + 32 = knot.used ∧
      ¬(knot.collect knotRoots).2.shouldCollect = true := by
  have hreached : Reached {} knot := Reached.empty.foldl _
  obtain ⟨hobjects, hstale, hfreed, hused, hdue⟩ := collect_exact hreached knotRoots
  -- What is reached is told by the marks, which can be computed.
  have hgarbage : (knot.garbage knotRoots).map (fun entry => (entry.1, entry.2.charge)) =
      [(⟨2, 0⟩, 4), (⟨3, 0⟩, 24), (⟨4, 0⟩, 4)] := by
    rw [garbage_eq, marksFrom_knotRoots]
    decide +kernel
  have hkept : (knot.kept knotRoots).map Prod.fst = [⟨0, 1⟩, ⟨1, 0⟩] := by
    rw [kept_eq, marksFrom_knotRoots]
    decide +kernel
  refine ⟨hreached, by rw [hobjects, hkept], ?_, ?_, ?_, fun hcollect => ?_⟩
  · have hmem : (⟨4, 0⟩, 4) ∈ (knot.garbage knotRoots).map fun entry => (entry.1, entry.2.charge) := by
      simp [hgarbage]
    obtain ⟨entry, hentry, heq⟩ := List.mem_map.1 hmem
    rw [← (Prod.mk.inj heq).1]
    exact hstale entry hentry
  · rw [hfreed, ← List.length_map, hgarbage]
    rfl
  · have hcharge : chargeOf (knot.garbage knotRoots) = 32 := by
      simpa [chargeOf, Function.comp_def] using congrArg (fun l => (l.map Prod.snd).sum) hgarbage
    rw [← hused, hcharge]
  · exact absurd (hdue.1 hcollect) (by decide)

end ActorMachine.Heap
