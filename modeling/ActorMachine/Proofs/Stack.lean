import ActorMachine.Proofs.Ensures
import ActorMachine.Stack

/-!
# What the operations of the stack do

One rule for each operation says exactly when it fails, that a failure changes nothing, and what
the stack is after a success.

* `Fits`: a stack keeps its values within its capacity, and that within what can be allocated.
* `Admits`: the limit and the memory allow for some more values.
* `reserve_spec`, `push_spec`: only reserving room and pushing change the capacity, and they only
  raise it. They fail exactly if what they need is not admitted; below the capacity a push cannot
  fail.
-/

namespace ActorMachine.Stack

variable {s : Stack} {fail : Fault → Stack → Prop}

@[simp]
theorem length_toList (s : Stack) : s.toList.length = s.size :=
  Array.length_toList

@[simp]
theorem toList_pushed (s : Stack) (v : Value) (capacity : Nat) :
    ({ s with values := s.values.push v, capacity } : Stack).toList = s.toList ++ [v] :=
  Array.toList_push

@[simp]
theorem size_pushed (s : Stack) (v : Value) (capacity : Nat) :
    ({ s with values := s.values.push v, capacity } : Stack).size = s.size + 1 :=
  Array.size_push v

@[simp]
theorem toList_popped (s : Stack) :
    ({ s with values := s.values.pop } : Stack).toList = s.toList.dropLast :=
  Array.toList_pop

@[simp]
theorem toList_set (s : Stack) (n : Nat) (v : Value) :
    ({ s with values := s.values.setIfInBounds n v } : Stack).toList = s.toList.set n v :=
  Array.toList_setIfInBounds

@[simp]
theorem toList_erased (s : Stack) (n : Nat) :
    ({ s with values := s.values.eraseIdxIfInBounds n } : Stack).toList = s.toList.eraseIdx n :=
  Array.toList_eraseIdxIfInBounds

@[simp]
theorem getLast?_toList (s : Stack) : s.toList.getLast? = s.top? :=
  Array.getLast?_toList s.values

@[simp]
theorem getElem?_toList (s : Stack) (n : Nat) : s.toList[n]? = s.values[n]? :=
  Array.getElem?_toList

/-- The values of a stack lie within its capacity, and that within what the limit and the memory
allow. -/
structure Fits (s : Stack) : Prop where
  /-- There is room for the values present. -/
  size_le : s.size ≤ s.capacity
  /-- The room set aside is not more than may be. -/
  capacity_le : s.capacity ≤ s.limit
  /-- The room set aside is not more than can be. -/
  capacity_lt : s.capacity < allocatable

theorem fits_empty (limit : Nat) : (empty limit).Fits :=
  ⟨Nat.le_refl 0, Nat.zero_le limit, Nat.zero_lt_succ _⟩

theorem Fits.truncate (hs : s.Fits) (n : Nat) : (s.truncate n).Fits := by
  refine ⟨?_, hs.capacity_le, hs.capacity_lt⟩
  rw [size_truncate]
  exact Nat.le_trans (Nat.min_le_right n s.size) hs.size_le

theorem Fits.set (hs : s.Fits) (n : Nat) (v : Value) :
    ({ s with values := s.values.setIfInBounds n v } : Stack).Fits := by
  refine ⟨?_, hs.capacity_le, hs.capacity_lt⟩
  rw [← length_toList, toList_set, List.length_set, length_toList]
  exact hs.size_le

theorem Fits.popped (hs : s.Fits) : ({ s with values := s.values.pop } : Stack).Fits := by
  refine ⟨?_, hs.capacity_le, hs.capacity_lt⟩
  rw [← length_toList, toList_popped, List.length_dropLast, length_toList]
  exact Nat.le_trans (Nat.sub_le _ _) hs.size_le

theorem Fits.erased (hs : s.Fits) (n : Nat) :
    ({ s with values := s.values.eraseIdxIfInBounds n } : Stack).Fits := by
  refine ⟨?_, hs.capacity_le, hs.capacity_lt⟩
  rw [← length_toList, toList_erased]
  exact Nat.le_trans (List.length_eraseIdx_le _ _) (length_toList s ▸ hs.size_le)

@[simp]
theorem ensures_pop {ok : Unit → Stack → Prop} (n : Nat) :
    Ensures (pop n) s ok fail ↔
      (n ≤ s.size → ok () (s.truncate (s.size - n))) ∧
        (s.size < n → fail (.stackUnderflow n s.size) s) := by
  rw [pop, ensures_bind, ensures_get]
  dsimp only
  split
  next hlt =>
    rw [ensures_bind, ensures_throw]
    exact ⟨fun h => ⟨fun hle => absurd hlt (Nat.not_lt.2 hle), fun _ => h⟩, fun h => h.2 hlt⟩
  next hle =>
    rw [ensures_modify]
    exact ⟨fun h => ⟨fun _ => h, fun hlt => absurd hlt hle⟩, fun h => h.1 (Nat.not_lt.1 hle)⟩

@[simp]
theorem ensures_popValue {ok : Value → Stack → Prop} :
    Ensures popValue s ok fail ↔
      (∀ v, s.top? = some v → ok v { s with values := s.values.pop }) ∧
        (s.top? = none → fail (.stackUnderflow 1 0) s) := by
  rw [popValue, ensures_bind, ensures_get]
  cases s.top? <;> simp

@[simp]
theorem ensures_setSlot {ok : Unit → Stack → Prop} (n : Nat) (v : Value) :
    Ensures (setSlot n v) s ok fail ↔
      (n < s.size → ok () { s with values := s.values.setIfInBounds n v }) ∧
        (s.size ≤ n → fail (.badIndex (n + 1)) s) := by
  rw [setSlot, ensures_bind, ensures_get]
  split
  next hlt => simp [hlt, Nat.not_le.2 hlt]
  next hle => simp [hle, Nat.not_lt.1 hle]

@[simp]
theorem ensures_setAt {ok : Unit → Stack → Prop} (index : Int64) (v : Value) :
    Ensures (setAt index v) s ok fail ↔
      (∀ n, s.slotOf index = .ok n → Ensures (setSlot n v) s ok fail) ∧
        ∀ fault, s.slotOf index = .error fault → fail fault s := by
  rw [setAt, ensures_bind, ensures_get, ensures_bind, ensures_ofExcept]

/-- A slot answers its value. -/
theorem slot_eq_ok_iff {n : Nat} {v : Value} : s.slot n = .ok v ↔ s.values[n]? = some v := by
  rw [slot]
  cases s.values[n]? <;> simp

/-- An index that is not refused is that of a slot. -/
theorem lt_of_slotOf {index : Int64} {n : Nat} (h : s.slotOf index = .ok n) : n < s.size := by
  rw [slotOf] at h
  generalize (if index.toInt < 0 then (s.size : Int) + index.toInt else index.toInt - 1) = slot at h
  split at h
  next => cases h
  next hin =>
    obtain rfl := Except.ok.inj h
    omega

/-- The index `-1` addresses the top value. -/
theorem slotOf_neg_one_eq_ok_iff {n : Nat} :
    s.slotOf (-1) = .ok n ↔ 0 < s.size ∧ n = s.size - 1 := by
  have hneg : (-1 : Int64).toInt = -1 := by decide
  have htop : (if (-1 : Int) < 0 then (s.size : Int) + -1 else -1 - 1) = s.size - 1 := by
    rw [if_pos (by decide)]
    omega
  rw [slotOf, hneg, htop]
  split
  next hout =>
    constructor
    · intro h
      cases h
    · intro h
      omega
  next hin =>
    rw [Except.ok.injEq]
    omega

/-- What is within the limit and the word size, the grown capacity reaches. -/
theorem le_grownCapacity {needed : Nat} (hlimit : needed ≤ s.limit)
    (hword : needed ≤ Capacity.maxWord) : needed ≤ s.grownCapacity needed := by
  have hpos : 0 < max s.capacity minCapacity :=
    Nat.lt_of_lt_of_le (by decide) (Nat.le_max_right _ _)
  exact Nat.le_min.2 ⟨Capacity.le_grow hpos hword, hlimit⟩

/-- The limit and the memory admit `more` values above those present. -/
structure Admits (s : Stack) (more : Nat) : Prop where
  /-- They stay within the limit. -/
  le_limit : s.size + more ≤ s.limit
  /-- What the capacity grows to for them can be allocated. -/
  grown_lt : s.grownCapacity (Capacity.add s.size more) < allocatable

/-- Room that is there is admitted. -/
theorem Fits.admits_of_le (hs : s.Fits) {more : Nat} (hroom : s.size + more ≤ s.capacity) :
    s.Admits more := by
  have hneed : Capacity.add s.size more ≤ max s.capacity minCapacity :=
    Nat.le_trans (Nat.min_le_left _ _) (Nat.le_trans hroom (Nat.le_max_left _ _))
  refine ⟨Nat.le_trans hroom hs.capacity_le, ?_⟩
  rw [grownCapacity, Capacity.grow_of_le hneed]
  exact Nat.lt_of_le_of_lt (Nat.min_le_left _ _) (Nat.max_lt.2 ⟨hs.capacity_lt, by decide⟩)

/-- Memory does not run out for a stack that may not become so large, nor for one that is not. Then
only the limit matters. -/
theorem Fits.admits_iff (hs : s.Fits) {more : Nat}
    (hmemory : s.limit < allocatable ∨ s.size + more ≤ allocatable / 2) :
    s.Admits more ↔ s.size + more ≤ s.limit := by
  refine ⟨Admits.le_limit, fun hle => ⟨hle, ?_⟩⟩
  rcases hmemory with hlimit | hsize
  · exact Nat.lt_of_le_of_lt (Nat.min_le_right _ _) hlimit
  · -- Doubling ends below twice of what is needed.
    have hgrow := Capacity.grow_lt (max s.capacity minCapacity) (Capacity.add s.size more)
    have hneed : Capacity.add s.size more ≤ s.size + more := Nat.min_le_left _ _
    have hcapacity := hs.capacity_lt
    rw [grownCapacity]
    simp only [allocatable, minCapacity] at hsize hcapacity hgrow ⊢
    omega

/-- Reserving makes room for the values asked for, by raising the capacity at most. It fails only
if there was less room, and exactly if the values are not admitted. -/
theorem reserve_spec (hs : s.Fits) (more : Nat) :
    Ensures (reserve more) s
      (fun _ t => ∃ capacity, t = { s with capacity } ∧ s.capacity ≤ capacity ∧ t.Fits ∧
        s.size + more ≤ capacity ∧ s.Admits more)
      (fun fault t => t = s ∧ s.capacity < s.size + more ∧ ¬ s.Admits more ∧
        (s.limit < allocatable → fault = .stackOverflow s.limit)) := by
  have hneed : Capacity.add s.size more ≤ s.size + more := Nat.min_le_left _ _
  have hword : Capacity.add s.size more ≤ Capacity.maxWord := Nat.min_le_right _ _
  -- A sum that sticks at the largest word is more than can be allocated.
  have hexact : Capacity.add s.size more < allocatable →
      s.size + more ≤ Capacity.add s.size more := by
    intro hlt
    simp only [Capacity.add, Capacity.maxWord, allocatable] at hlt ⊢
    omega
  rw [reserve, ensures_bind, ensures_get]
  dsimp only
  by_cases hlimit : s.limit < Capacity.add s.size more
  · have hover := Nat.lt_of_lt_of_le hlimit hneed
    rw [if_pos hlimit, ensures_bind, ensures_throw]
    exact ⟨rfl, Nat.lt_of_le_of_lt hs.capacity_le hover,
      fun hadmits => absurd hadmits.le_limit (Nat.not_le.2 hover), fun _ => rfl⟩
  · rw [if_neg hlimit]
    have hgrown := le_grownCapacity (Nat.not_lt.1 hlimit) hword
    by_cases hfull : s.capacity < Capacity.add s.size more
    · rw [if_pos hfull]
      by_cases hbig : allocatable ≤ s.grownCapacity (Capacity.add s.size more)
      · rw [if_pos hbig, ensures_bind, ensures_throw]
        refine ⟨rfl, Nat.lt_of_lt_of_le hfull hneed,
          fun hadmits => absurd hadmits.grown_lt (Nat.not_lt.2 hbig), fun hsmall => ?_⟩
        exact absurd (Nat.le_trans hbig (Nat.min_le_right _ _)) (Nat.not_le.2 hsmall)
      · rw [if_neg hbig, ensures_modify]
        have hlt := Nat.not_le.1 hbig
        have hroom := hexact (Nat.lt_of_le_of_lt hgrown hlt)
        refine ⟨s.grownCapacity (Capacity.add s.size more), rfl, by omega,
          ⟨?_, Nat.min_le_right _ _, hlt⟩, by omega, ⟨by omega, hlt⟩⟩
        show s.size ≤ s.grownCapacity (Capacity.add s.size more)
        omega
    · rw [if_neg hfull]
      have hroom := hexact (Nat.lt_of_le_of_lt (Nat.not_lt.1 hfull) hs.capacity_lt)
      have hle : s.size + more ≤ s.capacity := by omega
      exact ⟨s.capacity, rfl, Nat.le_refl _, hs, hle, hs.admits_of_le hle⟩

/-- A push puts its value on top and raises the capacity at most. It fails only if the capacity is
used up, and exactly if one more value is not admitted. -/
theorem push_spec (hs : s.Fits) (v : Value) :
    Ensures (push v) s
      (fun _ t => ∃ capacity, t = { s with values := s.values.push v, capacity } ∧
        s.capacity ≤ capacity ∧ t.Fits ∧ s.Admits 1)
      (fun fault t => t = s ∧ s.size = s.capacity ∧ ¬ s.Admits 1 ∧
        (s.limit < allocatable → fault = .stackOverflow s.limit)) := by
  rw [push, ensures_bind, ensures_get]
  dsimp only
  -- Whatever the capacity is then, with room for the value within the limit the stack fits.
  have hpush : ∀ capacity, s.capacity ≤ capacity → s.size + 1 ≤ capacity → capacity ≤ s.limit →
      capacity < allocatable →
      ({ s with values := s.values.push v, capacity } : Stack).Fits := by
    intro capacity _ hsize hlimit hlt
    refine ⟨?_, hlimit, hlt⟩
    rwa [size_pushed]
  by_cases hfull : s.size = s.capacity
  · rw [if_pos hfull, ensures_bind]
    refine Ensures.mono (reserve_spec hs 1) ?_ ?_
    · rintro _ _ ⟨capacity, rfl, hle, hfits, hroom, hadmits⟩
      rw [ensures_modify]
      exact ⟨capacity, rfl, hle, hpush capacity hle hroom hfits.capacity_le hfits.capacity_lt,
        hadmits⟩
    · rintro _ _ ⟨rfl, -, hrefused⟩
      exact ⟨rfl, hfull, hrefused⟩
  · -- The limit is not looked at, but the capacity never exceeds it.
    rw [if_neg hfull]
    have hle := hs.size_le
    have hroom : s.size + 1 ≤ s.capacity := by omega
    exact ⟨s.capacity, rfl, Nat.le_refl _,
      hpush s.capacity (Nat.le_refl _) hroom hs.capacity_le hs.capacity_lt,
      hs.admits_of_le hroom⟩

end ActorMachine.Stack
