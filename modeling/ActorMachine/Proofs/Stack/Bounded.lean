import ActorMachine.Proofs.Stack

/-!
# The operand stack is a bounded list

A stack grows by doubling, and looks at its limit only when its room is used up. Its users think of
a list that holds as many values as the limit says and no more. This file shows that the two never
come apart, whatever is done to the stack and in whatever order.

* `Operation.onList`: what the operations do to a list of limited length.
* `ensures_act`: an operation does to the stack what it does to the list, and keeps the capacity
  within the limit.
* `slotOf_eq_position`: the positions that signed indices stand for. `toInt_offset` says that
  sixty-four bits suffice to compute them.
* `isBoundedList`: what comes of every run on a stack that may not become larger than the memory.
-/

namespace ActorMachine.Stack

/-- What is done to a stack. -/
inductive Operation
  /-- Puts a value on top. -/
  | push (v : Value)
  /-- Discards some values from the top. -/
  | pop (n : Nat)
  /-- Takes the top value. -/
  | popValue
  /-- Overwrites the value at a signed index. -/
  | setAt (index : Int64) (v : Value)
  /-- Overwrites a slot. -/
  | setSlot (n : Nat) (v : Value)
  /-- Takes a value out of the middle. -/
  | removeSlot (n : Nat)
  /-- Keeps some values at the bottom. -/
  | truncate (n : Nat)
  /-- Makes room for some more values. -/
  | reserve (more : Nat)
  /-- Drops all values and gives the room back. -/
  | release
deriving DecidableEq, Repr, Inhabited

/-- The position in a list that a signed index stands for: counted from one from its beginning, or
from minus one from its end. -/
def position (length : Nat) (index : Int64) : Except Fault Nat :=
  if 1 ≤ index.toInt ∧ index.toInt ≤ length then .ok (index.toInt - 1).toNat
  else if -(length : Int) ≤ index.toInt ∧ index.toInt ≤ -1 then .ok (length + index.toInt).toNat
  else .error (.badIndex index.toInt)

namespace Operation

/-- Does it to a stack. Only some operations answer a value. -/
def act : Operation → Action (Option Value)
  | push v => do Stack.push v; return none
  | pop n => do Stack.pop n; return none
  | popValue => some <$> Stack.popValue
  | setAt index v => do Stack.setAt index v; return none
  | setSlot n v => do Stack.setSlot n v; return none
  | removeSlot n => some <$> Stack.removeSlot n
  | truncate n => do modify (Stack.truncate n); return none
  | reserve more => do Stack.reserve more; return none
  | release => do modify Stack.release; return none

/-- Does it to a list that holds at most `limit` values. Where it fails the list stays. -/
def onList (limit : Nat) : Operation → List Value → Except Fault (Option Value × List Value)
  | push v, vs =>
    if vs.length < limit then .ok (none, vs ++ [v]) else .error (.stackOverflow limit)
  | pop n, vs =>
    if n ≤ vs.length then .ok (none, vs.take (vs.length - n))
    else .error (.stackUnderflow n vs.length)
  | popValue, vs =>
    match vs.getLast? with
    | some v => .ok (some v, vs.dropLast)
    | none => .error (.stackUnderflow 1 0)
  | setAt index v, vs =>
    match position vs.length index with
    | .ok n => .ok (none, vs.set n v)
    | .error fault => .error fault
  | setSlot n v, vs =>
    if n < vs.length then .ok (none, vs.set n v) else .error (.badIndex (n + 1))
  | removeSlot n, vs =>
    match vs[n]? with
    | some v => .ok (some v, vs.eraseIdx n)
    | none => .error (.badIndex (n + 1))
  | truncate n, vs => .ok (none, vs.take n)
  | reserve more, vs =>
    if vs.length + more ≤ limit then .ok (none, vs) else .error (.stackOverflow limit)
  | release, _ => .ok (none, [])

end Operation

variable {s : Stack} {fail : Fault → Stack → Prop}

/-! ### Signed indices -/

/-- A stack takes a signed index for the position that it stands for. -/
theorem slotOf_eq_position (s : Stack) (index : Int64) :
    s.slotOf index = position s.size index := by
  rw [slotOf, position]
  -- One side computes a slot and then looks whether it exists, the other one looks at the index. So
  -- each range of indices is settled by itself; zero is among those that are not negative.
  by_cases hneg : index.toInt < 0
  · have hpos : ¬ (1 ≤ index.toInt ∧ index.toInt ≤ s.size) := by omega
    rw [if_pos hneg, if_neg hpos]
    by_cases hin : -(s.size : Int) ≤ index.toInt
    · have hslot : ¬ (s.size + index.toInt < 0 ∨ (s.size : Int) ≤ s.size + index.toInt) := by omega
      rw [if_neg hslot, if_pos ⟨hin, by omega⟩]
    · have hslot : s.size + index.toInt < 0 := by omega
      rw [if_pos (.inl hslot), if_neg fun h => hin h.1]
  · have hback : ¬ (-(s.size : Int) ≤ index.toInt ∧ index.toInt ≤ -1) := by omega
    rw [if_neg hneg, if_neg hback]
    by_cases hin : 1 ≤ index.toInt ∧ index.toInt ≤ s.size
    · have hslot : ¬ (index.toInt - 1 < 0 ∨ (s.size : Int) ≤ index.toInt - 1) := by omega
      rw [if_neg hslot, if_pos hin]
    · have hslot : index.toInt - 1 < 0 ∨ (s.size : Int) ≤ index.toInt - 1 := by omega
      rw [if_pos hslot, if_neg hin]

/-- The size and what is computed from an index are numbers of sixty-four bits. -/
theorem toInt_offset (hs : s.Fits) (index : Int64) :
    (Int64.ofNat s.size).toInt = s.size ∧
      (index.toInt < 0 → (Int64.ofNat s.size + index).toInt = s.size + index.toInt) ∧
      (0 ≤ index.toInt → (index - 1).toInt = index.toInt - 1) := by
  -- So many values cannot be there, for their slots could not be allocated.
  have hsize : s.size < 2 ^ 63 := by
    have hle := hs.size_le
    have hlt := hs.capacity_lt
    rw [allocatable] at hlt
    omega
  have hword : (Int64.ofNat s.size).toInt = s.size := Int64.toInt_ofNat_of_lt hsize
  have hone : (1 : Int64).toInt = 1 := by decide
  have hlow := index.le_toInt
  have hhigh := index.toInt_lt
  -- The size is added to a negative number only, and one is taken from one that is not.
  refine ⟨hword, fun hneg => ?_, fun hpos => ?_⟩
  · rw [Int64.toInt_add, hword]
    exact Int.bmod_eq_of_le (by omega) (by omega)
  · rw [Int64.toInt_sub, hone]
    exact Int.bmod_eq_of_le (by omega) (by omega)

/-! ### One operation -/

@[simp]
theorem ensures_removeSlot {ok : Value → Stack → Prop} (n : Nat) :
    Ensures (removeSlot n) s ok fail ↔
      (∀ v, s.values[n]? = some v → ok v { s with values := s.values.eraseIdxIfInBounds n }) ∧
        (s.values[n]? = none → fail (.badIndex (n + 1)) s) := by
  rw [removeSlot, ensures_bind, ensures_get, ensures_bind, ensures_ofExcept, slot]
  cases s.values[n]? <;> simp

/-- An operation does to the stack what it does to the list, and keeps within the limit. Where it
fails it changes nothing. -/
theorem ensures_act (hs : s.Fits) (hlimit : s.limit < allocatable) (op : Operation) :
    Ensures op.act s
      (fun a t => op.onList s.limit s.toList = .ok (a, t.toList) ∧ t.Fits ∧ t.limit = s.limit)
      (fun fault t => op.onList s.limit s.toList = .error fault ∧ t = s) := by
  cases op with
  | push v =>
    -- One more value is admitted exactly if the list is not at its limit.
    have hadmits : s.Admits 1 ↔ s.size < s.limit := hs.admits_iff (.inl hlimit)
    rw [Operation.act, ensures_bind]
    refine (push_spec hs v).mono ?_ ?_
    · rintro _ _ ⟨capacity, rfl, -, hfits, hroom⟩
      refine ⟨?_, hfits, rfl⟩
      rw [Operation.onList, length_toList, if_pos (hadmits.1 hroom), toList_pushed]
    · rintro fault _ ⟨rfl, -, hfull, hfault⟩
      refine ⟨?_, rfl⟩
      rw [Operation.onList, length_toList, if_neg (mt hadmits.2 hfull), hfault hlimit]
  | pop n =>
    rw [Operation.act, ensures_bind, ensures_pop]
    refine ⟨fun hle => ⟨?_, hs.truncate _, rfl⟩, fun hlt => ⟨?_, rfl⟩⟩
    · rw [Operation.onList, length_toList, if_pos hle, toList_truncate]
    · rw [Operation.onList, length_toList, if_neg (Nat.not_le.2 hlt)]
  | popValue =>
    rw [Operation.act, ensures_map, ensures_popValue]
    refine ⟨fun v hv => ⟨?_, hs.popped, rfl⟩, fun hnone => ⟨?_, rfl⟩⟩
    · simp only [Operation.onList, getLast?_toList, hv, toList_popped]
    · simp only [Operation.onList, getLast?_toList, hnone]
  | setAt index v =>
    rw [Operation.act, ensures_bind, ensures_setAt]
    refine ⟨fun n hn => ?_, fun fault hfault => ⟨?_, rfl⟩⟩
    · -- The position is that of a slot, so the write cannot be refused.
      have hlt := lt_of_slotOf hn
      rw [slotOf_eq_position] at hn
      rw [ensures_setSlot]
      refine ⟨fun _ => ⟨?_, hs.set n v, rfl⟩, fun hle => absurd hlt (Nat.not_lt.2 hle)⟩
      simp only [Operation.onList, length_toList, hn, toList_set]
    · rw [slotOf_eq_position] at hfault
      simp only [Operation.onList, length_toList, hfault]
  | setSlot n v =>
    rw [Operation.act, ensures_bind, ensures_setSlot]
    refine ⟨fun hlt => ⟨?_, hs.set n v, rfl⟩, fun hle => ⟨?_, rfl⟩⟩
    · rw [Operation.onList, length_toList, if_pos hlt, toList_set]
    · rw [Operation.onList, length_toList, if_neg (Nat.not_lt.2 hle)]
  | removeSlot n =>
    rw [Operation.act, ensures_map, ensures_removeSlot]
    refine ⟨fun v hv => ⟨?_, hs.erased n, rfl⟩, fun hnone => ⟨?_, rfl⟩⟩
    · simp only [Operation.onList, getElem?_toList, hv, toList_erased]
    · simp only [Operation.onList, getElem?_toList, hnone]
  | truncate n =>
    refine ⟨?_, hs.truncate n, rfl⟩
    rw [Operation.onList, toList_truncate]
  | reserve more =>
    have hadmits : s.Admits more ↔ s.size + more ≤ s.limit := hs.admits_iff (.inl hlimit)
    rw [Operation.act, ensures_bind]
    refine (reserve_spec hs more).mono ?_ ?_
    · -- Only the capacity has changed, which a list does not have.
      rintro _ _ ⟨capacity, rfl, -, hfits, -, hroom⟩
      refine ⟨?_, hfits, rfl⟩
      rw [Operation.onList, length_toList, if_pos (hadmits.1 hroom)]
      rfl
    · rintro fault _ ⟨rfl, -, hrefused, hfault⟩
      refine ⟨?_, rfl⟩
      rw [Operation.onList, length_toList, if_neg (mt hadmits.2 hrefused), hfault hlimit]
  | release => exact ⟨rfl, fits_empty s.limit, rfl⟩

/-! ### Whole runs -/

/-- What an operation answers: a value, nothing, or a fault. -/
abbrev Answer := Except Fault (Option Value)

namespace Operation

/-- What it answers on a stack, and the stack afterwards. -/
def run (op : Operation) (s : Stack) : Answer × Stack :=
  match op.act s with
  | .ok a t => (.ok a, t)
  | .error fault t => (.error fault, t)

/-- What it answers on a list, and the list afterwards. -/
def runOnList (limit : Nat) (op : Operation) (vs : List Value) : Answer × List Value :=
  match op.onList limit vs with
  | .ok (a, ws) => (.ok a, ws)
  | .error fault => (.error fault, vs)

end Operation

/-- The stack that some operations make of an empty one. -/
def afterAll (limit : Nat) (ops : List Operation) : Stack :=
  ops.foldl (fun s op => (op.run s).2) (empty limit)

/-- The list that they make of an empty one. -/
def listAfterAll (limit : Nat) (ops : List Operation) : List Value :=
  ops.foldl (fun vs op => (op.runOnList limit vs).2) []

/-- A stack that is made with some room is an empty one where the room was reserved. -/
theorem eq_afterAll_of_withCapacity {capacity limit : Nat}
    (h : withCapacity capacity limit = .ok s) : s = afterAll limit [.reserve capacity] := by
  rw [withCapacity] at h
  show s = ((Operation.reserve capacity).run (empty limit)).2
  rw [Operation.run, Operation.act]
  simp only [bind, EStateM.bind]
  cases hreserve : reserve capacity (empty limit) with
  | ok _ t =>
    rw [hreserve] at h
    exact (Except.ok.inj h).symm
  | error fault t =>
    rw [hreserve] at h
    cases h

/-- The stack holds the values of a list, within a limit. -/
structure Holds (limit : Nat) (s : Stack) (vs : List Value) : Prop where
  /-- The values are those of the list. -/
  toList_eq : s.toList = vs
  /-- They lie within the capacity, and that within the limit. -/
  fits : s.Fits
  /-- The limit is this one. -/
  limit_eq : s.limit = limit

variable {limit : Nat} {vs : List Value}

theorem holds_empty (limit : Nat) : Holds limit (empty limit) [] :=
  ⟨rfl, fits_empty limit, rfl⟩

/-- An operation answers what it answers on the list, and leaves the stack holding the list that it
leaves. -/
theorem Holds.run (h : Holds limit s vs) (hlimit : limit < allocatable) (op : Operation) :
    (op.run s).1 = (op.runOnList limit vs).1 ∧
      Holds limit (op.run s).2 (op.runOnList limit vs).2 := by
  obtain ⟨rfl, hfits, rfl⟩ := h
  have hspec := ensures_act hfits hlimit op
  rw [Operation.run, Operation.runOnList]
  cases hact : op.act s with
  | ok a t =>
    obtain ⟨hlist, ht, hsame⟩ := hspec.of_ok hact
    simp only [hlist]
    exact ⟨trivial, rfl, ht, hsame⟩
  | error fault t =>
    obtain ⟨hlist, rfl⟩ := hspec.of_error hact
    simp only [hlist]
    exact ⟨trivial, rfl, hfits, rfl⟩

/-- So do all operations of a run. -/
theorem holds_afterAll (hlimit : limit < allocatable) (ops : List Operation) :
    Holds limit (afterAll limit ops) (listAfterAll limit ops) := by
  -- The first operation leaves another stack, so this is shown for all of them.
  have hrun : ∀ (s : Stack) (vs : List Value), Holds limit s vs →
      Holds limit (ops.foldl (fun s op => (op.run s).2) s)
        (ops.foldl (fun vs op => (op.runOnList limit vs).2) vs) := by
    induction ops with
    | nil => exact fun _ _ h => h
    | cons op ops ih => exact fun _ _ h => ih _ _ (h.run hlimit op).2
  exact hrun _ _ (holds_empty limit)

/-- What a run makes of a stack that was empty. -/
structure IsBoundedList (limit : Nat) (ops : List Operation) : Prop where
  /-- The values are those of the list. -/
  toList_eq : (afterAll limit ops).toList = listAfterAll limit ops
  /-- Whatever is done next is answered as it is on the list. -/
  answer_eq : ∀ op : Operation,
    (op.run (afterAll limit ops)).1 = (op.runOnList limit (listAfterAll limit ops)).1
  /-- The values lie within the capacity. -/
  size_le : (afterAll limit ops).size ≤ (afterAll limit ops).capacity
  /-- The capacity lies within the limit. -/
  capacity_le : (afterAll limit ops).capacity ≤ limit
  /-- A push is refused exactly if as many values are there as the limit allows. -/
  push_refused_iff : ∀ v fault, ((Operation.push v).run (afterAll limit ops)).1 = .error fault ↔
    (afterAll limit ops).size = limit ∧ fault = .stackOverflow limit
  /-- Room is refused exactly if there would be more values than the limit allows. -/
  reserve_refused_iff : ∀ more fault,
    ((Operation.reserve more).run (afterAll limit ops)).1 = .error fault ↔
      limit < (afterAll limit ops).size + more ∧ fault = .stackOverflow limit
  /-- What fails changes nothing. -/
  unchanged : ∀ (op : Operation) fault, (op.run (afterAll limit ops)).1 = .error fault →
    (op.run (afterAll limit ops)).2 = afterAll limit ops
  /-- A signed index is taken for the position that it stands for, or refused if there is none. -/
  slotOf_eq : ∀ index,
    (afterAll limit ops).slotOf index = position (afterAll limit ops).size index
  /-- Sixty-four bits suffice for the size and for what is computed from an index. -/
  toInt_eq : ∀ index : Int64,
    (Int64.ofNat (afterAll limit ops).size).toInt = (afterAll limit ops).size ∧
      (index.toInt < 0 → (Int64.ofNat (afterAll limit ops).size + index).toInt =
        (afterAll limit ops).size + index.toInt) ∧
      (0 ≤ index.toInt → (index - 1).toInt = index.toInt - 1)

/-- Whatever is done to a stack that may not become larger than the memory, it remains a list of
limited length. -/
theorem isBoundedList (hlimit : limit < allocatable) (ops : List Operation) :
    IsBoundedList limit ops := by
  have hholds := holds_afterAll hlimit ops
  have hlength : (listAfterAll limit ops).length = (afterAll limit ops).size := by
    rw [← hholds.toList_eq, length_toList]
  have hcapacity := hholds.fits.capacity_le
  rw [hholds.limit_eq] at hcapacity
  have hsize := hholds.fits.size_le
  refine
    { toList_eq := hholds.toList_eq
      answer_eq := fun op => (hholds.run hlimit op).1
      size_le := hsize
      capacity_le := hcapacity
      push_refused_iff := fun v fault => ?_
      reserve_refused_iff := fun more fault => ?_
      unchanged := fun op fault hrefused => ?_
      slotOf_eq := slotOf_eq_position _
      toInt_eq := toInt_offset hholds.fits }
  -- What is refused is read off the list, where the limit is looked at every time.
  · rw [(hholds.run hlimit (.push v)).1, Operation.runOnList, Operation.onList, hlength]
    by_cases hroom : (afterAll limit ops).size < limit
    · simp [hroom, Nat.ne_of_lt hroom]
    · have hfull : (afterAll limit ops).size = limit := by omega
      simp [hfull, eq_comm]
  · rw [(hholds.run hlimit (.reserve more)).1, Operation.runOnList, Operation.onList, hlength]
    by_cases hroom : (afterAll limit ops).size + more ≤ limit
    · simp [hroom, Nat.not_lt.2 hroom]
    · simp [hroom, Nat.not_le.1 hroom, eq_comm]
  · have hspec := ensures_act hholds.fits (hholds.limit_eq.symm ▸ hlimit) op
    rw [Operation.run] at hrefused ⊢
    cases hact : op.act (afterAll limit ops) with
    | ok a t =>
      rw [hact] at hrefused
      cases hrefused
    | error fault' t => exact (hspec.of_error hact).2

/-- The last of four pushes is refused by a limit of three. Then the lowest value is taken out, and
the top one is overwritten. -/
theorem isBoundedList_three :
    let ops : List Operation := [.push (.int 1), .push (.int 2), .push (.int 3), .push (.int 4),
      .removeSlot 0, .setAt (-1) (.int 9)]
    3 < allocatable ∧ (afterAll 3 ops).toList = [.int 2, .int 9] ∧ IsBoundedList 3 ops := by
  intro ops
  exact ⟨by decide, by decide +kernel, isBoundedList (by decide) ops⟩

/-- Where doubling would lead past the limit, the capacity becomes the limit. -/
example : (afterAll 20 (List.replicate 17 (.push .nil))).capacity = 20 := by
  decide +kernel

end ActorMachine.Stack
