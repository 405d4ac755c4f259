import ActorMachine.Proofs.Checked.Basic
import ActorMachine.Proofs.Stack

/-!
# Operations of the stack that can crash

What is popped or taken out of the middle is subtracted from the size of the stack and accessed by
position. Setting room aside asks for the slots that are missing, which is a difference as well.

* `Stack.Checked`: the operations with what they take for granted.
* `secure_reserve`, `secure_push`, `secure_pop`, `secure_setAt`, `secure_removeSlot`: none of them
  crashes on a stack whose values lie within its capacity.
-/

namespace ActorMachine.Stack

open Crashing

variable {s : Stack}

/-! ### What the operations take for granted -/

namespace Checked

/-- Makes room for `more` values above those present. -/
def reserve (more : Nat) : Crashing Stack Unit := do
  let s ← get
  let needed := Capacity.add s.size more
  if s.limit < needed then
    fail (.stackOverflow s.limit)
  if s.capacity < needed then
    let capacity := s.grownCapacity needed
    -- This many slots are asked for beyond the values present.
    let _ ← grant (minus capacity s.size)
    if allocatable ≤ capacity then
      fail (.outOfMemory (capacity * slotBytes) 0)
    modify fun s => { s with capacity }

/-- A stack with room for `capacity` values. -/
def withCapacity (capacity limit : Nat) : Except Failure Stack :=
  match reserve capacity (empty limit) with
  | .ok _ s => .ok s
  | .error failure _ => .error failure

/-- Puts a value on top. -/
def push (v : Value) : Crashing Stack Unit := do
  let s ← get
  if s.size = s.capacity then
    reserve 1
  modify fun s => { s with values := s.values.push v }

/-- Discards the top `n` values. -/
def pop (n : Nat) : Crashing Stack Unit := do
  let s ← get
  if s.size < n then
    fail (.stackUnderflow n s.size)
  let left ← grant (minus s.size n)
  modify fun s => s.truncate left

/-- Overwrites the value at a signed index. -/
def setAt (index : Int64) (v : Value) : Crashing Stack Unit := do
  let s ← get
  let n ← look (s.slotOf index)
  let _ ← grant (element s.values n)
  modify fun s => { s with values := s.values.setIfInBounds n v }

/-- Takes a value out of the middle. -/
def removeSlot (n : Nat) : Crashing Stack Value := do
  let s ← get
  if s.size ≤ n then
    fail (.badIndex (n + 1))
  let v ← grant (element s.values n)
  modify fun s => { s with values := s.values.eraseIdxIfInBounds n }
  return v

end Checked

/-! ### None of them crashes -/

/-- The slots asked for are there to be asked for: no more values are present than are needed. -/
theorem secure_reserve (more : Nat) :
    Secure Fits (Checked.reserve more) (reserve more) fun _ => True where
  runs s hs := by
    refine runs_get ?_
    dsimp only
    split
    next => rfl
    next hlimit =>
      split
      next hfull =>
        have hsize := hs.size_le
        -- The stack has grown to what is asked for at least, and that is more than there are
        -- values.
        have hgrown := le_grownCapacity (Nat.not_lt.1 hlimit) (Nat.min_le_right _ _)
        have hle : s.size ≤ s.grownCapacity (Capacity.add s.size more) := by omega
        refine runs_grant (minus_eq_ok hle) ?_
        split <;> rfl
      next => rfl
  upholds s hs := by
    refine (reserve_spec hs more).mono ?_ ?_
    · rintro _ _ ⟨capacity, rfl, -, hfits, -⟩
      exact ⟨hfits, trivial⟩
    · rintro _ _ ⟨rfl, -⟩
      exact hs

theorem withCapacity_eq (capacity limit : Nat) :
    Checked.withCapacity capacity limit = faulty (withCapacity capacity limit) := by
  have hruns := (secure_reserve capacity).runs _ (fits_empty limit)
  rw [Checked.withCapacity, hruns, withCapacity, sure]
  cases reserve capacity (empty limit) <;> rfl

theorem secure_push (v : Value) : Secure Fits (Checked.push v) (push v) fun _ => True where
  runs s hs := by
    refine runs_get ?_
    dsimp only
    split
    next =>
      exact (secure_reserve 1).runs_bind hs fun _ _ _ _ => rfl
    next => rfl
  upholds s hs := by
    refine (push_spec hs v).mono ?_ ?_
    · rintro _ _ ⟨capacity, rfl, -, hfits, -⟩
      exact ⟨hfits, trivial⟩
    · rintro _ _ ⟨rfl, -⟩
      exact hs

theorem secure_pop (n : Nat) : Secure Fits (Checked.pop n) (pop n) fun _ => True where
  runs s _ := by
    refine runs_get ?_
    dsimp only
    split
    next => rfl
    next hle => exact runs_grant (minus_eq_ok (Nat.not_lt.1 hle)) rfl
  upholds s hs := by
    rw [ensures_pop]
    exact ⟨fun _ => ⟨hs.truncate _, trivial⟩, fun _ => hs⟩

theorem secure_popValue : Secure Fits (sure popValue) popValue fun _ => True := by
  refine secure_sure fun s hs => ?_
  rw [ensures_popValue]
  exact ⟨fun v _ => ⟨hs.popped, trivial⟩, fun _ => hs⟩

theorem secure_setSlot (n : Nat) (v : Value) :
    Secure Fits (sure (setSlot n v)) (setSlot n v) fun _ => True := by
  refine secure_sure fun s hs => ?_
  rw [ensures_setSlot]
  exact ⟨fun _ => ⟨hs.set n v, trivial⟩, fun _ => hs⟩

theorem secure_setAt (index : Int64) (v : Value) :
    Secure Fits (Checked.setAt index v) (setAt index v) fun _ => True where
  runs s _ := by
    refine runs_get (runs_look fun n hslot => ?_)
    have hlt := lt_of_slotOf hslot
    refine runs_grant (element_eq_of_lt hlt) ?_
    rw [setSlot]
    refine runs_get_right ?_
    rw [if_pos hlt]
    rfl
  upholds s hs := by
    rw [ensures_setAt]
    refine ⟨fun n _ => ?_, fun _ _ => hs⟩
    exact (secure_setSlot n v).upholds s hs

theorem secure_removeSlot (n : Nat) :
    Secure Fits (Checked.removeSlot n) (removeSlot n) fun _ => True where
  runs s _ := by
    refine runs_get ?_
    dsimp only
    rw [slot]
    split
    next hle =>
      rw [Array.getElem?_eq_none hle]
      rfl
    next hlt =>
      obtain ⟨v, hv⟩ : ∃ v, s.values[n]? = some v :=
        ⟨_, Array.getElem?_eq_getElem (Nat.not_le.1 hlt)⟩
      rw [hv]
      exact runs_grant (element_eq_ok hv) rfl
  upholds := by
    refine upholds_get_bind fun s _ => upholds_look fun v _ => ?_
    exact (upholds_modify fun t ht => ht.erased n).bind fun _ _ => upholds_pure trivial

end ActorMachine.Stack
