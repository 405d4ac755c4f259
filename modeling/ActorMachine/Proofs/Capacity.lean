import ActorMachine.Heap.Buffer
import ActorMachine.Proofs.Stack
import Mathlib.Algebra.Group.Nat.Even
import Mathlib.Order.Bounds.Basic

/-!
# Where doubling ends

Buffers and stacks grow by doubling a capacity as long as it is below what is needed, in words whose
doubling sticks at the largest of them. The capacity that they start from need not be a power of
two: it may have been asked for exactly, or cut to a limit.

* `iterate_double`: what several doublings lead to.
* `Doubles`, `doubles_grow`: doubling ends, from any positive word and whatever word is needed, at
  the least product with a power of two that will do. It ends at the largest word where that product
  is none.
* `growth_ends`: so it is for buffers and for stacks, and a stack that is cut to its limit has room
  for what stays within it and never less than before.
-/

namespace ActorMachine

namespace Capacity

variable {start needed final : Nat}

/-- Doublings multiply by a power of two, up to the largest word. -/
theorem iterate_double (hstart : start ≤ maxWord) (k : Nat) :
    double^[k] start = min (start * 2 ^ k) maxWord := by
  induction k with
  | zero => simp [hstart]
  | succ k ih =>
    rw [Function.iterate_succ_apply', ih, double, Nat.pow_succ, ← Nat.mul_assoc]
    omega

/-- Rounds of doubling are doublings, each of a number that was too small. -/
theorem exists_growWithin_eq (needed rounds start : Nat) :
    ∃ k, growWithin needed rounds start = double^[k] start ∧
      ∀ j < k, double^[j] start < needed := by
  induction rounds generalizing start with
  | zero => exact ⟨0, rfl, nofun⟩
  | succ rounds ih =>
    rw [growWithin]
    split
    next hlt =>
      obtain ⟨k, hgrown, hbelow⟩ := ih (double start)
      refine ⟨k + 1, hgrown, fun j hj => ?_⟩
      cases j with
      | zero => exact hlt
      | succ j => exact hbelow j (Nat.lt_of_succ_lt_succ hj)
    next => exact ⟨0, rfl, nofun⟩

/-- Doubling a number as long as it is below what is needed ends, and it ends with this one. -/
structure Doubles (start needed final : Nat) : Prop where
  /-- After some rounds the number is large enough, and it was too small before each of them. -/
  ends : ∃ rounds, double^[rounds] start = final ∧ needed ≤ final ∧
    ∀ earlier < rounds, double^[earlier] start < needed
  /-- It is the least product with a power of two that is large enough, or else the largest word. -/
  least : ∃ product, IsLeast {n | needed ≤ n ∧ ∃ k, n = start * 2 ^ k} product ∧
    final = if product ≤ maxWord then product else maxWord

theorem doubles_grow (hpos : 0 < start) (hstart : start ≤ maxWord) (hneeded : needed ≤ maxWord) :
    Doubles start needed (grow start needed) := by
  obtain ⟨k, hgrown, hbelow⟩ := exists_growWithin_eq needed 64 start
  have hreaches : needed ≤ grow start needed := le_grow hpos hneeded
  have hproduct : grow start needed = min (start * 2 ^ k) maxWord :=
    hgrown.trans (iterate_double hstart k)
  refine ⟨⟨k, hgrown.symm, hreaches, hbelow⟩, start * 2 ^ k, ⟨⟨by omega, k, rfl⟩, ?_⟩, ?_⟩
  · rintro _ ⟨henough, j, rfl⟩
    -- Fewer doublings lead to a number that was found too small, stuck or not.
    have hle : k ≤ j := by
      by_contra hlt
      have hshort := hbelow j (Nat.not_le.1 hlt)
      rw [iterate_double hstart] at hshort
      omega
    exact Nat.mul_le_mul_left start (Nat.pow_le_pow_right (by decide) hle)
  · rw [hproduct]
    split <;> omega

end Capacity

open Capacity (Doubles maxWord)

/-- The capacity of a buffer grows by doubling, from 64 at least. -/
theorem Heap.doubles_grownBufferCapacity {capacity size : Nat} (hcapacity : capacity ≤ maxWord)
    (hsize : size ≤ maxWord) :
    Doubles (max capacity 64) size (grownBufferCapacity capacity size) := by
  have hstart : max capacity 64 ≤ maxWord := Nat.max_le.2 ⟨hcapacity, by decide⟩
  exact Capacity.doubles_grow (by omega) hstart hsize

namespace Stack

variable {s t : Stack} {more : Nat}

/-- The capacity of a stack grows by doubling, from 16 at least, and is cut to the limit. -/
theorem exists_doubles_grownCapacity {needed : Nat} (hcapacity : s.capacity ≤ maxWord)
    (hneeded : needed ≤ maxWord) :
    ∃ final, Doubles (max s.capacity 16) needed final ∧
      s.grownCapacity needed = min final s.limit := by
  have hstart : max s.capacity 16 ≤ maxWord := Nat.max_le.2 ⟨hcapacity, by decide⟩
  exact ⟨_, Capacity.doubles_grow (by omega) hstart hneeded, rfl⟩

/-- Growing does not make a capacity smaller that is within the limit. -/
theorem capacity_le_grownCapacity {needed : Nat} (hlimit : s.capacity ≤ s.limit)
    (hcapacity : s.capacity ≤ maxWord) (hneeded : needed ≤ maxWord) :
    s.capacity ≤ s.grownCapacity needed := by
  obtain ⟨final, hdoubles, hgrown⟩ := exists_doubles_grownCapacity hcapacity hneeded
  obtain ⟨⟨k, rfl, -⟩, -⟩ := hdoubles
  have hle : max s.capacity 16 ≤ max s.capacity 16 * 2 ^ k :=
    Nat.le_mul_of_pos_right _ (Nat.two_pow_pos k)
  rw [hgrown, Capacity.iterate_double (Nat.max_le.2 ⟨hcapacity, by decide⟩)]
  omega

/-- A reservation that succeeds makes no capacity smaller, and leaves room for what was asked for.
It does not matter how the capacity and the limit are related before. -/
theorem ensures_reserve_raises (s : Stack) (more : Nat) :
    Ensures (reserve more) s
      (fun _ t => s.capacity ≤ t.capacity ∧ Capacity.add s.size more ≤ t.capacity ∧
        t.values = s.values)
      fun _ t => t = s := by
  rw [reserve, ensures_bind, ensures_get]
  dsimp only
  split
  next => exact rfl
  next hlimit =>
    have hgrown := le_grownCapacity (Nat.not_lt.1 hlimit) (Nat.min_le_right _ _)
    by_cases hfull : s.capacity < Capacity.add s.size more
    · rw [if_pos hfull]
      split
      next => exact rfl
      next => exact ⟨hfull.le.trans hgrown, hgrown, rfl⟩
    · rw [if_neg hfull]
      exact ⟨le_rfl, Nat.not_lt.1 hfull, rfl⟩

end Stack

/-- The growth of buffers and stacks ends at the right capacity, in words of 64 bits. The doubling of
a buffer ends at the least `max capacity 64 * 2 ^ k` that is at least the size, or at the largest
word if that is none, and so does that of a stack from `max capacity 16`. Cut to the limit, the
latter is at least what is needed whenever that is within the limit, and never below the capacity
before, whatever a reservation meets. -/
theorem Capacity.growth_ends {capacity size more : Nat} {s : Stack}
    (hcapacity : capacity ≤ maxWord) (hsize : size ≤ maxWord) (hroom : s.capacity ≤ maxWord)
    (hlimit : s.limit ≤ maxWord) :
    Doubles (max capacity 64) size (Heap.grownBufferCapacity capacity size) ∧
    (∃ final, Doubles (max s.capacity 16) (Capacity.add s.size more) final ∧
      s.grownCapacity (Capacity.add s.size more) = min final s.limit) ∧
    (s.size + more ≤ s.limit → s.size + more ≤ s.grownCapacity (Capacity.add s.size more)) ∧
    (s.capacity ≤ s.limit → s.capacity ≤ s.grownCapacity (Capacity.add s.size more)) ∧
    ∀ t, Stack.reserve more s = .ok () t →
      s.capacity ≤ t.capacity ∧ Capacity.add s.size more ≤ t.capacity := by
  have hword : Capacity.add s.size more ≤ maxWord := Nat.min_le_right _ _
  refine ⟨Heap.doubles_grownBufferCapacity hcapacity hsize,
    Stack.exists_doubles_grownCapacity hroom hword, fun hle => ?_,
    fun hle => Stack.capacity_le_grownCapacity hle hroom hword, fun t hreserve => ?_⟩
  · -- What is within the limit is a word, so the sum does not stick.
    have hexact : Capacity.add s.size more = s.size + more := Nat.min_eq_left (hle.trans hlimit)
    rw [hexact]
    exact Stack.le_grownCapacity hle (hle.trans hlimit)
  · obtain ⟨hraised, henough, -⟩ := (s.ensures_reserve_raises more).of_ok hreserve
    exact ⟨hraised, henough⟩

/-- A stack of 20 values and a capacity of 20, which may have up to 50. -/
def Stack.cramped : Stack where
  values := Array.replicate 20 .nil
  capacity := 20
  limit := 50

/-- From 100, which is no power of two, doubling sticks before it reaches the largest word. From 20
it leads beyond the limit, and a reservation gets no more than the limit allows. -/
theorem Capacity.growth_ends_cramped :
    Heap.grownBufferCapacity 100 maxWord = maxWord ∧
    (∃ product, IsLeast {n | maxWord ≤ n ∧ ∃ k, n = 100 * 2 ^ k} product ∧
      maxWord = if product ≤ maxWord then product else maxWord) ∧
    Stack.cramped.grownCapacity 45 = 50 ∧ 20 + 25 ≤ Stack.cramped.grownCapacity 45 ∧
    ∃ t, Stack.reserve 25 Stack.cramped = .ok () t ∧ Stack.cramped.capacity ≤ t.capacity := by
  obtain ⟨hbuffer, -, hneeded, -, hreserve⟩ :=
    @Capacity.growth_ends 100 maxWord 25 Stack.cramped (by decide) le_rfl (by decide) (by decide)
  have hgrown : Heap.grownBufferCapacity 100 maxWord = maxWord := by decide +kernel
  refine ⟨hgrown, ?_, by decide +kernel, hneeded (by decide), _, rfl, (hreserve _ rfl).1⟩
  have hleast := hbuffer.least
  rwa [hgrown] at hleast

end ActorMachine
