/-!
# Capacities

Sizes and capacities are natural numbers that fit into 64 bits, and arithmetic on them sticks at the
largest such number instead of wrapping. Containers grow by doubling: `Capacity.grow` gives
the first number of the sequence `c, 2c, 4c, …` that reaches what is needed.
-/

namespace ActorMachine.Capacity

/-- The largest size a machine word can hold. -/
def maxWord : Nat :=
  0xffffffffffffffff

/-- Addition that sticks at `maxWord`. -/
def add (a b : Nat) : Nat :=
  min (a + b) maxWord

/-- Doubling that sticks at `maxWord`. -/
def double (a : Nat) : Nat :=
  min (2 * a) maxWord

/-- Doubles `capacity` at most `rounds` times, and only while it is below `needed`. -/
def growWithin (needed : Nat) : Nat → Nat → Nat
  | 0, capacity => capacity
  | rounds + 1, capacity =>
    if capacity < needed then growWithin needed rounds (double capacity) else capacity

/-- Doubles `capacity` until it reaches `needed`. Sixty-four rounds lead from any positive
capacity to `maxWord`, above which nothing can be needed. -/
def grow (capacity needed : Nat) : Nat :=
  growWithin needed 64 capacity

theorem growWithin_of_le {needed capacity : Nat} (h : needed ≤ capacity) (rounds : Nat) :
    growWithin needed rounds capacity = capacity := by
  cases rounds with
  | zero => rfl
  | succ rounds => simp [growWithin, Nat.not_lt.2 h]

/-- A number of rounds reaches what is needed, or else that many doublings. -/
theorem le_growWithin (needed : Nat) (rounds capacity : Nat) :
    min needed (min (capacity <<< rounds) maxWord) ≤ growWithin needed rounds capacity := by
  induction rounds generalizing capacity with
  | zero =>
    simp only [growWithin, Nat.shiftLeft_zero]
    omega
  | succ rounds ih =>
    simp only [growWithin]
    split
    · refine Nat.le_trans ?_ (ih (double capacity))
      rw [Nat.shiftLeft_succ_inside, double]
      rcases Nat.le_total (2 * capacity) maxWord with h | h
      · simp only [Nat.min_eq_left h, Nat.le_refl]
      · -- The doubling has stuck, and so has every later one.
        have hmax : maxWord ≤ maxWord <<< rounds := Nat.le_shiftLeft
        simp only [Nat.min_eq_right h]
        omega
    · omega

/-- Doubling from any positive capacity reaches whatever a word can ask for. -/
theorem le_grow {capacity needed : Nat} (hc : 0 < capacity) (hn : needed ≤ maxWord) :
    needed ≤ grow capacity needed := by
  have h := le_growWithin needed 64 capacity
  have hmax : maxWord ≤ capacity <<< 64 := by
    simp only [Nat.shiftLeft_eq, maxWord]
    omega
  rwa [Nat.min_eq_right hmax, Nat.min_eq_left hn] at h

/-- Rounds of doubling end below twice of what is needed, or change nothing. -/
theorem growWithin_lt (needed : Nat) (rounds capacity : Nat) :
    growWithin needed rounds capacity < max (capacity + 1) (2 * needed) := by
  induction rounds generalizing capacity with
  | zero =>
    rw [growWithin]
    omega
  | succ rounds ih =>
    rw [growWithin]
    split
    next hlt =>
      have hdouble : double capacity ≤ 2 * capacity := Nat.min_le_left _ _
      have hend := ih (double capacity)
      omega
    next => omega

/-- Doubling does not go on when what is needed is reached. -/
theorem grow_lt (capacity needed : Nat) :
    grow capacity needed < max (capacity + 1) (2 * needed) :=
  growWithin_lt needed 64 capacity

theorem grow_of_le {capacity needed : Nat} (h : needed ≤ capacity) :
    grow capacity needed = capacity :=
  growWithin_of_le h 64

end ActorMachine.Capacity
