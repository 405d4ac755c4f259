import ActorMachine.Assembly.Draft

/-!
# Depth of nesting

How deep a draft is nested is found by looking at all drafts of its tree in turn, each with its
depth below the root. What is nested in the draft at hand is put on the stack of those still to
come.
-/

namespace ActorMachine

namespace Draft

mutual

/-- Number of drafts in a tree. -/
def count : Draft → Nat
  | { nested, .. } => countAll nested + 1

/-- Number of drafts in several trees. -/
def countAll : List Draft → Nat
  | [] => 0
  | d :: ds => d.count + countAll ds

end

theorem count_eq (d : Draft) : d.count = countAll d.nested + 1 := by
  cases d
  rw [count]

theorem countAll_append (ds ds' : List Draft) :
    countAll (ds ++ ds') = countAll ds + countAll ds' := by
  induction ds with
  | nil => simp [countAll]
  | cons d ds ih => rw [List.cons_append, countAll, countAll, ih, Nat.add_assoc]

/-- Their number does not depend on their order. -/
theorem countAll_eq_of_perm {ds ds' : List Draft} (hperm : ds.Perm ds') :
    countAll ds = countAll ds' := by
  induction hperm with
  | nil => rfl
  | cons d _ ih => rw [countAll, countAll, ih]
  | swap d d' ds =>
    simp only [countAll]
    omega
  | trans _ _ ih ih' => rw [ih, ih']

end Draft

/-- How far a search for the deepest draft has come. -/
structure Descent where
  /-- The greatest depth that a draft was found at. -/
  deepest : Nat
  /-- The drafts to be looked at, each with its depth, the next one first. -/
  pending : List (Draft × Nat)

namespace Descent

/-- Only the draft itself is to be looked at. -/
def start (d : Draft) : Descent :=
  ⟨0, [(d, 0)]⟩

/-- Looks at the next draft. Of those nested in it, the last one will come first. -/
def round (s : Descent) : Descent :=
  match s.pending with
  | [] => s
  | (d, depth) :: pending =>
    { deepest := max s.deepest depth
      pending := (d.nested.map fun child => (child, depth + 1)).reverse ++ pending }

/-- Number of drafts that will be looked at. -/
def size (s : Descent) : Nat :=
  Draft.countAll (s.pending.map Prod.fst)

/-- In every round there is one less of them. -/
theorem size_round {s : Descent} (hpending : s.pending ≠ []) : s.size = s.round.size + 1 := by
  obtain ⟨deepest, pending⟩ := s
  cases pending with
  | nil => exact absurd rfl hpending
  | cons entry pending =>
    obtain ⟨d, depth⟩ := entry
    have hnested : Draft.countAll d.nested.reverse = Draft.countAll d.nested :=
      Draft.countAll_eq_of_perm (List.reverse_perm d.nested)
    simp only [size, round, List.map_cons, List.map_append, List.map_reverse, List.map_map,
      Function.comp_def, List.map_id', Draft.countAll, Draft.count_eq, Draft.countAll_append,
      hnested]
    omega

/-- Looks at all drafts that are pending, and answers the greatest depth. -/
def finish (s : Descent) : Nat :=
  if s.pending = [] then s.deepest else s.round.finish
termination_by s.size
decreasing_by
  have hsize := size_round ‹s.pending ≠ []›
  omega

end Descent

/-- Depth of the deepest draft below a draft, which itself is at depth zero. -/
def Draft.nestingDepth (d : Draft) : Nat :=
  (Descent.start d).finish

end ActorMachine
