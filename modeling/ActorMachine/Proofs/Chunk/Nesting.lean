import ActorMachine.Chunk.Nesting
import Mathlib.Order.Bounds.Basic

/-!
# How deep drafts are nested

The search for the deepest draft of a tree works off a stack, and every draft that it looks at may
put any number of others there. It ends because each round leaves one draft less to be looked at, in
the whole trees that are pending. It finds the length of the longest path, because no round changes
what bounds the depths that were found and those that are to come.

* `Draft.isGreatest_height`: the height of a draft is the length of the longest path.
* `Descent.Leads`: what a search comes to when each round takes any of the pending drafts.
* `Leads.size_eq`, `Leads.within_iff`: what holds after any number of rounds.
* `nestingDepth_eq_height`: the search finds the height.
-/

namespace ActorMachine

namespace Draft

variable {d child : Draft} {path : List Nat}

theorem at?_cons (d : Draft) (index : Nat) (path : List Nat) :
    d.at? (index :: path) = d.nested[index]?.bind (·.at? path) := by
  rw [at?]
  cases d.nested[index]? <;> rfl

/-- Drafts make up as many levels as the highest of them and one. -/
theorem heightAll_le_iff {ds : List Draft} {levels : Nat} :
    heightAll ds ≤ levels ↔ ∀ d ∈ ds, d.height < levels := by
  induction ds with
  | nil => simp [heightAll]
  | cons d ds ih => rw [heightAll, Nat.max_le, ih, List.forall_mem_cons, Nat.succ_le_iff]

theorem height_eq (d : Draft) : d.height = heightAll d.nested := by
  cases d
  rw [height]

/-- A draft is higher than what is nested in it. -/
theorem height_lt_of_mem (hmem : child ∈ d.nested) : child.height < d.height := by
  rw [d.height_eq]
  exact heightAll_le_iff.1 (Nat.le_refl _) child hmem

/-- A draft of some height has a draft nested in it that is one lower. -/
theorem exists_mem_of_height_eq_succ {levels : Nat} (hheight : d.height = levels + 1) :
    ∃ child ∈ d.nested, child.height = levels := by
  by_contra! hne
  have hle : heightAll d.nested ≤ levels := heightAll_le_iff.2 fun child hmem => by
    have hlt := height_lt_of_mem hmem
    have := hne child hmem
    omega
  rw [height_eq] at hheight
  omega

theorem length_le_height (hat : (d.at? path).isSome) : path.length ≤ d.height := by
  induction path generalizing d with
  | nil => exact Nat.zero_le _
  | cons index path ih =>
    rw [at?_cons, Option.isSome_bind, Option.any_eq_true] at hat
    obtain ⟨child, hchild, hat⟩ := hat
    exact Nat.lt_of_le_of_lt (ih hat) (height_lt_of_mem (List.mem_of_getElem? hchild))

theorem exists_path_of_height (d : Draft) :
    ∃ path : List Nat, (d.at? path).isSome ∧ path.length = d.height := by
  induction hheight : d.height generalizing d with
  | zero => exact ⟨[], rfl, rfl⟩
  | succ levels ih =>
    obtain ⟨child, hmem, hchild⟩ := exists_mem_of_height_eq_succ hheight
    obtain ⟨index, hindex⟩ := List.mem_iff_getElem?.1 hmem
    obtain ⟨path, hpath, hlength⟩ := ih child hchild
    refine ⟨index :: path, ?_, congrArg (· + 1) hlength⟩
    rwa [at?_cons, hindex, Option.bind_some]

/-- The height of a draft is the length of the longest path that leads to one below it. -/
theorem isGreatest_height (d : Draft) :
    IsGreatest {n | ∃ path : List Nat, (d.at? path).isSome ∧ path.length = n} d.height := by
  refine ⟨d.exists_path_of_height, ?_⟩
  rintro _ ⟨path, hat, rfl⟩
  exact length_le_height hat

/-- A draft is higher than some levels if a path leads further down than these. -/
theorem lt_height_iff {levels : Nat} :
    levels < d.height ↔ ∃ path : List Nat, levels < path.length ∧ (d.at? path).isSome := by
  constructor
  · intro hlt
    obtain ⟨path, hat, hlength⟩ := d.exists_path_of_height
    exact ⟨path, hlt.trans_eq hlength.symm, hat⟩
  · rintro ⟨path, hlt, hat⟩
    exact hlt.trans_le (length_le_height hat)

/-- From a depth on, a draft stays within as many levels as itself and what is nested in it do. -/
theorem add_height_le_iff {depth levels : Nat} : depth + d.height ≤ levels ↔
    depth ≤ levels ∧ ∀ child ∈ d.nested, depth + 1 + child.height ≤ levels := by
  have hlevels := @heightAll_le_iff d.nested (levels - depth)
  rw [← height_eq] at hlevels
  constructor
  · intro hle
    refine ⟨by omega, fun child hmem => ?_⟩
    have hlt := height_lt_of_mem hmem
    omega
  · rintro ⟨hdepth, hchildren⟩
    have hle := hlevels.2 fun child hmem => by
      have := hchildren child hmem
      omega
    omega

end Draft

namespace Descent

variable {s t u : Descent} {rounds levels : Nat}

theorem size_eq_zero_iff : s.size = 0 ↔ s.pending = [] := by
  obtain ⟨deepest, pending⟩ := s
  cases pending with
  | nil => simp [size, Draft.countAll]
  | cons entry pending => simp [size, Draft.countAll, Draft.count_eq]

/-- Nothing that was found is deeper, and nothing that is pending or below it. -/
def Within (s : Descent) (levels : Nat) : Prop :=
  s.deepest ≤ levels ∧ ∀ entry ∈ s.pending, entry.2 + entry.1.height ≤ levels

/-- A round does not change what a search stays within. -/
theorem within_round_iff : s.round.Within levels ↔ s.Within levels := by
  obtain ⟨deepest, pending⟩ := s
  cases pending with
  | nil => rfl
  | cons entry pending =>
    obtain ⟨d, depth⟩ := entry
    have hchildren : (∀ entry ∈ d.nested.map fun child => (child, depth + 1),
        entry.2 + entry.1.height ≤ levels) ↔
        ∀ child ∈ d.nested, depth + 1 + child.height ≤ levels := List.forall_mem_map
    have hentry := @Draft.add_height_le_iff d depth levels
    simp only [Within, round, List.forall_mem_append, List.mem_reverse, List.forall_mem_cons,
      hchildren, hentry, Nat.max_le, and_assoc]

/-- What a search comes to in a number of rounds, if each of them may take any draft of those that
are pending. -/
inductive Leads (s : Descent) : Nat → Descent → Prop
  /-- No round. -/
  | refl : Leads s 0 s
  /-- The next draft is taken. -/
  | round {rounds : Nat} {t : Descent} (hleads : Leads s rounds t) (hpending : t.pending ≠ []) :
    Leads s (rounds + 1) t.round
  /-- Another draft is made the next one. -/
  | reorder {rounds : Nat} {t : Descent} {pending : List (Draft × Nat)}
    (hleads : Leads s rounds t) (hperm : pending.Perm t.pending) :
    Leads s rounds { t with pending }

/-- There have been as many rounds as there are fewer drafts to be looked at. -/
theorem Leads.size_eq (h : s.Leads rounds t) : s.size = t.size + rounds := by
  induction h with
  | refl => rfl
  | round _ hpending ih =>
    rw [ih, size_round hpending]
    omega
  | reorder _ hperm ih => rw [ih, size, size, Draft.countAll_eq_of_perm (hperm.map _)]

/-- What the search stays within is what it stayed within at first. -/
theorem Leads.within_iff (h : s.Leads rounds t) : t.Within levels ↔ s.Within levels := by
  induction h with
  | refl => rfl
  | round _ _ ih => rw [within_round_iff, ih]
  | reorder _ hperm ih =>
    rw [← ih, Within, Within]
    exact and_congr_right fun _ => forall_congr' fun entry => by rw [hperm.mem_iff]

/-- In whichever order the drafts were looked at, the greatest depth is the height. -/
theorem Leads.deepest_eq {d : Draft} (h : (start d).Leads rounds t) (hpending : t.pending = []) :
    t.deepest = d.height := by
  refine eq_of_forall_ge_iff fun levels => ?_
  have hwithin : t.Within levels ↔ (start d).Within levels := h.within_iff
  simpa [Within, start, hpending] using hwithin

/-- The rounds of the search are taken as long as there is a draft to be looked at. -/
theorem leads_iterate (hrounds : rounds ≤ s.size) : s.Leads rounds (round^[rounds] s) := by
  induction rounds with
  | zero => exact .refl
  | succ rounds ih =>
    have hleads := ih (Nat.le_of_succ_le hrounds)
    rw [Function.iterate_succ_apply']
    refine hleads.round fun hpending => ?_
    have hsize := hleads.size_eq
    rw [size_eq_zero_iff.2 hpending] at hsize
    omega

/-- The search ends after exactly that many rounds. -/
theorem pending_iterate_eq_nil_iff : (round^[rounds] s).pending = [] ↔ s.size ≤ rounds := by
  rcases Nat.le_total rounds s.size with hle | hle
  · have hsize := (leads_iterate hle).size_eq
    rw [← size_eq_zero_iff]
    omega
  · refine iff_of_true ?_ hle
    -- From there on, nothing changes.
    obtain ⟨more, rfl⟩ := Nat.exists_eq_add_of_le hle
    have hsize := (leads_iterate (Nat.le_refl s.size)).size_eq
    have hended : (round^[s.size] s).pending = [] := size_eq_zero_iff.1 (by omega)
    have hround : (round^[s.size] s).round = round^[s.size] s := by rw [round, hended]
    rwa [Nat.add_comm, Function.iterate_add_apply, Function.iterate_fixed hround]

/-- The loop stops there, with what was found. -/
theorem finish_eq (s : Descent) : s.finish = (round^[s.size] s).deepest := by
  induction s using finish.induct with
  | case1 s hpending =>
    rw [finish, if_pos hpending, size_eq_zero_iff.2 hpending]
    rfl
  | case2 s hpending ih => rw [finish, if_neg hpending, ih, size_round hpending]; rfl

theorem size_start (d : Draft) : (start d).size = d.count := by
  simp [size, start, Draft.countAll]

end Descent

/-- The search finds the height. -/
theorem Draft.nestingDepth_eq_height (d : Draft) : d.nestingDepth = d.height := by
  rw [nestingDepth, Descent.finish_eq]
  exact (Descent.leads_iterate (Nat.le_refl _)).deepest_eq
    (Descent.pending_iterate_eq_nil_iff.2 (Nat.le_refl _))

end ActorMachine
