import ActorMachine.Prototype
import Mathlib.Data.List.Lex
import Mathlib.Data.List.Perm.Subperm
import Mathlib.Data.List.Sort

/-!
# Going through a tree of code

Three functions go through the prototypes nested in a routine, each written as a recursion of its
own: the walk, the search for what is exported under a name, and the question whether a routine is
part of the tree. A link checks imports by the first two and resolves them by the second.

* `descend?`: the routine that nested indices lead to. The places of a tree are the indices that
  lead somewhere.
* `mem_walk_iff`, `pairwise_walk`: a walk comes past the routine at each place and past nothing
  else, in the lexicographic order of the places.
* `findFrom_eq`, `containsFrom_eq`: the other two recursions look through the list of the walk.
* `traversals_agree`: so what is found is the first that a walk comes past, and what is contained is
  what a walk comes past.
-/

namespace ActorMachine.Routine

variable {r s t : Routine} {name : String} {origin : Option ChunkId} {path : List Nat}
  {index : Nat} {p : Prototype} {ps : List Prototype}

/-! ### Going down -/

/-- The routine that nested indices lead to. -/
def descend? (r : Routine) : List Nat → Option Routine
  | [] => some r
  | index :: indices => (r.nested? index).bind (descend? · indices)

theorem origin_nested? (h : r.nested? index = some s) : s.origin = r.origin := by
  obtain ⟨p, -, rfl⟩ := Option.map_eq_some_iff.1 h
  rfl

theorem path_nested? (h : r.nested? index = some s) : s.path = r.path ++ [index] := by
  obtain ⟨p, -, rfl⟩ := Option.map_eq_some_iff.1 h
  rfl

theorem descend?_append (r : Routine) (indices indices' : List Nat) :
    r.descend? (indices ++ indices') = (r.descend? indices).bind (descend? · indices') := by
  induction indices generalizing r with
  | nil => rfl
  | cons index indices ih =>
    rw [List.cons_append, descend?, descend?, Option.bind_assoc]
    exact congrArg _ (funext fun s => ih s)

/-- The place of a routine says how one gets there. -/
theorem place_of_descend? {indices : List Nat} (h : r.descend? indices = some s) :
    s.origin = r.origin ∧ s.path = r.path ++ indices := by
  induction indices generalizing r with
  | nil =>
    obtain rfl := Option.some.inj h
    exact ⟨rfl, (List.append_nil _).symm⟩
  | cons index indices ih =>
    obtain ⟨t, hnested, hrest⟩ := Option.bind_eq_some_iff.1 h
    obtain ⟨horigin, hpath⟩ := ih hrest
    obtain ⟨p, -, rfl⟩ := Option.map_eq_some_iff.1 hnested
    exact ⟨horigin, hpath.trans (List.append_assoc _ _ _)⟩

/-! ### What a walk comes past -/

/-- A walk begins with its start. -/
theorem walkFrom_eq (origin : Option ChunkId) (path : List Nat) (p : Prototype) :
    walkFrom origin path p = ⟨origin, path, p⟩ :: walkNested origin path 0 p.nested := by
  cases p
  rfl

mutual

/-- A walk comes past what one gets to. -/
theorem mem_walkFrom_iff {origin : Option ChunkId} {path : List Nat} {p : Prototype} :
    s ∈ walkFrom origin path p ↔ ∃ indices, descend? ⟨origin, path, p⟩ indices = some s := by
  cases p with
  | mk symbol source upvalues arguments locals code constants imports nested =>
  rw [walkFrom_eq, List.mem_cons, mem_walkNested_iff]
  constructor
  · rintro (rfl | ⟨i, q, hq, indices, h⟩)
    · exact ⟨[], rfl⟩
    · refine ⟨i :: indices, ?_⟩
      rw [descend?, nested?, hq]
      rwa [Nat.zero_add] at h
  · rintro ⟨_ | ⟨i, indices⟩, h⟩
    · exact .inl (Option.some.inj h).symm
    · obtain ⟨_, hnested, hrest⟩ := Option.bind_eq_some_iff.1 h
      obtain ⟨q, hq, rfl⟩ := Option.map_eq_some_iff.1 hnested
      refine .inr ⟨i, q, hq, indices, ?_⟩
      rwa [Nat.zero_add]

/-- The walks of several prototypes come past what one gets to from one of them. -/
theorem mem_walkNested_iff {origin : Option ChunkId} {path : List Nat} {index : Nat}
    {ps : List Prototype} : s ∈ walkNested origin path index ps ↔
      ∃ i p, ps[i]? = some p ∧
        ∃ indices, descend? ⟨origin, path ++ [index + i], p⟩ indices = some s := by
  cases ps with
  | nil => simp [walkNested]
  | cons p ps =>
    rw [walkNested, List.mem_append, mem_walkFrom_iff, mem_walkNested_iff]
    constructor
    · rintro (h | ⟨i, q, hq, h⟩)
      · exact ⟨0, p, rfl, h⟩
      · refine ⟨i + 1, q, hq, ?_⟩
        rwa [Nat.add_assoc, Nat.add_comm 1] at h
    · rintro ⟨_ | i, q, hq, h⟩
      · obtain rfl := Option.some.inj hq
        exact .inl h
      · refine .inr ⟨i, q, hq, ?_⟩
        rwa [Nat.add_assoc, Nat.add_comm 1]

end

theorem mem_walk_iff : s ∈ r.walk ↔ ∃ indices, r.descend? indices = some s :=
  mem_walkFrom_iff

theorem origin_of_mem_walk (h : s ∈ r.walk) : s.origin = r.origin := by
  obtain ⟨indices, hindices⟩ := mem_walk_iff.1 h
  exact (place_of_descend? hindices).1

/-- From a routine of a tree one gets to nothing outside of it. -/
theorem walk_subset (h : s ∈ r.walk) : s.walk ⊆ r.walk := by
  intro t ht
  obtain ⟨indices, hindices⟩ := mem_walk_iff.1 h
  obtain ⟨indices', hindices'⟩ := mem_walk_iff.1 ht
  refine mem_walk_iff.2 ⟨indices ++ indices', ?_⟩
  rw [descend?_append, hindices, Option.bind_some, hindices']

theorem mem_walk_of_nested? (h : s ∈ r.walk) (hnested : s.nested? index = some t) :
    t ∈ r.walk :=
  walk_subset h (mem_walk_iff.2 ⟨[index], by rw [descend?, hnested]; rfl⟩)

/-- The place of a routine comes before that of another one in lexicographic order: it lies on the
way there, or where the two ways part it goes on to an earlier one of the nested prototypes. -/
def Precedes (s t : Routine) : Prop :=
  List.Lex (· < ·) s.path t.path

/-- Lexicographic order has no two elements that precede each other. -/
theorem Precedes.asymm (h : s.Precedes t) : ¬ t.Precedes s :=
  asymm_of (List.Lex (· < ·)) h

/-- What precedes a routine is at another place. -/
theorem Precedes.isSame_eq_false (h : s.Precedes t) : s.isSame t = false := by
  rw [isSame, Bool.and_eq_false_iff]
  right
  rw [beq_eq_false_iff_ne]
  intro hpath
  rw [Precedes, hpath] at h
  exact irrefl_of (List.Lex (· < ·)) _ h

/-- The way to what is nested goes on from the place that it is nested in. -/
theorem path_of_mem_walkNested (h : s ∈ walkNested origin path index ps) :
    ∃ i indices, index ≤ i ∧ s.path = path ++ i :: indices := by
  obtain ⟨i, p, -, indices, hindices⟩ := mem_walkNested_iff.1 h
  refine ⟨index + i, indices, Nat.le_add_right _ _, (place_of_descend? hindices).2.trans ?_⟩
  simp

theorem path_of_mem_walkFrom (h : s ∈ walkFrom origin path p) :
    ∃ indices, s.path = path ++ indices := by
  obtain ⟨indices, hindices⟩ := mem_walkFrom_iff.1 h
  exact ⟨indices, (place_of_descend? hindices).2⟩

/-- A routine precedes what is nested in it. -/
theorem precedes_of_mem_walkNested (h : s ∈ walkNested origin path index ps) :
    Precedes ⟨origin, path, p⟩ s := by
  obtain ⟨i, indices, -, hpath⟩ := path_of_mem_walkNested h
  have hlex : List.Lex (· < ·) (path ++ []) (path ++ i :: indices) := .append_left _ .nil path
  rw [Precedes, hpath]
  rwa [List.append_nil] at hlex

/-- Of what is nested side by side, all that belongs to one comes before all that belongs to a
later one. -/
theorem precedes_of_lt {indices indices' : List Nat} {i : Nat} (hlt : index < i)
    (hs : s.path = path ++ index :: indices) (ht : t.path = path ++ i :: indices') :
    s.Precedes t := by
  rw [Precedes, hs, ht]
  exact .append_left _ (.rel hlt) path

mutual

theorem pairwise_walkFrom (origin : Option ChunkId) (path : List Nat) (p : Prototype) :
    (walkFrom origin path p).Pairwise Precedes := by
  cases p with
  | mk symbol source upvalues arguments locals code constants imports nested =>
  rw [walkFrom_eq, List.pairwise_cons]
  exact ⟨fun s hs => precedes_of_mem_walkNested hs, pairwise_walkNested origin path 0 nested⟩

theorem pairwise_walkNested (origin : Option ChunkId) (path : List Nat) (index : Nat)
    (ps : List Prototype) : (walkNested origin path index ps).Pairwise Precedes := by
  cases ps with
  | nil => exact .nil
  | cons p ps =>
    rw [walkNested, List.pairwise_append]
    refine ⟨pairwise_walkFrom origin (path ++ [index]) p,
      pairwise_walkNested origin path (index + 1) ps, fun s hs t ht => ?_⟩
    obtain ⟨indices, hpath⟩ := path_of_mem_walkFrom hs
    obtain ⟨i, indices', hle, hpath'⟩ := path_of_mem_walkNested ht
    exact precedes_of_lt hle (by simpa using hpath) hpath'

end

/-- A walk is in the order of the places. -/
theorem pairwise_walk (r : Routine) : r.walk.Pairwise Precedes :=
  pairwise_walkFrom r.origin r.path r.prototype

/-- What precedes another routine of the tree comes earlier in a walk. -/
theorem Precedes.sublist (h : s.Precedes t) (hs : s ∈ r.walk) (ht : t ∈ r.walk) :
    List.Sublist [s, t] r.walk := by
  have : Std.Antisymm Precedes := ⟨fun _ _ hst hts => absurd hts hst.asymm⟩
  have hne : s ≠ t := by
    rintro rfl
    exact h.asymm h
  have hsub : [s, t].Subperm r.walk := by
    apply List.Nodup.subperm
    · simp [hne]
    · simp [hs, ht]
  exact List.sublist_of_subperm_of_pairwise hsub (by simpa using h) (pairwise_walk r)

/-- A list is a walk through the tree below a routine: it has an entry for every occurrence of a
prototype in the tree, parents stand before children, and siblings with all that is nested in them
stand in order. -/
structure Tours (r : Routine) (visited : List Routine) : Prop where
  /-- It begins with the root. -/
  root : visited.head? = some r
  /-- The entries are the occurrences of prototypes. -/
  mem : ∀ s, s ∈ visited ↔ ∃ indices, r.descend? indices = some s
  /-- There are no two entries for one of them. -/
  once : visited.Pairwise fun s t => s.isSame t = false
  /-- A parent stands before its children. -/
  parents : ∀ s ∈ visited, ∀ index t, s.nested? index = some t → List.Sublist [s, t] visited
  /-- What is below an earlier sibling stands before what is below a later one. -/
  siblings : ∀ s ∈ visited, ∀ i j t u, i < j → s.nested? i = some t → s.nested? j = some u →
    ∀ v ∈ t.walk, ∀ w ∈ u.walk, List.Sublist [v, w] visited

theorem tours_walk (r : Routine) : r.Tours r.walk where
  root := by rw [walk, walkFrom_eq]; rfl
  mem _ := mem_walk_iff
  once := (pairwise_walk r).imp Precedes.isSame_eq_false
  parents s hs index t hnested := by
    apply Precedes.sublist _ hs (mem_walk_of_nested? hs hnested)
    have hlex : List.Lex (· < ·) (s.path ++ []) (s.path ++ [index]) := .append_left _ .nil s.path
    rw [Precedes, path_nested? hnested]
    rwa [List.append_nil] at hlex
  siblings s hs i j t u hlt ht hu v hv w hw := by
    obtain ⟨indices, hindices⟩ := path_of_mem_walkFrom hv
    obtain ⟨indices', hindices'⟩ := path_of_mem_walkFrom hw
    -- Both ways come through the parent and part there.
    rw [path_nested? ht, List.append_assoc] at hindices
    rw [path_nested? hu, List.append_assoc] at hindices'
    have hvw : v.Precedes w := precedes_of_lt hlt hindices hindices'
    exact hvw.sublist (walk_subset (mem_walk_of_nested? hs ht) hv)
      (walk_subset (mem_walk_of_nested? hs hu) hw)

/-! ### The other traversals -/

mutual

/-- A search looks through what the walk comes past behind its start. -/
theorem findFrom_eq (name : String) (origin : Option ChunkId) (path : List Nat) (p : Prototype) :
    findFrom name origin path p =
      (walkNested origin path 0 p.nested).find? fun s => s.prototype.symbol = some name := by
  cases p with
  | mk symbol source upvalues arguments locals code constants imports nested =>
  exact findNested_eq name origin path 0 nested

theorem findNested_eq (name : String) (origin : Option ChunkId) (path : List Nat) (index : Nat)
    (ps : List Prototype) : findNested name origin path index ps =
      (walkNested origin path index ps).find? fun s => s.prototype.symbol = some name := by
  cases ps with
  | nil => rfl
  | cons p ps =>
    rw [findNested, walkNested, List.find?_append, walkFrom_eq, List.find?_cons]
    by_cases hname : p.symbol = some name
    · simp [hname]
    · simp only [hname, if_false, decide_false]
      rw [findFrom_eq, findNested_eq]

end

/-- What is found is part of what was searched. -/
theorem mem_walk_of_find? (h : r.find? name = some s) : s ∈ r.walk := by
  rw [find?, findFrom_eq] at h
  rw [walk, walkFrom_eq]
  exact List.mem_cons_of_mem _ (List.mem_of_find?_eq_some h)

mutual

/-- A routine is looked for among all that the walk comes past. -/
theorem containsFrom_eq (target : Routine) (origin : Option ChunkId) (path : List Nat)
    (p : Prototype) : containsFrom target origin path p =
      (walkFrom origin path p).any (·.isSame target) := by
  cases p with
  | mk symbol source upvalues arguments locals code constants imports nested =>
  rw [walkFrom_eq, List.any_cons, ← containsNested_eq target origin path 0 nested]
  rfl

theorem containsNested_eq (target : Routine) (origin : Option ChunkId) (path : List Nat)
    (index : Nat) (ps : List Prototype) : containsNested target origin path index ps =
      (walkNested origin path index ps).any (·.isSame target) := by
  cases ps with
  | nil => rfl
  | cons p ps =>
    rw [containsNested, walkNested, List.any_append, containsFrom_eq, containsNested_eq]

end

/-- The three traversals agree. A walk comes past every occurrence of a prototype once, parents
before children and siblings in order; a search finds the first that the walk comes past behind the
root and that is exported under the name, and nothing only if there is none; and what is contained
is what the walk comes past. -/
theorem traversals_agree (r : Routine) :
    r.Tours r.walk ∧
    (∀ name s, r.find? name = some s ↔ ∃ before after, r.walk = r :: before ++ s :: after ∧
      s.prototype.symbol = some name ∧ ∀ t ∈ before, t.prototype.symbol ≠ some name) ∧
    (∀ name, r.find? name = none ↔ ∀ s ∈ r.walk.tail, s.prototype.symbol ≠ some name) ∧
    (∀ target, r.contains target = true ↔ ∃ s ∈ r.walk, s.isSame target = true) := by
  have hwalk : r.walk = r :: walkNested r.origin r.path 0 r.prototype.nested :=
    walkFrom_eq r.origin r.path r.prototype
  refine ⟨tours_walk r, fun name s => ?_, fun name => ?_, fun target => ?_⟩
  · rw [find?, findFrom_eq, List.find?_eq_some_iff_append, hwalk]
    simp only [decide_eq_true_eq, Bool.not_eq_true', decide_eq_false_iff_not, List.cons_append,
      List.cons.injEq, true_and]
    constructor
    · rintro ⟨hname, before, after, hsplit, hbefore⟩
      exact ⟨before, after, hsplit, hname, hbefore⟩
    · rintro ⟨before, after, hsplit, hname, hbefore⟩
      exact ⟨hname, before, after, hsplit, hbefore⟩
  · rw [find?, findFrom_eq, List.find?_eq_none, hwalk, List.tail_cons]
    simp
  · rw [contains, containsFrom_eq, List.any_eq_true]
    rfl

/-- Two functions are exported under one name at different depths. The deeper one is found, for the
walk comes past it first. -/
example :
    let leaf (name : String) : Prototype := { Prototype.blank with symbol := some name }
    let root : Prototype :=
      { leaf "m" with nested := [{ leaf "a" with nested := [leaf "f"] }, leaf "f"] }
    (loose root).walk.map Routine.path = [[], [0], [0, 0], [1]] ∧
      ((loose root).find? "f").map Routine.path = some [0, 0] := by
  decide

end ActorMachine.Routine
