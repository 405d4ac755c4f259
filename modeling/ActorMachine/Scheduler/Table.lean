import ActorMachine.Value

/-!
# Tables

A table holds at most one value under each pid. What stands under a pid after a change is said by
`find?_insert` and `find?_erase`.
-/

namespace ActorMachine

/-- Values under pids. -/
structure Table (α : Type) where
  /-- The pids with the values under them. -/
  entries : List (Pid × α)
  /-- No pid is there twice. -/
  nodup : (entries.map Prod.fst).Nodup

namespace Table

variable {α : Type}

/-- The table without values. -/
def empty : Table α :=
  { entries := [], nodup := List.nodup_nil }

instance : Inhabited (Table α) := ⟨empty⟩

/-- The value under a pid. -/
def find? (t : Table α) (pid : Pid) : Option α :=
  (t.entries.find? fun entry => entry.1 = pid).map Prod.snd

/-- Takes away the value under a pid. -/
def erase (pid : Pid) (t : Table α) : Table α where
  entries := t.entries.filter fun entry => entry.1 ≠ pid
  nodup := t.nodup.sublist (List.filter_sublist.map Prod.fst)

/-- Puts a value under a pid, in place of the one that may be there. -/
def insert (pid : Pid) (a : α) (t : Table α) : Table α where
  entries := (pid, a) :: (t.erase pid).entries
  nodup := List.nodup_cons.2 ⟨by simp [erase], (t.erase pid).nodup⟩

/-- The values. -/
def values (t : Table α) : List α :=
  t.entries.map Prod.snd

/-- Number of values. -/
def size (t : Table α) : Nat :=
  t.entries.length

/-! ### What stands under a pid -/

/-- Under the pid of an erased value there is none, and under the others nothing changes. -/
@[simp]
theorem find?_erase (pid other : Pid) (t : Table α) :
    (t.erase pid).find? other = if other = pid then none else t.find? other := by
  rw [find?, erase, List.find?_filter]
  by_cases h : other = pid
  · simp [h]
  · rw [if_neg h, find?]
    congr 2
    funext entry
    by_cases hentry : entry.1 = other
    · simp [hentry, h]
    · simp [hentry]

/-- A value is found under the pid that it was put under, and under the others nothing changes. -/
@[simp]
theorem find?_insert (pid other : Pid) (a : α) (t : Table α) :
    (t.insert pid a).find? other = if other = pid then some a else t.find? other := by
  by_cases h : other = pid
  · simp [find?, insert, h]
  · have herase := find?_erase pid other t
    rw [if_neg h] at herase ⊢
    rw [← herase]
    simp [find?, insert, Ne.symm h]

/-- It makes no difference whether there was a value before. -/
@[simp]
theorem insert_erase (pid : Pid) (a : α) (t : Table α) :
    (t.erase pid).insert pid a = t.insert pid a := by
  simp [insert, erase, List.filter_filter]

end Table

end ActorMachine
