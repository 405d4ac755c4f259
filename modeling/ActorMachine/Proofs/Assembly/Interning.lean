import ActorMachine.Proofs.Assembly.Editing
import Mathlib.Data.List.Induction

/-!
# Interning

A table of texts can be kept with an index beside its list, which says where a text is without a
search. The index is written once for each text, when the text is put into the list.

* `IndexedTable`, `Agrees`: tables with an index, and what the index has to say about the list.
* `agrees_ofList`, `Agrees.intern`: an index that is made for a list agrees with it, although texts
  that occur again overwrite entries, and each text that is taken in keeps it so.
* `ref_internAll`, `get?_internAll`: references are for good, whatever is taken in later.
* `stable_internAll`: what interning does to every table, with an index or without.
-/

namespace ActorMachine

/-- The table after several texts were taken in. -/
def StringTable.internAll (ss : List String) (t : StringTable) : StringTable :=
  ss.foldl (fun t s => (t.intern s).2) t

/-! ### Tables with an index -/

/-- A table of texts with an index beside it, in which the texts are looked up. -/
structure IndexedTable where
  /-- The texts in the order of their references. -/
  texts : Array String
  /-- The references under their texts. -/
  index : Std.HashMap String StringRef

namespace IndexedTable

/-- The index of a list: each text is written under its place, over what stood there before. -/
def indexOf (texts : List String) : Std.HashMap String StringRef :=
  texts.zipIdx.foldl (fun index (s, i) => index.insert s ⟨UInt32.ofNat i⟩) ∅

/-- The table of a list of texts, with the index that is made for it. -/
def ofList (texts : List String) : IndexedTable :=
  let table := StringTable.ofList texts
  { texts := table.texts, index := indexOf table.toList }

/-- The text of a reference. -/
def get? (u : IndexedTable) (r : StringRef) : Option String :=
  u.texts[r.index.toNat]?

/-- The reference to a text, which is put into the list and the index if it is not there. -/
def intern (s : String) (u : IndexedTable) : StringRef × IndexedTable :=
  match u.index[s]? with
  | some r => (r, u)
  | none =>
    let r : StringRef := ⟨UInt32.ofNat u.texts.size⟩
    (r, { texts := u.texts.push s, index := u.index.insert s r })

/-- The table after several texts were taken in. -/
def internAll (ss : List String) (u : IndexedTable) : IndexedTable :=
  ss.foldl (fun u s => (u.intern s).2) u

/-- A table with an index has the list of the other one, and its index has the reference to the last
entry of each text, and of no other text. -/
structure Agrees (u : IndexedTable) (t : StringTable) : Prop where
  /-- The lists are the same. -/
  texts : u.texts = t.texts
  /-- The index says where a text is found last. -/
  index : ∀ s, u.index[s]? =
    (StringTable.lastIndex? s t.toList).map fun i => (⟨UInt32.ofNat i⟩ : StringRef)

variable {u : IndexedTable} {t : StringTable}

theorem getElem?_indexOf (s : String) (texts : List String) : (indexOf texts)[s]? =
    (StringTable.lastIndex? s texts).map fun i => (⟨UInt32.ofNat i⟩ : StringRef) := by
  -- What is written last is behind the other texts, so the induction takes it off there.
  induction texts using List.reverseRecOn with
  | nil => simp [indexOf, StringTable.lastIndex?]
  | append_singleton texts s' ih =>
    have hlast : indexOf (texts ++ [s']) =
        (indexOf texts).insert s' ⟨UInt32.ofNat texts.length⟩ := by
      simp [indexOf, List.zipIdx_append]
    rw [hlast, Std.HashMap.getElem?_insert, StringTable.lastIndex?_append_singleton, ih]
    by_cases heq : s' = s <;> simp [heq]

theorem agrees_ofList (texts : List String) : (ofList texts).Agrees (.ofList texts) :=
  ⟨rfl, fun s => getElem?_indexOf s _⟩

/-- The index answers what a search through the list answers. -/
theorem Agrees.fst_intern (h : u.Agrees t) (s : String) : (u.intern s).1 = (t.intern s).1 := by
  unfold intern StringTable.intern
  rw [h.index]
  cases StringTable.lastIndex? s t.toList with
  | some i => rfl
  | none => simp [h.texts, StringTable.size]

/-- What is put into the list is put into the index as well. -/
theorem Agrees.intern (h : u.Agrees t) (s : String) : (u.intern s).2.Agrees (t.intern s).2 := by
  unfold IndexedTable.intern StringTable.intern
  rw [h.index]
  cases hlast : StringTable.lastIndex? s t.toList with
  | some i => exact h
  | none =>
    refine ⟨by simp [h.texts], fun s' => ?_⟩
    have hlist : ({ t with texts := t.texts.push s } : StringTable).toList = t.toList ++ [s] := by
      simp [StringTable.toList]
    rw [hlist, StringTable.lastIndex?_append_singleton]
    show (u.index.insert s _)[s']? = _
    rw [Std.HashMap.getElem?_insert, h.index]
    by_cases heq : s = s' <;> simp [heq, h.texts, StringTable.toList]

theorem Agrees.internAll (h : u.Agrees t) (ss : List String) :
    (u.internAll ss).Agrees (t.internAll ss) := by
  induction ss generalizing u t with
  | nil => exact h
  | cons s ss ih => exact ih (h.intern s)

end IndexedTable

namespace StringTable

variable {s s' text : String} {t : StringTable} {r : StringRef}

/-! ### References -/

/-- No texts make the table in which nothing but the empty string is. -/
theorem ofList_nil : ofList [] = empty := rfl

/-- A text is put behind the others if it is not there. -/
theorem toList_intern (s : String) (t : StringTable) :
    (t.intern s).2.toList = if s ∈ t.toList then t.toList else t.toList ++ [s] := by
  unfold intern
  split
  next i hi => rw [if_pos (List.mem_of_getElem? (getElem?_lastIndex? hi))]
  next hnone =>
    rw [if_neg (lastIndex?_eq_none_iff.1 hnone)]
    simp [toList]

theorem prefix_internAll (ss : List String) (t : StringTable) :
    t.toList <+: (t.internAll ss).toList := by
  induction ss generalizing t with
  | nil => exact List.prefix_rfl
  | cons s ss ih => exact (prefix_intern s t).trans (ih _)

/-- The list of a table begins with the empty string whatever is taken in. -/
theorem head?_internAll (hhead : t.toList.head? = some "") (ss : List String) :
    (t.internAll ss).toList.head? = some "" := by
  obtain ⟨rest, hrest⟩ := List.head?_eq_some_iff.1 hhead
  obtain ⟨behind, hbehind⟩ := prefix_internAll ss t
  rw [← hbehind, hrest]
  rfl

/-- A reference that denotes a text goes on denoting it. -/
theorem get?_internAll (hget : t.get? r = some text) (ss : List String) :
    (t.internAll ss).get? r = some text := by
  obtain ⟨behind, hbehind⟩ := prefix_internAll ss t
  have hat : t.toList[r.index.toNat]? = some text := by
    rwa [toList, Array.getElem?_toList]
  have hlt := (List.getElem?_eq_some_iff.1 hat).1
  rw [get?, ← Array.getElem?_toList]
  show (t.internAll ss).toList[_]? = _
  rw [← hbehind, List.getElem?_append_left hlt, hat]

/-- The reference to a text that is there is the same after others were taken in. -/
theorem ref_internAll (hmem : s ∈ t.toList) (ss : List String) :
    (t.internAll ss).ref s = t.ref s := by
  induction ss generalizing t with
  | nil => rfl
  | cons s' ss ih =>
    rw [internAll, List.foldl_cons]
    exact (ih ((prefix_intern s' t).subset hmem)).trans (ref_intern_of_mem hmem)

/-- A text that is there is not put into the table again. -/
theorem intern_of_mem (hmem : s ∈ t.toList) : t.intern s = (t.ref s, t) := by
  obtain ⟨i, hi⟩ := exists_lastIndex? hmem
  simp [ref, intern, hi]

/-- The reference that interning answers denotes the text, as long as references have enough bits. -/
theorem get?_intern (s : String) (hsize : (t.intern s).2.size ≤ UInt32.size) :
    (t.intern s).2.get? (t.intern s).1 = some s := by
  have hget := get?_ref (mem_intern s t) hsize
  rwa [ref_intern_self] at hget

/-- That reference is the place of the text, in as many bits as it has. -/
theorem exists_place_intern (s : String) (t : StringTable) :
    ∃ i, (t.intern s).2.toList[i]? = some s ∧ (t.intern s).1 = ⟨UInt32.ofNat i⟩ := by
  unfold intern
  split
  next i hi => exact ⟨i, getElem?_lastIndex? hi, rfl⟩
  next => exact ⟨t.size, by simp [toList, size], rfl⟩

theorem size_eq_length (t : StringTable) : t.size = t.toList.length := by
  simp [size, toList]

theorem size_le_internAll (ss : List String) (t : StringTable) :
    t.size ≤ (t.internAll ss).size := by
  rw [size_eq_length, size_eq_length]
  exact (prefix_internAll ss t).length_le

/-! ### Tables that are interned into -/

/-- What interning does to a table, without an index and with one. -/
structure Stable (t : StringTable) (u : IndexedTable) : Prop where
  /-- The index has the same to say as the list. -/
  agrees : u.Agrees t
  /-- So both answer the same reference for a text. -/
  answers : ∀ s, (u.intern s).1 = (t.intern s).1
  /-- Both answer the same text for a reference. -/
  gets : ∀ r, u.get? r = t.get? r
  /-- The reference that is answered is the place of the text, in 32 bits. -/
  placed : ∀ s, ∃ i, (t.intern s).2.toList[i]? = some s ∧ (t.intern s).1 = ⟨UInt32.ofNat i⟩
  /-- So it denotes the text, as long as 32 bits suffice for the table. -/
  denotes : ∀ s, (t.intern s).2.size ≤ UInt32.size →
    (t.intern s).2.get? (t.intern s).1 = some s
  /-- It is answered again whenever the text is taken in again, and the table is left alone. -/
  again : ∀ s ss, ((t.intern s).2.internAll ss).intern s =
    ((t.intern s).1, (t.intern s).2.internAll ss)
  /-- What a reference denotes it denotes for good. -/
  keeps : ∀ r text ss, t.get? r = some text → (t.internAll ss).get? r = some text
  /-- The table grows by one text if that was not there, and by none if it was. -/
  grows : ∀ s, (t.intern s).2.size = if s ∈ t.toList then t.size else t.size + 1
  /-- It can be made again of its list. So nothing that is read or taken in tells the two apart. -/
  rebuilt : ofList t.toList = t
  /-- An index that is made again for the list has the same entries, so it answers the same. -/
  reindexed : (IndexedTable.ofList u.texts.toList).texts = u.texts ∧
    ∀ s : String, (IndexedTable.ofList u.texts.toList).index[s]? = u.index[s]?
  /-- Two texts have the same reference if and only if they are the same. -/
  distinct : ∀ s s' ss, (((t.intern s).2.internAll ss).intern s').2.size ≤ UInt32.size →
    ((t.intern s).1 = (((t.intern s).2.internAll ss).intern s').1 ↔ s = s')

/-- Different texts have different references, whatever was taken in between. -/
theorem fst_intern_eq_iff (ss : List String)
    (hsize : (((t.intern s).2.internAll ss).intern s').2.size ≤ UInt32.size) :
    (t.intern s).1 = (((t.intern s).2.internAll ss).intern s').1 ↔ s = s' := by
  constructor
  · intro heq
    -- In the last table the reference denotes the one text and the other.
    have hsize' : (t.intern s).2.size ≤ UInt32.size := calc
      (t.intern s).2.size ≤ ((t.intern s).2.internAll ss).size := size_le_internAll ss _
      _ ≤ (((t.intern s).2.internAll ss).intern s').2.size := size_le_internAll [s'] _
      _ ≤ UInt32.size := hsize
    have hfirst := get?_internAll (get?_internAll (get?_intern s hsize') ss) [s']
    have hsecond := get?_intern s' hsize
    rw [← heq] at hsecond
    exact Option.some.inj (hfirst.symm.trans hsecond)
  · rintro rfl
    have hmem := (prefix_internAll ss _).subset (mem_intern s t)
    rw [intern_of_mem hmem, ref_internAll (mem_intern s t), ref_intern_self]
    rfl

/-- Whatever list a table is made of, with texts that occur again and with or without the empty
string in front, and whatever is taken in then: references denote what was taken in, and do so for
good, no text is put in twice, and the list is all that it takes to make the same table again. The
table to start with is one of these, for it is that of no texts. -/
theorem stable_internAll : ofList [] = empty ∧ ∀ texts ss,
    Stable ((ofList texts).internAll ss) ((IndexedTable.ofList texts).internAll ss) := by
  refine ⟨ofList_nil, fun texts ss => ?_⟩
  have hagrees := (IndexedTable.agrees_ofList texts).internAll ss
  have hhead := head?_internAll (head?_ofList texts) ss
  generalize (ofList texts).internAll ss = t at hagrees hhead
  generalize (IndexedTable.ofList texts).internAll ss = u at hagrees
  have hrebuilt := ofList_toList hhead
  refine {
    agrees := hagrees
    answers := hagrees.fst_intern
    gets := fun r => by rw [IndexedTable.get?, hagrees.texts, get?]
    placed := fun s => exists_place_intern s t
    denotes := fun s => get?_intern s
    again := fun s ss => ?_
    keeps := fun r text ss hget => get?_internAll hget ss
    grows := fun s => ?_
    rebuilt := hrebuilt
    reindexed := ?_
    distinct := fun s s' ss => fst_intern_eq_iff ss }
  · have hmem := mem_intern s t
    rw [intern_of_mem ((prefix_internAll ss _).subset hmem), ref_internAll hmem, ref_intern_self]
    rfl
  · rw [size_eq_length, size_eq_length, toList_intern]
    split <;> simp
  · -- Both indices say where texts are found last in the same list.
    have hmade := IndexedTable.agrees_ofList t.toList
    rw [hrebuilt] at hmade
    have hlist : u.texts.toList = t.toList := by rw [hagrees.texts, toList]
    rw [hlist]
    exact ⟨hmade.texts.trans hagrees.texts.symm, fun s => by rw [hmade.index, hagrees.index]⟩

end StringTable

end ActorMachine
