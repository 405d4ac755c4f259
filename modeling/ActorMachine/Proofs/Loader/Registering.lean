import ActorMachine.Proofs.Loader.Linking

/-!
# Registering libraries

* `nativesOf`: the natives of some entries, up to the first malformed one.
* `addLibrary_spec`: a library is registered exactly if its name is free and none of its entries is
  malformed. Its natives get the next numbers. Where it is not registered for a malformed entry, the
  natives before that entry have got numbers all the same.
* `Grows`: natives keep their numbers and libraries their tables, whatever is registered.
* `lookup_newNatives`: in the table of a registered library the last entry of each name leads to its
  native.
-/

namespace ActorMachine.Loader

variable {l l' : Loader} {library : Library} {entries : List (String × NativeBody)}
  {natives : List Native} {id : NativeId} {n : Nat}

/-- None of some entries is malformed. -/
def Readable (entries : List (String × NativeBody)) : Prop :=
  ∀ entry ∈ entries, ∃ read, Library.readEntry entry.1 = .ok read

/-- The natives of some entries of a library, up to the first malformed one. -/
def nativesOf (library : String) : List (String × NativeBody) → List Native
  | [] => []
  | entry :: entries =>
    match Library.readEntry entry.1 with
    | .ok (name, arity) => { library, name, arity, body := entry.2 } :: nativesOf library entries
    | .error _ => []

/-- The names of some natives, with numbers from `n` on. -/
def numbered (n : Nat) (natives : List Native) : List (String × NativeId) :=
  (natives.zipIdx n).map fun (native, index) => (native.name, ⟨index⟩)

/-- The loader with some more natives. -/
def withNatives (l : Loader) (natives : List Native) : Loader :=
  { l with natives := l.natives ++ natives.toArray }

@[simp]
theorem withNatives_nil (l : Loader) : l.withNatives [] = l := by
  simp [withNatives]

theorem withNatives_withNatives (l : Loader) (natives more : List Native) :
    (l.withNatives natives).withNatives more = l.withNatives (natives ++ more) := by
  simp [withNatives]

@[simp]
theorem size_natives_withNatives (l : Loader) (natives : List Native) :
    (l.withNatives natives).natives.size = l.natives.size + natives.length := by
  simp [withNatives]

theorem numbered_cons (n : Nat) (native : Native) (natives : List Native) :
    numbered n (native :: natives) = (native.name, ⟨n⟩) :: numbered (n + 1) natives := rfl

theorem numbered_append (n : Nat) (natives more : List Native) :
    numbered n (natives ++ more) = numbered n natives ++ numbered (n + natives.length) more := by
  rw [numbered, List.zipIdx_append, List.map_append, numbered, numbered]

/-- Numbers are given out one after the other. -/
theorem mem_numbered {named : String × NativeId} (hmem : named ∈ numbered n natives) :
    ∃ native ∈ natives, named.1 = native.name ∧ n ≤ named.2.index ∧
      named.2.index < n + natives.length := by
  obtain ⟨⟨native, index⟩, hindex, rfl⟩ := List.mem_map.1 hmem
  exact ⟨native, List.fst_mem_of_mem_zipIdx hindex, rfl, List.le_snd_of_mem_zipIdx hindex,
    List.snd_lt_add_of_mem_zipIdx hindex⟩

theorem nativesOf_cons {entry : String × NativeBody} {name : String} {arity : Option Nat}
    (hread : Library.readEntry entry.1 = .ok (name, arity)) (library : String)
    (entries : List (String × NativeBody)) :
    nativesOf library (entry :: entries) =
      { library, name, arity, body := entry.2 } :: nativesOf library entries := by
  rw [nativesOf, hread]

theorem nativesOf_append {entries : List (String × NativeBody)} (hread : Readable entries)
    (library : String) (more : List (String × NativeBody)) :
    nativesOf library (entries ++ more) = nativesOf library entries ++ nativesOf library more := by
  induction entries with
  | nil => rfl
  | cons entry entries ih =>
    obtain ⟨⟨⟨name, arity⟩, hentry⟩, hentries⟩ := List.forall_mem_cons.1 hread
    rw [List.cons_append, nativesOf_cons hentry, nativesOf_cons hentry, ih hentries,
      List.cons_append]

/-- The natives of a library are those of its entries. -/
theorem exists_entry_of_mem_nativesOf {library : String} {native : Native}
    (hmem : native ∈ nativesOf library entries) :
    ∃ entry ∈ entries, Library.readEntry entry.1 = .ok (native.name, native.arity) := by
  induction entries with
  | nil => cases hmem
  | cons entry entries ih =>
    cases hread : Library.readEntry entry.1 with
    | error fault => simp [nativesOf, hread] at hmem
    | ok read =>
      rw [nativesOf_cons hread] at hmem
      rcases List.mem_cons.1 hmem with rfl | hmem
      · exact ⟨entry, List.mem_cons_self, hread⟩
      · obtain ⟨other, hother, hread'⟩ := ih hmem
        exact ⟨other, List.mem_cons_of_mem _ hother, hread'⟩

/-! ### Entries one after the other -/

/-- Entries are registered in turn, up to the first malformed one. -/
theorem ensures_entries (library : String)
    {register : String × NativeBody → Action (String × NativeId)}
    (hregister : ∀ entry l, Ensures (register entry) l
      (fun named l' => ∃ name arity, Library.readEntry entry.1 = .ok (name, arity) ∧
        named = (name, ⟨l.natives.size⟩) ∧
        l' = l.withNatives [{ library, name, arity, body := entry.2 }])
      (fun _ l' => (∃ fault, Library.readEntry entry.1 = .error fault) ∧ l' = l))
    (entries : List (String × NativeBody)) (l : Loader) :
    Ensures (entries.mapM register) l
      (fun table l' => Readable entries ∧
        table = numbered l.natives.size (nativesOf library entries) ∧
        l' = l.withNatives (nativesOf library entries))
      (fun _ l' => ¬ Readable entries ∧ l' = l.withNatives (nativesOf library entries)) := by
  -- The induction carries where the next number is, so the table is told by the natives alone.
  induction entries generalizing l with
  | nil => exact ⟨nofun, rfl, (withNatives_nil l).symm⟩
  | cons entry entries ih =>
    rw [List.mapM_cons, ensures_bind]
    refine (hregister entry l).mono ?_ ?_
    · rintro _ _ ⟨name, arity, hread, rfl, rfl⟩
      rw [ensures_bind, nativesOf_cons hread]
      refine (ih _).mono ?_ ?_
      · rintro _ _ ⟨hreadable, rfl, rfl⟩
        rw [ensures_pure, withNatives_withNatives]
        refine ⟨List.forall_mem_cons.2 ⟨⟨_, hread⟩, hreadable⟩, ?_, rfl⟩
        rw [numbered_cons, size_natives_withNatives, List.length_singleton]
      · rintro _ _ ⟨hmalformed, rfl⟩
        rw [withNatives_withNatives]
        exact ⟨fun hreadable => hmalformed (List.forall_mem_cons.1 hreadable).2, rfl⟩
    · rintro _ _ ⟨⟨fault, hread⟩, rfl⟩
      refine ⟨fun hreadable => ?_, ?_⟩
      · obtain ⟨⟨read, hread'⟩, -⟩ := List.forall_mem_cons.1 hreadable
        cases hread.symm.trans hread'
      · rw [nativesOf, hread, withNatives_nil]

/-- The natives that registering a library puts behind those there are: none if its name is taken,
and otherwise those of the entries before the first malformed one. -/
def newNatives (l : Loader) (library : Library) : List Native :=
  if (l.libraries.lookup library.name).isSome then [] else nativesOf library.name library.entries

/-- A library can be registered: its name is free, and none of its entries is malformed. -/
def Accepts (l : Loader) (library : Library) : Prop :=
  l.libraries.lookup library.name = none ∧ Readable library.entries

/-- Registering a library. The new natives stay in both cases; a table leads to them only if the
library can be registered. -/
theorem addLibrary_spec (l : Loader) (library : Library) :
    Ensures (addLibrary library) l
      (fun _ l' => l.Accepts library ∧
        l' = { l.withNatives (l.newNatives library) with
          libraries := (library.name, (numbered l.natives.size (l.newNatives library)).reverse) ::
            l.libraries })
      (fun _ l' => ¬ l.Accepts library ∧ l' = l.withNatives (l.newNatives library)) := by
  rw [addLibrary, ensures_bind, ensures_get]
  split
  next htaken =>
    rw [newNatives, if_pos htaken, withNatives_nil]
    exact ⟨fun haccepts => by simp [haccepts.1] at htaken, rfl⟩
  next hfree =>
    rw [newNatives, if_neg hfree, ensures_bind]
    refine (ensures_entries library.name (fun entry l => ?_) library.entries l).mono ?_ ?_
    · show Ensures (ofExcept (Library.readEntry entry.1) >>= fun _ => modifyGet _) _ _ _
      rw [ensures_bind, ensures_ofExcept]
      refine ⟨?_, fun fault hread => ⟨⟨fault, hread⟩, rfl⟩⟩
      rintro ⟨name, arity⟩ hread
      exact ⟨name, arity, hread, rfl, by simp [withNatives]⟩
    · rintro _ _ ⟨hreadable, rfl, rfl⟩
      exact ⟨⟨Option.not_isSome_iff_eq_none.1 hfree, hreadable⟩, rfl⟩
    · rintro _ _ ⟨hmalformed, rfl⟩
      exact ⟨fun haccepts => hmalformed haccepts.2, rfl⟩

/-! ### What stays registered -/

/-- Natives keep their numbers, and libraries their tables. -/
structure Grows (l l' : Loader) : Prop where
  /-- A native has the number that it had. -/
  natives : ∀ {id native}, l.native? id = some native → l'.native? id = some native
  /-- A library has the table that it had. -/
  libraries : ∀ {name table}, l.libraries.lookup name = some table →
    l'.libraries.lookup name = some table

theorem grows_of_eq (hnatives : l'.natives = l.natives) (hlibraries : l'.libraries = l.libraries) :
    Grows l l' where
  natives := by
    intro id native hnative
    rwa [native?, hnatives]
  libraries := by
    intro name table htable
    rwa [hlibraries]

theorem Grows.trans {l'' : Loader} (h : Grows l l') (h' : Grows l' l'') : Grows l l'' :=
  ⟨fun hnative => h'.natives (h.natives hnative), fun htable => h'.libraries (h.libraries htable)⟩

/-- What a library stands for, it stands for from then on. -/
theorem Grows.resolve (h : Grows l l') {module name : String}
    (hresolve : l.resolve module name = .ok (.native id)) :
    l'.resolve module name = .ok (.native id) := by
  rw [Loader.resolve, resolve?] at hresolve ⊢
  cases htable : l.libraries.lookup module with
  | some table =>
    rw [htable] at hresolve
    rwa [h.libraries htable]
  | none =>
    -- A module stands for functions.
    rw [htable] at hresolve
    dsimp only at hresolve
    split at hresolve
    next symbol hsymbol =>
      cases hresolve
      split at hsymbol
      next => simp at hsymbol
      next => cases hsymbol
    next => cases hresolve

theorem grows_withNatives (l : Loader) (natives : List Native) : Grows l (l.withNatives natives) where
  natives := by
    intro id native hnative
    have hlt := (Array.getElem?_eq_some_iff.1 hnative).1
    rw [native?, withNatives, Array.getElem?_append_left hlt]
    exact hnative
  libraries := id

/-- Registering a library, whether that succeeds or not. -/
theorem grows_addLibrary (l : Loader) (library : Library) :
    Ensures (addLibrary library) l (fun _ => Grows l) fun _ => Grows l := by
  have hgrows := grows_withNatives l (l.newNatives library)
  refine (addLibrary_spec l library).mono ?_ ?_
  · rintro _ _ ⟨⟨hfree, -⟩, rfl⟩
    refine ⟨hgrows.natives, fun {name table} htable => ?_⟩
    -- The name of the new library was free.
    have hne : (name == library.name) = false := by
      rw [beq_eq_false_iff_ne]
      rintro rfl
      simp [hfree] at htable
    rw [List.lookup_cons, hne]
    exact htable
  · rintro _ _ ⟨-, rfl⟩
    exact hgrows

/-! ### What an entry leads to -/

/-- Once a library is registered, the last entry of each name leads to its native. -/
theorem lookup_newNatives (haccepts : l.Accepts library)
    {before after : List (String × NativeBody)} {entry : String × NativeBody} {name : String}
    {arity : Option Nat} (hentries : library.entries = before ++ entry :: after)
    (hread : Library.readEntry entry.1 = .ok (name, arity))
    (hlast : ∀ other ∈ after, ∀ arity, Library.readEntry other.1 ≠ .ok (name, arity)) :
    ∃ id, (numbered l.natives.size (l.newNatives library)).reverse.lookup name = some id ∧
      (l.withNatives (l.newNatives library)).native? id =
        some { library := library.name, name, arity, body := entry.2 } := by
  obtain ⟨hfree, hreadable⟩ := haccepts
  have hbefore : Readable before := fun other hother =>
    hreadable other (hentries ▸ List.mem_append_left _ hother)
  have hnew : l.newNatives library = nativesOf library.name before ++
      { library := library.name, name, arity, body := entry.2 } ::
        nativesOf library.name after := by
    rw [newNatives, if_neg (by simp [hfree]), hentries, nativesOf_append hbefore,
      nativesOf_cons hread]
  -- No later entry has this name. The table is searched from its end, so this one is found first.
  have hafter : (numbered (l.natives.size + (nativesOf library.name before).length + 1)
      (nativesOf library.name after)).reverse.lookup name = none := by
    rw [List.lookup_eq_none_iff]
    intro named hmem
    obtain ⟨native, hnative, hname, -⟩ := mem_numbered (List.mem_reverse.1 hmem)
    obtain ⟨other, hother, hread'⟩ := exists_entry_of_mem_nativesOf hnative
    rw [bne_iff_ne, hname]
    rintro rfl
    exact hlast other hother _ hread'
  refine ⟨⟨l.natives.size + (nativesOf library.name before).length⟩, ?_, ?_⟩
  · rw [hnew, numbered_append, numbered_cons, List.reverse_append, List.reverse_cons,
      List.lookup_append, List.lookup_append, hafter]
    simp
  · rw [native?, withNatives, hnew]
    simp

end ActorMachine.Loader
