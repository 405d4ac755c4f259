import ActorMachine.Proofs.Assembly.Building

/-!
# Where edits take effect

A command to the assembler changes the draft under the cursor, or moves the cursor, and everything
else in the tree stays what it was.

* `own_at?_modifyAt`: a change at the end of a path shows nowhere but from there on.
* `Edited`, `Pushed`: what the two kinds of changes leave as it was, path by path.
* `orderly_of_built`: the cursor always leads to a draft that is not too deep, a command that fails
  changes nothing, and the others do one of those two things.
-/

namespace ActorMachine

namespace StringTable

variable {s s' : String} {t : StringTable}

/-- The reference that interning a text answers. -/
def ref (t : StringTable) (s : String) : StringRef :=
  (t.intern s).1

theorem prefix_intern (s : String) (t : StringTable) : t.toList <+: (t.intern s).2.toList := by
  unfold intern
  split
  · exact List.prefix_rfl
  · simp [toList]

theorem mem_intern (s : String) (t : StringTable) : s ∈ (t.intern s).2.toList := by
  unfold intern
  split
  next i hi => exact List.mem_of_getElem? (getElem?_lastIndex? hi)
  next => simp [toList]

theorem exists_lastIndex? {texts : List String} (hmem : s ∈ texts) :
    ∃ i, lastIndex? s texts = some i := by
  cases h : lastIndex? s texts with
  | some i => exact ⟨i, rfl⟩
  | none => exact absurd hmem (lastIndex?_eq_none_iff.1 h)

/-- A text behind the others is the last entry that is equal to it, and no other text's. -/
theorem lastIndex?_append_singleton (s s' : String) (texts : List String) :
    lastIndex? s (texts ++ [s']) = if s' = s then some texts.length else lastIndex? s texts := by
  induction texts with
  | nil => simp [lastIndex?]
  | cons text texts ih =>
    rw [List.cons_append, lastIndex?, ih, lastIndex?]
    by_cases heq : s' = s <;> simp [heq]

/-- What is in the table keeps its reference, whatever is taken in. -/
theorem ref_intern_of_mem (hmem : s ∈ t.toList) : (t.intern s').2.ref s = t.ref s := by
  unfold intern
  split
  next => rfl
  next hnone =>
    -- The text that is put behind the others was not there, so it is a different one.
    have hne : s' ≠ s := by
      rintro rfl
      exact lastIndex?_eq_none_iff.1 hnone hmem
    obtain ⟨i, hi⟩ := exists_lastIndex? hmem
    have hpush : lastIndex? s (t.texts.push s').toList = some i := by
      rw [Array.toList_push, lastIndex?_append_singleton, if_neg hne]
      exact hi
    simp only [ref, intern, toList] at hi ⊢
    simp only [hpush, hi]

/-- A text that was just taken in has the reference that was answered. -/
theorem ref_intern_self (s : String) (t : StringTable) : (t.intern s).2.ref s = t.ref s := by
  by_cases hmem : s ∈ t.toList
  · exact ref_intern_of_mem hmem
  · have hnone : lastIndex? s t.toList = none := lastIndex?_eq_none_iff.2 hmem
    have hpush : lastIndex? s (t.texts.push s).toList = some t.size := by
      rw [Array.toList_push, lastIndex?_append_singleton, if_pos rfl]
      rfl
    simp only [ref, intern, toList] at hnone ⊢
    simp only [hnone, hpush]

/-- References have 32 bits. As long as they suffice, that of a text in the table denotes it. -/
theorem get?_ref (hmem : s ∈ t.toList) (hsize : t.size ≤ UInt32.size) :
    t.get? (t.ref s) = some s := by
  obtain ⟨i, hi⟩ := exists_lastIndex? hmem
  have hat : t.toList[i]? = some s := getElem?_lastIndex? hi
  have hlt : i < t.size := (List.getElem?_eq_some_iff.1 hat).1
  have hbound : i < UInt32.size := Nat.lt_of_lt_of_le hlt hsize
  have hindex : (UInt32.ofNat i).toNat = i := UInt32.toNat_ofNat_of_lt' hbound
  simp only [ref, intern, hi, get?, hindex]
  rwa [← Array.getElem?_toList]

end StringTable

namespace Draft

variable {change : Draft → Draft} {d child : Draft} {path path' : List Nat}

/-! ### One place in a tree -/

/-- What is a draft's own: everything but the drafts that are nested in it. -/
def own (d : Draft) : Draft :=
  { d with nested := [] }

theorem at?_append (d : Draft) (path path' : List Nat) :
    d.at? (path ++ path') = (d.at? path).bind (·.at? path') := by
  induction path generalizing d with
  | nil => rfl
  | cons index path ih =>
    rw [List.cons_append, at?_cons, at?_cons, Option.bind_assoc]
    exact congrArg _ (funext ih)

theorem at?_append_singleton (hat : d.at? path = some child) (index : Nat) :
    d.at? (path ++ [index]) = child.nested[index]? := by
  rw [at?_append, hat, Option.bind_some, at?_cons]
  simp [at?]

/-- What is changed is found where it was. -/
theorem at?_modifyAt_self (change : Draft → Draft) (path : List Nat) (d : Draft) :
    (d.modifyAt change path).at? path = (d.at? path).map change := by
  induction path generalizing d with
  | nil => rfl
  | cons index path ih =>
    rw [modifyAt, at?_cons, at?_cons, List.getElem?_modify_eq]
    cases d.nested[index]? with
    | none => rfl
    | some child => exact ih child

/-- A change shows nowhere but on paths that go through the place where it is made, and there only
as far as it shows in the draft itself. -/
theorem own_at?_modifyAt (d : Draft)
    (hchange : ∀ rest child, path' = path ++ rest → d.at? path = some child →
      ((change child).at? rest).map own = (child.at? rest).map own) :
    ((d.modifyAt change path).at? path').map own = (d.at? path').map own := by
  -- The induction goes down the path of the change, and the other path goes with it as long as it
  -- takes the same turns.
  induction path generalizing d path' with
  | nil => exact hchange path' d rfl rfl
  | cons index path ih =>
    cases path' with
    | nil => rfl
    | cons index' path' =>
      rw [modifyAt, at?_cons, at?_cons]
      by_cases hindex : index = index'
      · -- The paths go the same way, and it is the draft below that differs.
        subst hindex
        rw [List.getElem?_modify_eq]
        cases hchild : d.nested[index]? with
        | none => rfl
        | some child =>
          refine ih child fun rest inner hpath hinner => hchange rest inner ?_ ?_
          · rw [hpath, List.cons_append]
          · rw [at?_cons, hchild]
            exact hinner
      · simp only [List.getElem?_modify, if_neg hindex, id_map']

/-- A change that leaves the nested drafts alone shows in one place only. -/
theorem own_at?_modifyAt_of_ne (hchange : ∀ d, (change d).nested = d.nested)
    (hne : path' ≠ path) (d : Draft) :
    ((d.modifyAt change path).at? path').map own = (d.at? path').map own := by
  apply own_at?_modifyAt
  rintro rest child hpath -
  cases rest with
  | nil =>
    rw [List.append_nil] at hpath
    exact absurd hpath hne
  | cons index rest => rw [at?_cons, at?_cons, hchange]

/-- A draft with a blank one behind those that are nested in it. -/
def extend (d : Draft) : Draft :=
  { d with nested := d.nested ++ [blank] }

/-- A draft that is put behind the nested ones shows in its own place only. -/
theorem own_at?_modifyAt_extend (hat : d.at? path = some child)
    (hne : path' ≠ path ++ [child.nested.length]) :
    ((d.modifyAt extend path).at? path').map own = (d.at? path').map own := by
  apply own_at?_modifyAt
  rintro rest found rfl hfound
  cases hat.symm.trans hfound
  cases rest with
  | nil => rfl
  | cons index rest =>
    rw [at?_cons, at?_cons, extend]
    rcases Nat.lt_trichotomy index child.nested.length with hlt | rfl | hgt
    · rw [List.getElem?_append_left hlt]
    · -- Below the blank draft there is nothing to be seen.
      cases rest with
      | nil => exact absurd rfl hne
      | cons index rest => simp [at?_cons, blank]
    · rw [List.getElem?_eq_none (by simp; omega), List.getElem?_eq_none (Nat.le_of_lt hgt)]

end Draft

namespace Assembler

variable {a b : Assembler} {c : Command} {index : Nat}

/-! ### What commands are to do -/

/-- What the draft at a path has of its own, if the path leads to one. -/
def ownAt? (a : Assembler) (path : List Nat) : Option Draft :=
  (a.root.at? path).map Draft.own

namespace Command

/-- The command is one that moves the cursor. -/
def Moves : Command → Prop
  | push | pushNamed _ | pop | «open» _ => True
  | _ => False

/-- What a command that does not move the cursor makes of the draft under it, where texts have
these references. -/
def change (ref : String → StringRef) : Command → Draft → Draft
  | emit i, d => { d with code := d.code.push i }
  | addConstant c, d => { d with constants := d.constants.push c }
  | addImport module name, d =>
    { d with imports := d.imports.push { module := ref module, name := ref name } }
  | setSymbol s, d => { d with symbol := ref s }
  | setSource s, d => { d with source := ref s }
  | setUpvalues upvalues, d => { d with upvalues }
  | setArguments arguments, d => { d with arguments }
  | setLocals locals, d => { d with locals }
  | _, d => d

theorem nested_change (ref : String → StringRef) (c : Command) (d : Draft) :
    (c.change ref d).nested = d.nested := by
  cases c <;> rfl

end Command

/-- A command has changed the current draft and nothing else, but for texts that were taken in. -/
structure Edited (c : Command) (a b : Assembler) : Prop where
  /-- The cursor has not moved. -/
  cursor : b.cursor = a.cursor
  /-- The draft under it is what the command makes of it. -/
  current : b.root.at? b.cursor = some (c.change b.strings.ref a.current)
  /-- All other drafts are where they were and have of their own what they had. -/
  others : ∀ path, path ≠ a.cursor → b.ownAt? path = a.ownAt? path
  /-- Texts were taken in behind those that were there, if at all. -/
  texts : a.strings.toList <+: b.strings.toList

/-- A blank draft was put behind those nested in the current one and moved to. -/
structure Pushed (index : Nat) (a b : Assembler) : Prop where
  /-- The cursor has moved down by one step. -/
  cursor : b.cursor = a.cursor ++ [index]
  /-- The step is behind all that could be made before. -/
  index : index = a.current.nested.length
  /-- The draft there is blank. -/
  blank : b.root.at? b.cursor = some .blank
  /-- All other drafts are where they were and have of their own what they had. -/
  others : ∀ path, path ≠ b.cursor → b.ownAt? path = a.ownAt? path
  /-- No text was taken in. -/
  strings : b.strings = a.strings

/-- What an assembler is like, and what commands do to it. -/
structure Orderly (a : Assembler) : Prop where
  /-- The cursor leads to a draft. -/
  standing : a.root.at? a.cursor = some a.current
  /-- It is not below the deepest level. -/
  depth : a.depth ≤ maxNesting
  /-- Nor are the drafts. -/
  height : a.root.height ≤ maxNesting
  /-- What is saved can be loaded, if its bytes can be counted in a word. -/
  loads : a.save.length ≤ Capacity.maxWord → ∃ b, load a.save = .ok b
  /-- Whatever fails leaves everything as it is. -/
  failed : ∀ c fault b, Command.run c a = .error fault b → b = a
  /-- A draft is made below the current one unless that is on the deepest level. -/
  pushed : if a.depth < maxNesting then ∃ index b, push a = .ok index b ∧ Pushed index a b
    else push a = .error (.nestingTooDeep maxNesting) a
  /-- A draft is made like that and then named. -/
  named : ∀ symbol, pushNamed symbol a = match push a with
    | .ok index b => .ok index ((Command.setSymbol symbol).run.after b)
    | .error fault b => .error fault b
  /-- Unless it is at the root, the cursor goes back by one step, which is answered. -/
  popped : pop a = match a.cursor.getLast? with
    | some index => .ok index { a with cursor := a.cursor.dropLast }
    | none => .error .atRoot a
  /-- The cursor goes down to a draft that is there unless it is on the deepest level. -/
  opened : ∀ index, «open» index a =
    if maxNesting ≤ a.depth then .error (.nestingTooDeep maxNesting) a
    else if index < a.current.nested.length then .ok () { a with cursor := a.cursor ++ [index] }
    else .error (.noSuchPrototype index) a
  /-- Every other command succeeds and changes the current draft only. -/
  edited : ∀ c, ¬ Command.Moves c → ∃ b, c.run a = .ok () b ∧ Edited c a b
  /-- The index of an instruction is the place where it was put. -/
  emitted : ∀ i, ∃ index b, emit i a = .ok index b ∧ (Command.emit i).run a = .ok () b ∧
    b.current.code[index]? = some i
  /-- So is the index of a constant. -/
  constant : ∀ c, ∃ index b, addConstant c a = .ok index b ∧
    (Command.addConstant c).run a = .ok () b ∧ b.current.constants[index]? = some c
  /-- So is that of an import, which has the references to the texts that were given. -/
  imported : ∀ module name, ∃ index b, addImport module name a = .ok index b ∧
    (Command.addImport module name).run a = .ok () b ∧
    b.current.imports[index]? =
      some { module := b.strings.ref module, name := b.strings.ref name } ∧
    module ∈ b.strings.toList ∧ name ∈ b.strings.toList
  /-- A text that is taken in is in the table, and its reference is answered. -/
  interned : ∀ s, ∃ b, intern s a = .ok (b.strings.ref s) b ∧
    (Command.intern s).run a = .ok () b ∧ s ∈ b.strings.toList
  /-- References have 32 bits. If they suffice for the table, that of a text denotes it. -/
  denotes : a.strings.size ≤ UInt32.size →
    ∀ s ∈ a.strings.toList, a.strings.get? (a.strings.ref s) = some s

/-! ### The cursor -/

/-- The cursor leads to a draft. -/
def Standing (a : Assembler) : Prop :=
  ∃ d, a.root.at? a.cursor = some d

theorem Standing.current (ha : a.Standing) : a.root.at? a.cursor = some a.current := by
  obtain ⟨d, hat⟩ := ha
  unfold Assembler.current
  rw [hat]
  rfl

/-- The texts do not matter to that. -/
theorem Standing.withStrings (ha : a.Standing) (t : StringTable) :
    Standing { a with strings := t } :=
  ha

theorem current_eq {d : Draft} (hat : a.root.at? a.cursor = some d) : a.current = d := by
  unfold current
  rw [hat]
  rfl

/-- After a change the cursor leads to what was made of the draft under it. -/
theorem Standing.edit (ha : a.Standing) (change : Draft → Draft) :
    (a.edit change).root.at? a.cursor = some (change a.current) := by
  unfold Assembler.edit
  rw [Draft.at?_modifyAt_self, ha.current, Option.map_some]

/-! ### Commands that do not move the cursor -/

theorem Standing.edited (ha : a.Standing) {t : StringTable} {change : Draft → Draft}
    (htexts : a.strings.toList <+: t.toList) (hchange : ∀ d, c.change t.ref d = change d) :
    Edited c a (Assembler.edit change { a with strings := t }) := by
  obtain rfl : c.change t.ref = change := funext hchange
  refine ⟨rfl, (ha.withStrings t).edit _, fun path hne => ?_, htexts⟩
  exact Draft.own_at?_modifyAt_of_ne (c.nested_change _) hne a.root

/-- The reference to the first of two texts is the same after the second was taken in. -/
theorem ref_intern_intern (t : StringTable) (module name : String) :
    ((t.intern module).2.intern name).2.ref module = t.ref module := by
  rw [StringTable.ref_intern_of_mem (StringTable.mem_intern module t),
    StringTable.ref_intern_self]

theorem prefix_intern_intern (t : StringTable) (module name : String) :
    t.toList <+: ((t.intern module).2.intern name).2.toList :=
  (StringTable.prefix_intern module t).trans (StringTable.prefix_intern name _)

theorem discard_run {α : Type} (act : Action α) (a : Assembler) :
    discard act a =
      match act a with
      | .ok _ b => .ok () b
      | .error fault b => .error fault b := by
  change EStateM.bind act (fun _ => pure ()) a = _
  unfold EStateM.bind
  cases act a <;> rfl

theorem setSymbol_run (s : String) (a : Assembler) :
    setSymbol s a = .ok () (edit (fun d => { d with symbol := a.strings.ref s })
      { a with strings := (a.strings.intern s).2 }) :=
  rfl

theorem setSource_run (s : String) (a : Assembler) :
    setSource s a = .ok () (edit (fun d => { d with source := a.strings.ref s })
      { a with strings := (a.strings.intern s).2 }) :=
  rfl

/-- The name is taken in after the module. -/
theorem addImport_run (module name : String) (a : Assembler) :
    addImport module name a = .ok a.current.imports.size
      (edit (fun d => { d with imports := d.imports.push ⟨a.strings.ref module,
        (a.strings.intern module).2.ref name⟩ })
        { a with strings := ((a.strings.intern module).2.intern name).2 }) :=
  rfl

theorem Standing.run (ha : a.Standing) (hmoves : ¬ c.Moves) :
    ∃ b, c.run a = .ok () b ∧ Edited c a b := by
  cases c with
  | push | pushNamed | pop | «open» => exact absurd trivial hmoves
  | emit | addConstant | setUpvalues | setArguments | setLocals =>
    exact ⟨_, rfl, ha.edited List.prefix_rfl fun _ => rfl⟩
  | intern s => exact ⟨_, rfl, rfl, ha.current, fun _ _ => rfl, StringTable.prefix_intern s _⟩
  | setSymbol s =>
    refine ⟨_, setSymbol_run s a, ha.edited (StringTable.prefix_intern s _) fun d => ?_⟩
    rw [Command.change, StringTable.ref_intern_self]
  | setSource s =>
    refine ⟨_, setSource_run s a, ha.edited (StringTable.prefix_intern s _) fun d => ?_⟩
    rw [Command.change, StringTable.ref_intern_self]
  | addImport module name =>
    rw [Command.run, discard_run, addImport_run]
    refine ⟨_, rfl, ha.edited (prefix_intern_intern _ module name) fun d => ?_⟩
    rw [Command.change, ref_intern_intern, StringTable.ref_intern_self]

/-- Taking in the name after the module does not change what the module is referred to by. -/
theorem Standing.addImport (ha : a.Standing) (module name : String) :
    ∃ index b, Assembler.addImport module name a = .ok index b ∧
      (Command.addImport module name).run a = .ok () b ∧
      b.current.imports[index]? =
        some { module := b.strings.ref module, name := b.strings.ref name } ∧
      module ∈ b.strings.toList ∧ name ∈ b.strings.toList := by
  refine ⟨_, _, addImport_run module name a, ?_, ?_, ?_, ?_⟩
  · rw [Command.run, discard_run, addImport_run]
  · rw [current_eq ((ha.withStrings ((a.strings.intern module).2.intern name).2).edit _)]
    change _ = some (Import.mk (((a.strings.intern module).2.intern name).2.ref module)
      (((a.strings.intern module).2.intern name).2.ref name))
    rw [ref_intern_intern, StringTable.ref_intern_self]
    exact Array.getElem?_push_size
  · exact (StringTable.prefix_intern name _).subset (StringTable.mem_intern module a.strings)
  · exact StringTable.mem_intern name _

/-! ### Commands that move the cursor -/

theorem push_run (a : Assembler) : push a =
    if a.depth < maxNesting then .ok a.current.nested.length
      { a.edit Draft.extend with cursor := a.cursor ++ [a.current.nested.length] }
    else .error (.nestingTooDeep maxNesting) a := by
  change EStateM.bind requireDepth _ a = _
  unfold EStateM.bind
  rw [requireDepth_run]
  by_cases hdepth : a.depth < maxNesting
  · rw [if_pos hdepth, if_neg (Nat.not_le.2 hdepth)]
    rfl
  · rw [if_neg hdepth, if_pos (Nat.not_lt.1 hdepth)]

theorem pop_run (a : Assembler) : pop a =
    match a.cursor.getLast? with
    | some index => .ok index { a with cursor := a.cursor.dropLast }
    | none => .error .atRoot a := by
  have hget : (EStateM.get : Action Assembler) a = .ok a a := rfl
  unfold pop
  simp only [bind, EStateM.bind, get, getThe, MonadStateOf.get, hget]
  cases a.cursor.getLast? <;> rfl

theorem open_run (index : Nat) (a : Assembler) : «open» index a =
    if maxNesting ≤ a.depth then .error (.nestingTooDeep maxNesting) a
    else if index < a.current.nested.length then .ok () { a with cursor := a.cursor ++ [index] }
    else .error (.noSuchPrototype index) a := by
  change EStateM.bind requireDepth _ a = _
  unfold EStateM.bind
  rw [requireDepth_run]
  by_cases hdepth : maxNesting ≤ a.depth
  · rw [if_pos hdepth, if_pos hdepth]
  · rw [if_neg hdepth, if_neg hdepth]
    change (if a.current.nested.length ≤ index then _ else _ : Action Unit) a = _
    by_cases hindex : index < a.current.nested.length
    · rw [if_pos hindex, if_neg (Nat.not_le.2 hindex)]
      rfl
    · rw [if_neg hindex, if_pos (Nat.not_lt.1 hindex)]
      rfl

theorem pushNamed_run (symbol : String) (a : Assembler) : pushNamed symbol a =
    match push a with
    | .ok index b => .ok index ((Command.setSymbol symbol).run.after b)
    | .error fault b => .error fault b := by
  change EStateM.bind push _ a = _
  unfold EStateM.bind
  cases push a <;> rfl

theorem Standing.pushed (ha : a.Standing) :
    Pushed a.current.nested.length a
      { a.edit Draft.extend with cursor := a.cursor ++ [a.current.nested.length] } := by
  refine ⟨rfl, rfl, ?_, fun path hne => ?_, rfl⟩
  · change (a.edit Draft.extend).root.at? (a.cursor ++ [_]) = _
    rw [Draft.at?_append_singleton (ha.edit _), Draft.extend, List.getElem?_concat_length]
  · exact Draft.own_at?_modifyAt_extend ha.current hne

/-- A step down the path that the cursor has gone is taken back. -/
theorem Standing.pop (ha : a.Standing) (hlast : a.cursor.getLast? = some index) :
    Standing { a with cursor := a.cursor.dropLast } := by
  obtain ⟨path, hpath⟩ := List.getLast?_eq_some_iff.1 hlast
  obtain ⟨d, hat⟩ := ha
  rw [hpath, Draft.at?_append] at hat
  -- The path without its last step leads to the draft in which that step is taken.
  obtain ⟨parent, hparent, -⟩ := Option.bind_eq_some_iff.1 hat
  refine ⟨parent, ?_⟩
  change a.root.at? a.cursor.dropLast = some parent
  rw [hpath, List.dropLast_concat, hparent]

theorem Standing.open (ha : a.Standing) (hindex : index < a.current.nested.length) :
    Standing { a with cursor := a.cursor ++ [index] } := by
  refine ⟨a.current.nested[index], ?_⟩
  change a.root.at? (a.cursor ++ [index]) = _
  rw [Draft.at?_append_singleton ha.current, List.getElem?_eq_getElem hindex]

/-! ### All commands -/

/-- A command that moves the cursor moves it to a draft, or fails and leaves everything as it is. -/
theorem Standing.move (ha : a.Standing) (hmoves : c.Moves) :
    (∃ b, c.run a = .ok () b ∧ b.Standing) ∨ ∃ fault, c.run a = .error fault a := by
  cases c with
  | push =>
    rw [Command.run, discard_run, push_run]
    by_cases hdepth : a.depth < maxNesting
    · rw [if_pos hdepth]
      exact .inl ⟨_, rfl, _, ha.pushed.blank⟩
    · rw [if_neg hdepth]
      exact .inr ⟨_, rfl⟩
  | pushNamed symbol =>
    rw [Command.run, discard_run, pushNamed_run, push_run]
    by_cases hdepth : a.depth < maxNesting
    · rw [if_pos hdepth]
      -- The draft that was pushed is under the cursor, so naming it is an edit like others.
      have hb : Standing { a.edit Draft.extend with
        cursor := a.cursor ++ [a.current.nested.length] } := ⟨_, ha.pushed.blank⟩
      exact .inl ⟨_, rfl, _, hb.edit _⟩
    · rw [if_neg hdepth]
      exact .inr ⟨_, rfl⟩
  | pop =>
    rw [Command.run, discard_run, pop_run]
    cases hlast : a.cursor.getLast? with
    | some index => exact .inl ⟨_, rfl, ha.pop hlast⟩
    | none => exact .inr ⟨_, rfl⟩
  | «open» index =>
    rw [Command.run, open_run]
    by_cases hdepth : maxNesting ≤ a.depth
    · rw [if_pos hdepth]
      exact .inr ⟨_, rfl⟩
    · rw [if_neg hdepth]
      by_cases hindex : index < a.current.nested.length
      · rw [if_pos hindex]
        exact .inl ⟨_, rfl, ha.open hindex⟩
      · rw [if_neg hindex]
        exact .inr ⟨_, rfl⟩
  | _ => exact False.elim hmoves

theorem Standing.after (ha : a.Standing) (c : Command) : (c.run.after a).Standing := by
  unfold Action.after
  by_cases hmoves : c.Moves
  · obtain ⟨b, hrun, hb⟩ | ⟨fault, hrun⟩ := ha.move hmoves
    · rwa [hrun]
    · rwa [hrun]
  · obtain ⟨b, hrun, hedited⟩ := ha.run hmoves
    rw [hrun]
    exact ⟨_, hedited.current⟩

theorem Standing.eq_of_error (ha : a.Standing) {fault : AssemblyFault}
    (herror : c.run a = .error fault b) : b = a := by
  by_cases hmoves : c.Moves
  · obtain ⟨_, hrun, -⟩ | ⟨_, hrun⟩ := ha.move hmoves
    · rw [hrun] at herror
      cases herror
    · rw [hrun] at herror
      cases herror
      rfl
  · obtain ⟨_, hrun, -⟩ := ha.run hmoves
    rw [hrun] at herror
    cases herror

theorem standing_of_built (hbuilt : Built a) : a.Standing := by
  induction hbuilt with
  | blank => exact ⟨.blank, rfl⟩
  | loaded hload =>
    obtain ⟨_, root, -, rfl⟩ := exists_of_load hload
    exact ⟨root, rfl⟩
  | next c _ ih => exact ih.after c

/-- However a module came about, by commands that succeeded or failed, from the blank module or from
one that was loaded: the cursor leads to a draft, neither it nor the drafts are too deep, so that
what is saved can be loaded; a command that fails changes nothing, the four that move the cursor do
no more than that, but for the blank draft that a push leaves below the current one, and all others
change the draft under the cursor only and answer where they put what they were given. -/
theorem orderly_of_built (hbuilt : Built a) : Orderly a := by
  have hregular := regular_of_built hbuilt
  have hstanding := standing_of_built hbuilt
  refine {
    standing := hstanding.current
    depth := hregular.depth
    height := hregular.height
    loads := fun hsize => ⟨_, load_save_of_wellFormed hregular.head hregular.height hsize⟩
    failed := fun c fault b herror => hstanding.eq_of_error herror
    pushed := ?_
    named := fun symbol => pushNamed_run symbol a
    popped := pop_run a
    opened := fun index => open_run index a
    edited := fun c hmoves => hstanding.run hmoves
    emitted := fun i => ?_
    constant := fun c => ?_
    imported := fun module name => ?_
    interned := fun s => ?_
    denotes := fun hsize s hmem => StringTable.get?_ref hmem hsize }
  · -- The other commands have specs of their own. A push may fail, and only its success is left to
    -- tell.
    rw [push_run]
    by_cases hdepth : a.depth < maxNesting
    · rw [if_pos hdepth, if_pos hdepth]
      exact ⟨_, _, rfl, hstanding.pushed⟩
    · rw [if_neg hdepth, if_neg hdepth]
  · refine ⟨_, _, rfl, rfl, ?_⟩
    rw [current_eq (hstanding.edit _)]
    exact Array.getElem?_push_size
  · refine ⟨_, _, rfl, rfl, ?_⟩
    rw [current_eq (hstanding.edit _)]
    exact Array.getElem?_push_size
  · exact hstanding.addImport module name
  · refine ⟨{ a with strings := (a.strings.intern s).2 }, ?_, rfl, ?_⟩
    · rw [StringTable.ref_intern_self]
      rfl
    · exact StringTable.mem_intern s a.strings

/-- A nested draft that was left and opened again, after one was asked for that is not there. -/
def revisited : Assembler :=
  [Command.pushNamed "inner", .pop, .pop, .open 7, .open 0, .push, .setLocals 2, .pop,
    .addImport "m" "n"].foldl (fun a c => c.run.after a) blank

/-- The cursor is back on the draft that was made first, above the one that has local variables. -/
theorem orderly_of_built_revisited :
    Built revisited ∧ Orderly revisited ∧ revisited.cursor = [0] ∧
      revisited.save.length ≤ Capacity.maxWord ∧ revisited.current.nested.length = 1 := by
  have hbuilt : Built revisited := Built.blank.foldl _
  exact ⟨hbuilt, orderly_of_built hbuilt, rfl, by decide +kernel, rfl⟩

end Assembler

end ActorMachine
