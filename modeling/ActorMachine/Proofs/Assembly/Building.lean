import ActorMachine.Assembly.Resolve
import ActorMachine.Proofs.Chunk.Reading

/-!
# Modules that can be built

What comes about from the blank module, or from one that was loaded, by commands to the assembler.

* `Command`, `Built`: the commands, and the modules that come about by them in any order.
* `regular_of_built`: in all of them reference zero is the empty string, and neither the drafts nor
  the cursor are below the deepest level.
* `load_save_of_built`: so each of them can be saved and loaded again, wherever the cursor stands.
-/

namespace ActorMachine

namespace Draft

variable {change : Draft → Draft} {levels : Nat} {ds : List Draft}

/-- A change at the end of a path reaches no deeper than the draft, or than the path and the change
together. -/
theorem height_modifyAt_le (hchange : ∀ d, (change d).height ≤ max d.height levels)
    (path : List Nat) (d : Draft) :
    (d.modifyAt change path).height ≤ max d.height (path.length + levels) := by
  induction path generalizing d with
  | nil => simpa [modifyAt] using hchange d
  | cons index path ih =>
    -- The draft at the index is the only one that differs, and the path from there is shorter.
    rw [modifyAt, height_eq, heightAll_le_iff]
    intro child hmem
    obtain ⟨i, hi⟩ := List.mem_iff_getElem?.1 hmem
    obtain ⟨old, hold, rfl⟩ := Option.map_eq_some_iff.1 (List.getElem?_modify .. ▸ hi)
    have hlt : old.height < d.height := height_lt_of_mem (List.mem_of_getElem? hold)
    rw [List.length_cons]
    split
    · have := ih old
      omega
    · omega

theorem height_blank : blank.height = 0 := by
  rw [height_eq]
  rfl

/-- A draft that is put behind the nested ones adds a level at most. -/
theorem height_append_blank_le (d : Draft) :
    ({ d with nested := d.nested ++ [blank] } : Draft).height ≤ max d.height 1 := by
  rw [height_eq, heightAll_le_iff]
  intro child hmem
  rcases List.mem_append.1 hmem with hmem | hmem
  · have := height_lt_of_mem hmem
    omega
  · rw [List.mem_singleton.1 hmem, height_blank]
    omega

end Draft

namespace Assembler

variable {a : Assembler} {α β : Type}

/-! ### Commands -/

/-- Something that can be asked of an assembler. -/
inductive Command
  /-- A nested draft is made and moved to. -/
  | push
  /-- A nested draft is made, moved to and named. -/
  | pushNamed (symbol : String)
  /-- The cursor moves to the parent. -/
  | pop
  /-- The cursor moves to a nested draft. -/
  | «open» (index : Nat)
  /-- An instruction is appended. -/
  | emit (i : Instruction)
  /-- A constant is appended, whatever its reference. -/
  | addConstant (c : Constant StringRef)
  /-- An import is appended. -/
  | addImport (module name : String)
  /-- A text is taken into the table. -/
  | intern (s : String)
  /-- The exported name is set. -/
  | setSymbol (s : String)
  /-- It is set where the code was written. -/
  | setSource (s : String)
  /-- The number of captured variables is set. -/
  | setUpvalues (upvalues : UInt8)
  /-- The number of arguments is set. -/
  | setArguments (arguments : UInt8)
  /-- The number of local variables is set. -/
  | setLocals (locals : UInt8)

/-- The module after an action, whether that has failed or not. -/
def Action.after (act : Action α) (a : Assembler) : Assembler :=
  match act a with
  | .ok _ b => b
  | .error _ b => b

theorem after_bind (act : Action α) (f : α → Action β) (a : Assembler) :
    Action.after (act >>= f) a =
      match act a with
      | .ok r b => (f r).after b
      | .error _ b => b := by
  change (match EStateM.bind act f a with | .ok _ b => b | .error _ b => b) = _
  unfold EStateM.bind
  cases act a <;> rfl

namespace Command

/-- The action that a command is, without its answer. -/
def run : Command → Action Unit
  | push => discard Assembler.push
  | pushNamed symbol => discard (Assembler.pushNamed symbol)
  | pop => discard Assembler.pop
  | «open» index => Assembler.open index
  | emit i => discard (Assembler.emit i)
  | addConstant c => discard (Assembler.addConstant c)
  | addImport module name => discard (Assembler.addImport module name)
  | intern s => discard (Assembler.intern s)
  | setSymbol s => Assembler.setSymbol s
  | setSource s => Assembler.setSource s
  | setUpvalues upvalues => Assembler.setUpvalues upvalues
  | setArguments arguments => Assembler.setArguments arguments
  | setLocals locals => Assembler.setLocals locals

end Command

/-- The modules that come about by commands in any order. -/
inductive Built : Assembler → Prop
  /-- Nothing is set. -/
  | blank : Built blank
  /-- It was loaded. -/
  | loaded {bytes : Wire.Bytes} {a : Assembler} (load : load bytes = .ok a) : Built a
  /-- Something was done. -/
  | next {a : Assembler} (c : Command) (before : Built a) : Built (c.run.after a)

/-- Several commands lead from a module that can be built to another one. -/
theorem Built.foldl (hbuilt : Built a) (cs : List Command) :
    Built (cs.foldl (fun a c => c.run.after a) a) := by
  induction cs generalizing a with
  | nil => exact hbuilt
  | cons c cs ih => exact ih (.next c hbuilt)

/-! ### What all modules have in common -/

/-- Reference zero is the empty string, and nothing is below the deepest level. -/
structure Regular (a : Assembler) : Prop where
  /-- The table begins with the empty string. -/
  head : a.strings.toList.head? = some ""
  /-- The drafts are not nested too deep. -/
  height : a.root.height ≤ maxNesting
  /-- Nor is the cursor. -/
  depth : a.depth ≤ maxNesting

/-- Whether an action fails or not, a regular module remains so. -/
def Keeps (act : Action α) : Prop :=
  ∀ a, a.Regular → (act.after a).Regular

theorem Keeps.bind {act : Action α} {f : α → Action β} (hact : Keeps act)
    (hf : ∀ r, Keeps (f r)) : Keeps (act >>= f) := by
  intro a ha
  have hb := hact a ha
  rw [Action.after] at hb
  rw [after_bind]
  cases hresult : act a with
  | ok r b =>
    rw [hresult] at hb
    exact hf r b hb
  | error fault b =>
    rw [hresult] at hb
    exact hb

theorem keeps_pure (r : α) : Keeps (pure r) := fun _ ha => ha

theorem keeps_get : Keeps get := fun _ ha => ha

theorem Keeps.discard {act : Action α} (hact : Keeps act) : Keeps (discard act) :=
  hact.bind fun _ => keeps_pure _

theorem requireDepth_run (a : Assembler) :
    requireDepth a =
      if maxNesting ≤ a.depth then .error (.nestingTooDeep maxNesting) a else .ok () a := by
  change (if maxNesting ≤ a.depth then throw _ else pure () : Action Unit) a = _
  split <;> rfl

/-- What follows only has to keep modules whose cursor can go deeper. -/
theorem Keeps.requireDepth_bind {f : Unit → Action α}
    (hf : ∀ a, a.Regular → a.depth < maxNesting → ((f ()).after a).Regular) :
    Keeps (requireDepth >>= f) := by
  intro a ha
  rw [after_bind, requireDepth_run]
  by_cases hdepth : maxNesting ≤ a.depth
  · rw [if_pos hdepth]
    exact ha
  · rw [if_neg hdepth]
    exact hf a ha (Nat.lt_of_not_le hdepth)

/-! ### One command -/

/-- Texts are only taken in behind those that are there. -/
theorem keeps_intern (s : String) : Keeps (intern s) := by
  intro a ha
  refine ⟨?_, ha.height, ha.depth⟩
  change (a.strings.intern s).2.toList.head? = _
  rw [StringTable.intern]
  split
  next => exact ha.head
  next =>
    change (a.strings.texts.push s).toList.head? = _
    rw [Array.toList_push]
    obtain ⟨rest, hrest⟩ := List.head?_eq_some_iff.1 ha.head
    change a.strings.texts.toList = "" :: rest at hrest
    rw [hrest]
    rfl

/-- A change that nests nothing deeper. -/
theorem keeps_edit {change : Draft → Draft} (hchange : ∀ d, (change d).nested = d.nested) :
    Keeps (modify (edit change)) := by
  intro a ha
  refine ⟨ha.head, ?_, ha.depth⟩
  have hle : (a.root.modifyAt change a.cursor).height ≤ max a.root.height (a.depth + 0) := by
    refine Draft.height_modifyAt_le (fun d => ?_) a.cursor a.root
    rw [Draft.height_eq, hchange, ← Draft.height_eq]
    exact Nat.le_max_left ..
  exact Nat.le_trans hle (Nat.max_le.2 ⟨ha.height, ha.depth⟩)

/-- Something is put behind what is there, and its index is answered. -/
theorem keeps_append {change : Draft → Draft} (hchange : ∀ d, (change d).nested = d.nested)
    (index : Assembler → Nat) :
    Keeps (do let before ← get; modify (edit change); return index before) :=
  keeps_get.bind fun _ => (keeps_edit hchange).bind fun _ => keeps_pure _

theorem keeps_setSymbol (s : String) : Keeps (setSymbol s) :=
  (keeps_intern s).bind fun _ => keeps_edit fun _ => rfl

/-- The cursor takes the last level that is left. -/
theorem length_append_le {path : List Nat} (hpath : path.length < maxNesting) (index : Nat) :
    (path ++ [index]).length ≤ maxNesting := by
  rw [List.length_append]
  exact hpath

theorem keeps_push : Keeps push := by
  refine Keeps.requireDepth_bind fun a ha hdepth => ⟨ha.head, ?_, length_append_le hdepth _⟩
  -- The cursor is above the deepest level, so there is one left for the draft that is made.
  have hle := Draft.height_modifyAt_le Draft.height_append_blank_le a.cursor a.root
  exact Nat.le_trans hle (Nat.max_le.2 ⟨ha.height, hdepth⟩)

theorem keeps_open (index : Nat) : Keeps («open» index) := by
  refine Keeps.requireDepth_bind fun a ha hdepth => ?_
  change (Action.after (if a.current.nested.length ≤ index then _ else _) a).Regular
  split
  · exact ha
  · exact ⟨ha.head, ha.height, length_append_le hdepth index⟩

theorem keeps_pop : Keeps pop := by
  refine keeps_get.bind fun b => ?_
  split
  next =>
    refine Keeps.bind (fun a ha => ⟨ha.head, ha.height, ?_⟩) fun _ => keeps_pure _
    change a.cursor.dropLast.length ≤ _
    rw [List.length_dropLast]
    exact Nat.le_trans (Nat.sub_le ..) ha.depth
  next => exact fun _ ha => ha

/-- Every command keeps a regular module so, whether it fails or not. -/
theorem keeps_run (c : Command) : Keeps c.run := by
  cases c with
  | push => exact keeps_push.discard
  | pushNamed symbol =>
    exact (keeps_push.bind fun _ => (keeps_setSymbol symbol).bind fun _ => keeps_pure _).discard
  | pop => exact keeps_pop.discard
  | «open» index => exact keeps_open index
  | emit i => exact Keeps.discard (keeps_append (fun _ => by rfl) _)
  | addConstant c => exact Keeps.discard (keeps_append (fun _ => by rfl) _)
  | addImport module name =>
    refine Keeps.discard ((keeps_intern module).bind fun _ => (keeps_intern name).bind fun _ => ?_)
    exact keeps_append (fun _ => by rfl) _
  | intern s => exact (keeps_intern s).discard
  | setSymbol s => exact keeps_setSymbol s
  | setSource s => exact (keeps_intern s).bind fun _ => keeps_edit fun _ => rfl
  | setUpvalues | setArguments | setLocals => exact keeps_edit fun _ => rfl

/-! ### All commands -/

/-- What is loaded has passed the checks, and its cursor is at the root. -/
theorem exists_of_load {bytes : Wire.Bytes} (hload : load bytes = .ok a) :
    ∃ texts root, root.height ≤ maxNesting ∧ a = { strings := .ofList texts, root, cursor := [] } := by
  -- The checks follow in their order. What fails one of them is not loaded.
  simp only [load, bind, Except.bind, throw, throwThe, MonadExceptOf.throw] at hload
  split at hload
  · cases hload
  split at hload
  · cases hload
  split at hload
  · cases hload
  split at hload
  · cases hload
  next _ texts root _ _ =>
  split at hload
  · cases hload
  next hheight =>
  rw [Draft.nestingDepth_eq_height] at hheight
  cases hload
  exact ⟨texts, root, Nat.le_of_not_lt hheight, rfl⟩

/-- What is loaded begins with the empty string and is not nested too deep. -/
theorem regular_of_load {bytes : Wire.Bytes} (hload : load bytes = .ok a) : a.Regular := by
  obtain ⟨texts, root, hheight, rfl⟩ := exists_of_load hload
  exact ⟨StringTable.head?_ofList texts, hheight, Nat.zero_le _⟩

theorem regular_blank : blank.Regular := by
  refine ⟨rfl, ?_, Nat.zero_le _⟩
  change Draft.blank.height ≤ maxNesting
  rw [Draft.height_blank]
  exact Nat.zero_le _

/-- In every module that can be built, reference zero is the empty string and nothing is below the
deepest level. -/
theorem regular_of_built (hbuilt : Built a) : a.Regular := by
  induction hbuilt with
  | blank => exact regular_blank
  | loaded hload => exact regular_of_load hload
  | next c _ ih => exact keeps_run c _ ih

/-- Every module that can be built is saved in a form that is loaded again as the same texts and
the same drafts, the bits of reals included, with the cursor at the root wherever it was. So it
resolves as before, or fails as before. The bytes of a chunk can be counted in a word, as those of
everything that memory holds. -/
theorem load_save_of_built (hbuilt : Built a) (hsize : a.save.length ≤ Capacity.maxWord)
    (cursor : List Nat) :
    ∃ b, load { a with cursor }.save = .ok b ∧ b.strings.toList = a.strings.toList ∧
      b.root = a.root ∧ b.cursor = [] ∧ b.resolveModule = a.resolveModule := by
  have hregular := regular_of_built hbuilt
  have hload := load_save_of_wellFormed hregular.head hregular.height hsize
  exact ⟨{ a with cursor := [] }, hload, rfl, rfl, rfl, rfl⟩

/-- A function below the root that has a NaN, and a reference at the root that denotes no text.
There is no nested draft for the sixth of the commands. -/
def flawed : Assembler :=
  [Command.setSymbol "outer", .addConstant (.text ⟨99⟩), .pushNamed "inner",
    .addConstant (.real ⟨0x7ff8000000000001⟩), .emit .ret, .open 3,
    .addImport "m" "n"].foldl (fun a c => c.run.after a) blank

/-- The flaw is found again in the module that was loaded. -/
theorem load_save_of_built_flawed :
    Built flawed ∧ flawed.save.length ≤ Capacity.maxWord ∧ flawed.cursor = [0] ∧
      ∃ b, load flawed.save = .ok b ∧ b.strings.toList = ["", "outer", "inner", "m", "n"] ∧
        b.root = flawed.root ∧ b.cursor = [] ∧
        b.resolveModule = .error (.badStringRef ⟨99⟩) := by
  have hbuilt : Built flawed := Built.blank.foldl _
  have hsize : flawed.save.length ≤ Capacity.maxWord := by decide +kernel
  obtain ⟨b, hload, htexts, hroot, hcursor, hresolve⟩ := load_save_of_built hbuilt hsize [0]
  refine ⟨hbuilt, hsize, rfl, b, hload, ?_, hroot, hcursor, ?_⟩
  · rw [htexts]
    rfl
  · -- The constants of the root are resolved first, so nothing else has to be known.
    have hroot : flawed.root = { Draft.blank with
        symbol := ⟨1⟩, constants := #[.text ⟨99⟩], nested := flawed.root.nested } := rfl
    have htable : flawed.strings = ⟨#["", "outer", "inner", "m", "n"]⟩ := rfl
    rw [hresolve, resolveModule, hroot, htable]
    simp [Draft.blank, Draft.resolve, StringTable.resolveConstant, StringTable.text,
      StringTable.get?]
    rfl

end Assembler

end ActorMachine
