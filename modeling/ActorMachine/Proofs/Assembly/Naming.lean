import ActorMachine.Proofs.Assembly.Interning
import ActorMachine.Proofs.Assembly.Resolving

/-!
# Reference zero

Reference zero is the empty string, and where a text may be missing it stands for no text. The empty
string itself has this reference unless the table was made of a list that has it behind the first
text: then it is found there, and a text that is set to it is not missing.

* `intern_eq_empty_iff`: which texts have the reference zero.
* `empty_mem_tail_internAll`: it is only the list that a table was made of that can have the empty
  string in a second place.
* `Mark`: the two texts of a draft that may be missing.
* `exists_internAll_of_built`: where the table of a module comes from.
* `Marked`: what a mark resolves to after it was set, and that it is never the mark that keeps a
  draft from being resolved.
* `empty_iff_and_marked`: all tables, and all modules that can be built.
* `not_reserved`: the list by which the empty string gets another reference.
-/

namespace ActorMachine

namespace StringTable

variable {s : String} {t : StringTable}

/-! ### The reference of the empty string -/

theorem get?_empty (hhead : t.toList.head? = some "") : t.get? .empty = some "" := by
  obtain ⟨rest, hrest⟩ := List.head?_eq_some_iff.1 hhead
  unfold get?
  rw [← Array.getElem?_toList]
  show t.toList[_]? = _
  rw [hrest]
  rfl

/-- A position is that of reference zero only if it is zero, as long as references have enough
bits. -/
theorem ofNat_eq_empty_iff {i : Nat} (hlt : i < UInt32.size) :
    (⟨UInt32.ofNat i⟩ : StringRef) = .empty ↔ i = 0 := by
  constructor
  · intro heq
    have hzero : UInt32.ofNat i = 0 := congrArg StringRef.index heq
    rw [← UInt32.toNat_ofNat_of_lt' hlt, hzero]
    rfl
  · rintro rfl
    rfl

/-- The empty string has the reference zero if it is only there in front, and no other text has. -/
theorem intern_eq_empty_iff (hhead : t.toList.head? = some "")
    (hsize : (t.intern s).2.size ≤ UInt32.size) :
    (t.intern s).1 = .empty ↔ s = "" ∧ "" ∉ t.toList.tail := by
  obtain ⟨rest, hrest⟩ := List.head?_eq_some_iff.1 hhead
  have hpos : 0 < t.size := by
    rw [size_eq_length, hrest]
    exact Nat.succ_pos _
  rw [hrest, List.tail_cons]
  unfold intern at hsize ⊢
  rw [hrest, lastIndex?] at hsize ⊢
  cases hlast : lastIndex? s rest with
  | some i =>
    -- A text that is found behind the front has another reference.
    have hlt : i < rest.length := (List.getElem?_eq_some_iff.1 (getElem?_lastIndex? hlast)).1
    have hmem : s ∈ rest := List.mem_of_getElem? (getElem?_lastIndex? hlast)
    simp only [hlast] at hsize ⊢
    rw [size_eq_length, hrest, List.length_cons] at hsize
    rw [ofNat_eq_empty_iff (by omega)]
    constructor
    · exact fun h => absurd h (Nat.succ_ne_zero i)
    · rintro ⟨rfl, hnot⟩
      exact absurd hmem hnot
  | none =>
    have hnot : s ∉ rest := lastIndex?_eq_none_iff.1 hlast
    by_cases hs : "" = s
    · subst hs
      simp [hnot]
      rfl
    · -- A text that is not there is put behind at least one other.
      simp only [hlast, if_neg hs] at hsize ⊢
      have hpush : t.size + 1 ≤ UInt32.size := by simpa [size] using hsize
      rw [ofNat_eq_empty_iff hpush]
      exact ⟨fun h => absurd h (Nat.ne_of_gt hpos), fun h => absurd h.1.symm hs⟩

/-- Taking in texts does not bring the empty string to a second place, and the list that a table is
made of has it there unless it has it in front only. -/
theorem empty_mem_tail_internAll (texts ss : List String) :
    "" ∈ ((ofList texts).internAll ss).toList.tail ↔ "" ∈ texts.tail := by
  have hmade : "" ∈ (ofList texts).toList.tail ↔ "" ∈ texts.tail := by
    unfold ofList
    split
    next => rfl
    next hfront =>
      cases texts with
      | nil => simp [toList]
      | cons text texts =>
        have hne : "" ≠ text := fun heq => hfront texts (by rw [← heq])
        simp [toList, hne]
  rw [← hmade]
  have hhead := head?_ofList texts
  generalize ofList texts = t at hhead
  -- The empty string stays in front, so it is known whenever a text is taken in.
  induction ss generalizing t with
  | nil => rfl
  | cons s ss ih =>
    have hhead' : (t.intern s).2.toList.head? = some "" := head?_internAll hhead [s]
    refine (ih _ hhead').trans ?_
    rw [toList_intern]
    split
    next => rfl
    next hnot =>
      obtain ⟨rest, hrest⟩ := List.head?_eq_some_iff.1 hhead
      have hne : "" ≠ s := by
        rintro rfl
        exact hnot (by simp [hrest])
      simp [hrest, hne]

end StringTable

/-! ### Places in a prototype -/

/-- The prototype that a path leads to. -/
def Prototype.at? (p : Prototype) : List Nat → Option Prototype
  | [] => some p
  | index :: path =>
    match p.nested[index]? with
    | some child => child.at? path
    | none => none

namespace Draft

variable {d child : Draft} {path : List Nat}

theorem spelledAll_eq_map (text : StringRef → String) (ds : List Draft) :
    spelledAll text ds = ds.map (spelled text) := by
  induction ds with
  | nil => rfl
  | cons d ds ih => rw [spelledAll, ih, List.map_cons]

theorem spelled_eq (text : StringRef → String) (d : Draft) :
    d.spelled text =
      { symbol := d.symbol.spelled text, source := d.source.spelled text, upvalues := d.upvalues,
        arguments := d.arguments, locals := d.locals, code := d.code,
        constants := d.constants.map (.map text), imports := d.imports.map (.map text),
        nested := d.nested.map (spelled text) } := by
  obtain ⟨source, symbol, upvalues, arguments, locals, code, constants, imports, nested⟩ := d
  rw [spelled, spelledAll_eq_map]

/-- Each draft is found spelled in its place. -/
theorem at?_spelled (text : StringRef → String) (hat : d.at? path = some child) :
    (d.spelled text).at? path = some (child.spelled text) := by
  induction path generalizing d with
  | nil =>
    obtain rfl := Option.some.inj hat
    rfl
  | cons index path ih =>
    rw [at?_cons] at hat
    obtain ⟨between, hbetween, hrest⟩ := Option.bind_eq_some_iff.1 hat
    rw [Prototype.at?, spelled_eq]
    simp only [List.getElem?_map, hbetween, Option.map_some]
    exact ih hrest

/-! ### Marks -/

/-- The two texts of a draft that may be missing. -/
inductive Mark
  /-- The exported name. -/
  | symbol
  /-- Where the code was written. -/
  | source

namespace Mark

/-- The draft with the mark set to a reference. -/
def write (r : StringRef) : Mark → Draft → Draft
  | symbol, d => { d with symbol := r }
  | source, d => { d with source := r }

/-- The text of the mark in a prototype, if it is not missing. -/
def read : Mark → Prototype → Option String
  | symbol, p => p.symbol
  | source, p => p.source

/-- The command by which the mark is set. -/
def command (s : String) : Mark → Assembler.Command
  | symbol => .setSymbol s
  | source => .setSource s

theorem read_spelled (m : Mark) (text : StringRef → String) (r : StringRef) (d : Draft) :
    m.read ((m.write r d).spelled text) = r.spelled text := by
  cases m <;> rw [spelled_eq] <;> rfl

/-- The references of a draft are the one of the mark, if it is not missing, and the others. -/
theorem forall_references_write {holds : StringRef → Prop} (m : Mark) (r : StringRef) (d : Draft) :
    (∀ r' ∈ (m.write r d).references, holds r') ↔
      (∀ r' ∈ (m.write .empty d).references, holds r') ∧ ∀ r' ∈ r.present, holds r' := by
  have hnone : StringRef.empty.present = [] := rfl
  obtain ⟨source, symbol, upvalues, arguments, locals, code, constants, imports, nested⟩ := d
  cases m with
  | symbol =>
    simp only [write, references, List.mem_append, or_imp, forall_and, hnone, List.not_mem_nil,
      false_implies, true_and]
    tauto
  | source =>
    simp only [write, references, List.mem_append, or_imp, forall_and, hnone, List.not_mem_nil,
      false_implies, and_true]
    tauto

end Mark

end Draft

namespace Assembler

open Draft (Mark)

variable {a : Assembler}

/-- The text that is kept of one that a mark is set to: none if that is the empty string, unless the
table has the empty string in a second place. -/
def kept (a : Assembler) (s : String) : Option String :=
  if s = "" ∧ "" ∉ a.strings.toList.tail then none else some s

/-- A mark was set to a text. -/
structure Marked (m : Mark) (s : String) (a b : Assembler) : Prop where
  /-- The command succeeds. -/
  run : (m.command s).run a = .ok () b
  /-- The draft resolves if all its other references denote texts. -/
  resolves : (∃ p, b.resolve = .ok p) ↔
    ∀ r ∈ (m.write .empty a.current).references, r.index.toNat < b.strings.size
  /-- The mark is then what is kept of the text. -/
  read : ∀ p, b.resolve = .ok p → m.read p = a.kept s
  /-- It is so in the place of the draft if the whole module is resolved. -/
  within : ∀ q, b.resolveModule = .ok q →
    ∃ p, q.at? a.cursor = some p ∧ m.read p = a.kept s

/-- The module after a mark was set. -/
def mark (m : Mark) (s : String) (a : Assembler) : Assembler :=
  edit (m.write (a.strings.ref s)) { a with strings := (a.strings.intern s).2 }

theorem command_run (m : Mark) (s : String) (a : Assembler) :
    (m.command s).run a = .ok () (a.mark m s) := by
  cases m with
  | symbol => exact setSymbol_run s a
  | source => exact setSource_run s a

/-- The cursor leads to the draft whose mark was set. -/
theorem Standing.mark (ha : a.Standing) (m : Mark) (s : String) :
    (a.mark m s).root.at? a.cursor = some (m.write (a.strings.ref s) a.current) :=
  (ha.withStrings (a.strings.intern s).2).edit _

/-- What the reference to the text stands for is what is kept of the text. -/
theorem spelled_ref (hhead : a.strings.toList.head? = some "") {s : String}
    (hsize : (a.strings.intern s).2.size ≤ UInt32.size) :
    (a.strings.ref s).spelled (a.strings.intern s).2.denoted = a.kept s := by
  unfold StringRef.spelled kept StringTable.ref
  simp only [StringTable.intern_eq_empty_iff hhead hsize]
  unfold StringTable.denoted
  rw [StringTable.get?_intern s hsize, Option.getD_some]

/-- Setting a mark of the current draft. -/
theorem Regular.marked (hregular : a.Regular) (ha : a.Standing) (m : Mark) {s : String}
    (hsize : (a.strings.intern s).2.size ≤ UInt32.size) : Marked m s a (a.mark m s) := by
  have hspelled := spelled_ref hregular.head hsize
  -- What is under the cursor afterwards is the draft with its mark written.
  have hcurrent : (a.mark m s).current = m.write (a.strings.ref s) a.current :=
    current_eq (ha.mark m s)
  refine ⟨command_run m s a, ?_, fun p hp => ?_, fun q hq => ?_⟩
  · -- The reference of the mark denotes the text that was taken in, so only the others matter.
    have hpresent : ∀ r ∈ (a.strings.ref s).present, r.index.toNat < (a.mark m s).strings.size := by
      intro r hr
      obtain rfl : r = a.strings.ref s := by
        unfold StringRef.present at hr
        split at hr <;> simp_all
      have hget := StringTable.get?_intern s hsize
      exact (Array.getElem?_eq_some_iff.1 hget).1
    rw [resolve, (Draft.resolvesExactly _ _).succeeds, hcurrent, Mark.forall_references_write]
    exact and_iff_left hpresent
  · rw [(Draft.resolvesExactly _ _).spelled p hp, hcurrent, Mark.read_spelled]
    exact hspelled
  · refine ⟨_, ?_, (m.read_spelled _ (a.strings.ref s) a.current).trans hspelled⟩
    rw [(Draft.resolvesExactly _ _).spelled q hq]
    exact Draft.at?_spelled _ (ha.mark m s)

/-- All that a command does to the table is to take in texts, if it does anything. -/
theorem exists_internAll_after (c : Command) (a : Assembler) :
    ∃ ss, (c.run.after a).strings = a.strings.internAll ss := by
  cases c with
  | emit | addConstant | setUpvalues | setArguments | setLocals => exact ⟨[], rfl⟩
  | intern s | setSymbol s | setSource s => exact ⟨[s], rfl⟩
  | addImport module name => exact ⟨[module, name], rfl⟩
  | push =>
    refine ⟨[], ?_⟩
    rw [Action.after, Command.run, discard_run, push_run]
    by_cases hdepth : a.depth < maxNesting
    · rw [if_pos hdepth]
      rfl
    · rw [if_neg hdepth]
      rfl
  | pushNamed symbol =>
    rw [Action.after, Command.run, discard_run, pushNamed_run, push_run]
    -- The name is taken in only if the draft was made.
    by_cases hdepth : a.depth < maxNesting
    · rw [if_pos hdepth]
      exact ⟨[symbol], rfl⟩
    · rw [if_neg hdepth]
      exact ⟨[], rfl⟩
  | pop =>
    refine ⟨[], ?_⟩
    rw [Action.after, Command.run, discard_run, pop_run]
    cases a.cursor.getLast? <;> rfl
  | «open» index =>
    refine ⟨[], ?_⟩
    rw [Action.after, Command.run, open_run]
    split_ifs <;> rfl

/-- The table of a module was made of a list, and texts were taken in then. -/
theorem exists_internAll_of_built (hbuilt : Built a) :
    ∃ texts ss, a.strings = (StringTable.ofList texts).internAll ss := by
  induction hbuilt with
  | blank => exact ⟨[], [], rfl⟩
  | loaded hload =>
    obtain ⟨texts, root, -, rfl⟩ := exists_of_load hload
    exact ⟨texts, [], rfl⟩
  | @next a c _ ih =>
    obtain ⟨texts, ss, heq⟩ := ih
    obtain ⟨ss', heq'⟩ := exists_internAll_after c a
    refine ⟨texts, ss ++ ss', ?_⟩
    rw [heq', heq]
    exact List.foldl_append.symm

/-- Whatever list a table is made of and whatever is taken in then, reference zero is the empty
string, and the empty string has the reference zero, unless the list has it behind its first text,
and no other text has it. The table of every module that can be built is one of these. So a mark that
is set to a text is that text in the prototype, and it is missing if the text is empty, unless the
table has the empty string in a second place. References have 32 bits, which have to suffice for the
table. -/
theorem empty_iff_and_marked (texts ss : List String) :
    ((StringTable.ofList texts).internAll ss).get? .empty = some "" ∧
      (∀ s, (((StringTable.ofList texts).internAll ss).intern s).2.size ≤ UInt32.size →
        ((((StringTable.ofList texts).internAll ss).intern s).1 = .empty ↔
          s = "" ∧ "" ∉ texts.tail)) ∧
      ∀ a, Built a → (∃ texts ss, a.strings = (StringTable.ofList texts).internAll ss) ∧
        ∀ m s, (a.strings.intern s).2.size ≤ UInt32.size → ∃ b, Marked m s a b := by
  have hhead := StringTable.head?_internAll (StringTable.head?_ofList texts) ss
  refine ⟨StringTable.get?_empty hhead, fun s hsize => ?_, fun a hbuilt => ?_⟩
  · rw [StringTable.intern_eq_empty_iff hhead hsize, StringTable.empty_mem_tail_internAll]
  · refine ⟨exists_internAll_of_built hbuilt, fun m s hsize => ?_⟩
    exact ⟨_, (regular_of_built hbuilt).marked (standing_of_built hbuilt) m hsize⟩

/-- A blank module whose table has the empty string in front and behind another text. -/
def doubled : Assembler :=
  { blank with strings := .ofList ["a", ""] }

/-- It can be loaded, and after its symbol was set to the empty string it has this as its symbol. -/
theorem empty_iff_and_marked_doubled :
    Built doubled ∧ ((StringTable.ofList ["a", ""]).intern "").2.size ≤ UInt32.size ∧
      ¬ ((StringTable.ofList ["a", ""]).intern "").1 = .empty ∧
      ∃ b p, Assembler.setSymbol "" doubled = .ok () b ∧ b.resolve = .ok p ∧ p.symbol = some "" := by
  have hload : load doubled.save = .ok doubled :=
    load_save_of_wellFormed rfl (by decide) (by decide +kernel)
  have hbuilt : Built doubled := .loaded hload
  have hsize : ((StringTable.ofList ["a", ""]).intern "").2.size ≤ UInt32.size := by decide +kernel
  obtain ⟨-, hreserved, hmarked⟩ := empty_iff_and_marked ["a", ""] []
  have hempty := hreserved "" hsize
  obtain ⟨b, hb⟩ := (hmarked doubled hbuilt).2 .symbol "" hsize
  have hblank : (Mark.symbol.write .empty doubled.current).references = [] := rfl
  obtain ⟨p, hp⟩ := hb.resolves.2 (by simp [hblank])
  refine ⟨hbuilt, hsize, fun h => (hempty.1 h).2 (by decide), b, p, hb.run, hp, ?_⟩
  exact hb.read p hp

/-- So reference zero is not kept for the empty string in every table. -/
theorem not_reserved : ¬ ∀ texts ss s,
    (((StringTable.ofList texts).internAll ss).intern s).1 = .empty ↔ s = "" := by
  intro h
  exact absurd ((h ["a", ""] [] "").2 rfl) (by decide)

end Assembler

end ActorMachine
