import ActorMachine.Assembly.Resolve
import Mathlib.Data.List.Basic

/-!
# What drafts resolve to

Resolving goes through the references of a draft in a fixed order and stops at the first one that
denotes no text. What it comes to otherwise is the draft with a text in the place of each reference.

* `Draft.references`: the references that are looked at, in their order.
* `Draft.spelled`: the draft with texts in the place of references.
* `StringTable.checked`: a result that hangs on some references. Results of this kind are put
  together by `checked_bind` and `mapM_checked`, which keep the references in order.
* `resolve_eq_checked`: a draft resolves to its spelled form, and this hangs on its references.
* `resolvesExactly`: when that succeeds, with what result, and what is reported when it fails.
-/

namespace ActorMachine

variable {τ σ α β : Type}

/-- The constant with another text. -/
def Constant.map (f : τ → σ) : Constant τ → Constant σ
  | int i => .int i
  | real x => .real x
  | text s => .text (f s)

/-- The text of a constant, if it is one. -/
def Constant.texts : Constant τ → List τ
  | text s => [s]
  | _ => []

/-- The import with other texts. -/
def Import.map (f : τ → σ) (i : Import τ) : Import σ :=
  { module := f i.module, name := f i.name }

/-- The two texts of an import, the module before the name. -/
def Import.texts (i : Import τ) : List τ :=
  [i.module, i.name]

/-- The reference itself, unless it stands for no text. -/
def StringRef.present (r : StringRef) : List StringRef :=
  if r = .empty then [] else [r]

/-- The text of a reference that may stand for no text. -/
def StringRef.spelled (text : StringRef → String) (r : StringRef) : Option String :=
  if r = .empty then none else some (text r)

namespace Draft

mutual

/-- The references of a draft in the order in which they are looked at: those of its constants and
imports, those of the nested drafts, one after the other, and those to its symbol and source. -/
def references : Draft → List StringRef
  | { source, symbol, constants, imports, nested, .. } =>
    constants.toList.flatMap Constant.texts ++ (imports.toList.flatMap Import.texts ++
      (referencesAll nested ++ (symbol.present ++ source.present)))

/-- The references of several drafts. -/
def referencesAll : List Draft → List StringRef
  | [] => []
  | d :: ds => d.references ++ referencesAll ds

end

mutual

/-- The prototype of the same shape, with the same instructions and numbers, that has texts where
the draft has references. -/
def spelled (text : StringRef → String) : Draft → Prototype
  | { source, symbol, upvalues, arguments, locals, code, constants, imports, nested } =>
    { symbol := symbol.spelled text, source := source.spelled text, upvalues, arguments, locals,
      code, constants := constants.map (.map text), imports := imports.map (.map text),
      nested := spelledAll text nested }

/-- The prototypes of several drafts. -/
def spelledAll (text : StringRef → String) : List Draft → List Prototype
  | [] => []
  | d :: ds => d.spelled text :: spelledAll text ds

end

end Draft

namespace StringTable

variable {t : StringTable} {r : StringRef} {refs refs' : List StringRef}

/-- A reference denotes no text. -/
def dangles (t : StringTable) (r : StringRef) : Bool :=
  decide (t.size ≤ r.index.toNat)

/-- The text that a reference denotes. What it is for one that denotes none does not matter. -/
def denoted (t : StringTable) (r : StringRef) : String :=
  (t.get? r).getD ""

/-- A result for which some references have to denote texts: the first that does not is reported. -/
def checked (t : StringTable) (refs : List StringRef) (a : α) : Except AssemblyFault α :=
  match refs.find? t.dangles with
  | some r => .error (.badStringRef r)
  | none => .ok a

/-! ### Putting results together -/

/-- One result after the other: the references of the first come first. -/
theorem checked_bind (a : α) (f : α → β) :
    (t.checked refs a >>= fun a => t.checked refs' (f a)) = t.checked (refs ++ refs') (f a) := by
  unfold checked
  rw [List.find?_append]
  cases refs.find? t.dangles <;> rfl

theorem checked_bind_pure (a : α) (f : α → β) :
    (t.checked refs a >>= fun a => pure (f a)) = t.checked refs (f a) := by
  unfold checked
  cases refs.find? t.dangles <;> rfl

theorem map_checked (a : α) (f : α → β) : f <$> t.checked refs a = t.checked refs (f a) := by
  unfold checked
  cases refs.find? t.dangles <;> rfl

/-- The results for the entries of a list, one after the other. -/
theorem mapM_checked {f : α → Except AssemblyFault β} {needs : α → List StringRef} {g : α → β}
    (hf : ∀ a, f a = t.checked (needs a) (g a)) (as : List α) :
    as.mapM f = t.checked (as.flatMap needs) (as.map g) := by
  induction as with
  | nil => rfl
  | cons a as ih =>
    rw [List.mapM_cons, hf, ih]
    simp only [checked_bind_pure, checked_bind, List.flatMap_cons, List.map_cons]

theorem array_mapM_checked {f : α → Except AssemblyFault β} {needs : α → List StringRef}
    {g : α → β} (hf : ∀ a, f a = t.checked (needs a) (g a)) (as : Array α) :
    as.mapM f = t.checked (as.toList.flatMap needs) (as.map g) := by
  have hmap : (as.toList.map g).toArray = as.map g := by
    apply Array.ext'
    simp
  rw [Array.mapM_eq_mapM_toList, mapM_checked hf, map_checked, hmap]

/-! ### The parts of a draft -/

/-- References denote texts as far as the table goes. -/
theorem get?_eq_none_iff : t.get? r = none ↔ t.dangles r = true := by
  rw [dangles, decide_eq_true_iff]
  simp [get?, size]

theorem text_eq_checked (r : StringRef) : t.text r = t.checked [r] (t.denoted r) := by
  unfold text checked denoted
  cases hget : t.get? r with
  | none => simp [get?_eq_none_iff.1 hget]
  | some s =>
    have hnot : ¬ t.dangles r = true := fun hdangles => by
      rw [get?_eq_none_iff.2 hdangles] at hget
      cases hget
    simp [hnot]

theorem optionalText_eq_checked (r : StringRef) :
    t.optionalText r = t.checked r.present (r.spelled t.denoted) := by
  unfold optionalText StringRef.present StringRef.spelled
  split
  · rfl
  · rw [text_eq_checked, map_checked]

theorem resolveConstant_eq_checked (c : Constant StringRef) :
    t.resolveConstant c = t.checked c.texts (c.map t.denoted) := by
  cases c with
  | text r =>
    rw [resolveConstant, text_eq_checked, map_checked]
    rfl
  | _ => rfl

theorem resolveImport_eq_checked (i : Import StringRef) :
    t.resolveImport i = t.checked i.texts (i.map t.denoted) := by
  unfold resolveImport
  simp only [text_eq_checked, checked_bind_pure, checked_bind]
  rfl

end StringTable

/-! ### Drafts -/

namespace Draft

variable {t : StringTable}

mutual

/-- A draft resolves to its spelled form, and this hangs on its references in their order. -/
theorem resolve_eq_checked (t : StringTable) (d : Draft) :
    d.resolve t = t.checked d.references (d.spelled t.denoted) := by
  obtain ⟨source, symbol, upvalues, arguments, locals, code, constants, imports, nested⟩ := d
  rw [resolve, StringTable.array_mapM_checked StringTable.resolveConstant_eq_checked,
    StringTable.array_mapM_checked StringTable.resolveImport_eq_checked,
    resolveAll_eq_checked t nested]
  simp only [StringTable.optionalText_eq_checked, StringTable.checked_bind_pure,
    StringTable.checked_bind]
  rw [references, spelled]

/-- So do several drafts, one after the other. -/
theorem resolveAll_eq_checked (t : StringTable) (ds : List Draft) :
    resolveAll t ds = t.checked (referencesAll ds) (spelledAll t.denoted ds) := by
  cases ds with
  | nil => rfl
  | cons d ds =>
    rw [resolveAll, resolve_eq_checked t d, resolveAll_eq_checked t ds]
    simp only [StringTable.checked_bind_pure, StringTable.checked_bind]
    rw [referencesAll, spelledAll]

end

end Draft

/-! ### Modules -/

/-- What resolving a draft comes to. -/
structure ResolvesExactly (t : StringTable) (d : Draft) (result : Except AssemblyFault Prototype) :
    Prop where
  /-- There is a prototype if and only if all references that are looked at are within the table. -/
  succeeds : (∃ p, result = .ok p) ↔ ∀ r ∈ d.references, r.index.toNat < t.size
  /-- It is the draft with a text in the place of each reference. -/
  spelled : ∀ p, result = .ok p → p = d.spelled t.denoted
  /-- Each of these texts is the one that the reference denotes. -/
  denotes : ∀ p, result = .ok p → ∀ r ∈ d.references, t.get? r = some (t.denoted r)
  /-- Otherwise the first reference is reported that is not within the table. -/
  fails : ∀ fault, result = .error fault → ∃ r,
    d.references.find? (fun r => t.size ≤ r.index.toNat) = some r ∧ fault = .badStringRef r

/-- A result that hangs on the references of a draft is there, or the first one that dangles is
reported. -/
theorem resolvesExactly_checked (t : StringTable) (d : Draft) :
    ResolvesExactly t d (t.checked d.references (d.spelled t.denoted)) := by
  unfold StringTable.checked
  cases hfind : d.references.find? t.dangles with
  -- The first reference that dangles decides what is reported.
  | some r =>
    have hfound : t.dangles r = true := List.find?_some hfind
    have hdangles : t.size ≤ r.index.toNat := of_decide_eq_true hfound
    refine ⟨⟨nofun, fun hall => ?_⟩, nofun, nofun, fun fault heq => ⟨r, hfind, ?_⟩⟩
    · exact absurd (hall r (List.mem_of_find?_eq_some hfind)) (Nat.not_lt.2 hdangles)
    · exact (Except.error.inj heq).symm
  | none =>
    have hall : ∀ r ∈ d.references, ¬ t.dangles r = true := List.find?_eq_none.1 hfind
    refine ⟨⟨fun _ r hr => ?_, fun _ => ⟨_, rfl⟩⟩, fun p heq => ?_, fun p _ r hr => ?_, nofun⟩
    · exact Nat.not_le.1 fun hle => hall r hr (decide_eq_true hle)
    · exact (Except.ok.inj heq).symm
    · -- A reference that does not dangle denotes something, and that is its text.
      unfold StringTable.denoted
      cases hget : t.get? r with
      | some s => rfl
      | none => exact absurd (StringTable.get?_eq_none_iff.1 hget) (hall r hr)

theorem Draft.resolvesExactly (t : StringTable) (d : Draft) :
    ResolvesExactly t d (d.resolve t) := by
  rw [resolve_eq_checked]
  exact resolvesExactly_checked t d

namespace Assembler

/-- Whatever a module is like, with references of constants that were made up and with all that a
chunk may hold: the module, the current draft and every other draft of it resolve to their spelled
form if all their references denote texts, and otherwise the first one that does not is reported. -/
theorem resolves_exactly (a : Assembler) :
    ResolvesExactly a.strings a.root a.resolveModule ∧
      ResolvesExactly a.strings a.current a.resolve ∧
      ∀ path d, a.root.at? path = some d →
        ResolvesExactly a.strings d (resolve { a with cursor := path }) := by
  refine ⟨a.root.resolvesExactly _, a.current.resolvesExactly _, fun path d hat => ?_⟩
  have hcurrent : current { a with cursor := path } = d := by
    simp [current, hat]
  unfold resolve
  rw [hcurrent]
  exact d.resolvesExactly _

/-- A constant of a nested draft is looked at before the symbol of the draft around it. -/
example : (resolve { blank with root := { Draft.blank with
    symbol := ⟨7⟩, nested := [{ Draft.blank with constants := #[.text ⟨5⟩] }] } }) =
      .error (.badStringRef ⟨5⟩) := by
  rw [resolve, Draft.resolve_eq_checked]
  rfl

end Assembler

end ActorMachine
