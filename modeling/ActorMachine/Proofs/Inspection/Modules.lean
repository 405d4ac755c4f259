import Mathlib.Data.List.Forall2
import ActorMachine.Inspection.Modules

/-!
# What the view of the modules shows

* `Document.Same`: documents with the same content, where records are maps and it is left open when
  two reals are the same.
* `Instruction.ofView?`: the instruction that a view shows.
* `Prototype.Resembles`, `Loader.Resembles`: what is shown is the same, at every depth and in order.
* `Loader.view_faithful`: exactly such loaders have views with the same content, whether the reals
  in documents are compared by their bits or as numbers.
-/

namespace ActorMachine

variable {eq : Double → Double → Prop}

namespace Document

/-! ### Documents with the same content -/

/-- The documents have the same content; the order of fields does not count, and reals are the same
if `eq` says so. -/
inductive Same (eq : Double → Double → Prop) : Document → Document → Prop
  | null : Same eq null null
  | bool (b : Bool) : Same eq (bool b) (bool b)
  | int (i : Int) : Same eq (int i) (int i)
  | real {x y : Double} (number : eq x y) : Same eq (real x) (real y)
  | text (s : String) : Same eq (text s) (text s)
  | list {items items' : List Document} (entries : List.Forall₂ (Same eq) items items') :
    Same eq (list items) (list items')
  | record {fields fields' : List (String × Document)}
      (entries : ∀ name, Option.Rel (Same eq) (fields.lookup name) (fields'.lookup name)) :
    Same eq (record fields) (record fields')

variable {d d' : Document} {items items' : List Document}
  {fields fields' : List (String × Document)} {name : String}

@[simp] theorem same_bool_iff {b b' : Bool} : (bool b).Same eq (bool b') ↔ b = b' := by
  constructor
  · rintro ⟨⟩
    rfl
  · rintro rfl
    exact .bool b

@[simp] theorem same_int_iff {i i' : Int} : (int i).Same eq (int i') ↔ i = i' := by
  constructor
  · rintro ⟨⟩
    rfl
  · rintro rfl
    exact .int i

@[simp] theorem same_nat_iff {n n' : Nat} : (nat n).Same eq (nat n') ↔ n = n' :=
  same_int_iff.trans Int.ofNat_inj

@[simp] theorem same_text_iff {s s' : String} : (text s).Same eq (text s') ↔ s = s' := by
  constructor
  · rintro ⟨⟩
    rfl
  · rintro rfl
    exact .text s

@[simp] theorem same_real_iff {x y : Double} : (real x).Same eq (real y) ↔ eq x y := by
  constructor
  · rintro ⟨⟩
    assumption
  · exact .real

@[simp] theorem same_list_iff :
    (list items).Same eq (list items') ↔ List.Forall₂ (Same eq) items items' := by
  constructor
  · rintro ⟨⟩
    assumption
  · exact .list

theorem same_record_iff : (record fields).Same eq (record fields') ↔
    ∀ name, Option.Rel (Same eq) (fields.lookup name) (fields'.lookup name) := by
  constructor
  · rintro ⟨⟩
    assumption
  · exact .record

@[simp] theorem same_record_nil : (record []).Same eq (record []) :=
  same_record_iff.2 fun _ => .none

theorem lookup_cons_of_ne {other : String} (hother : other ≠ name) :
    List.lookup other ((name, d) :: fields) = fields.lookup other := by
  have hbeq : (other == name) = false := by simpa using hother
  simp [List.lookup_cons, hbeq]

theorem lookup_eq_none (hname : name ∉ fields.map Prod.fst) : fields.lookup name = none := by
  rw [List.lookup_eq_none_iff]
  intro field hmem
  simpa using fun heq : name = field.1 => hname (heq ▸ List.mem_map_of_mem hmem)

/-- The first fields have the same name, which none of the others has. -/
theorem same_record_cons (hname : name ∉ fields.map Prod.fst)
    (hname' : name ∉ fields'.map Prod.fst) :
    (record ((name, d) :: fields)).Same eq (record ((name, d') :: fields')) ↔
      d.Same eq d' ∧ (record fields).Same eq (record fields') := by
  rw [same_record_iff, same_record_iff]
  constructor
  · intro hentries
    refine ⟨by simpa using hentries name, fun other => ?_⟩
    by_cases hother : other = name
    · rw [hother, lookup_eq_none hname, lookup_eq_none hname']
      exact .none
    · have hentry := hentries other
      rwa [lookup_cons_of_ne hother, lookup_cons_of_ne hother] at hentry
  · rintro ⟨hd, hentries⟩ other
    by_cases hother : other = name
    · simpa [hother] using hd
    · rw [lookup_cons_of_ne hother, lookup_cons_of_ne hother]
      exact hentries other

/-- A field that the other record does not have. -/
theorem not_same_record_cons (hname' : name ∉ fields'.map Prod.fst) :
    ¬ (record ((name, d) :: fields)).Same eq (record fields') := by
  rw [same_record_iff]
  intro hentries
  have hentry := hentries name
  rw [lookup_eq_none hname'] at hentry
  simp at hentry

theorem not_same_record_cons_right (hname : name ∉ fields.map Prod.fst) :
    ¬ (record fields).Same eq (record ((name, d') :: fields')) := by
  rw [same_record_iff]
  intro hentries
  have hentry := hentries name
  rw [lookup_eq_none hname] at hentry
  simp at hentry

/-- The documents in both lists are made of other things in the same way. -/
theorem same_list_map {α : Type} {f : α → Document} {R : α → α → Prop}
    (hf : ∀ x y, (f x).Same eq (f y) ↔ R x y) {xs ys : List α} :
    (list (xs.map f)).Same eq (list (ys.map f)) ↔ List.Forall₂ R xs ys := by
  simp only [same_list_iff, List.forall₂_map_left_iff, List.forall₂_map_right_iff, hf]

theorem same_list_map_array {α : Type} {f : α → Document}
    (hf : ∀ x y, (f x).Same eq (f y) ↔ x = y) {xs ys : Array α} :
    (list (xs.toList.map f)).Same eq (list (ys.toList.map f)) ↔ xs = ys := by
  rw [same_list_map hf, ← Array.toList_inj]
  exact iff_of_eq (congrFun (congrFun List.forall₂_eq_eq_eq _) _)

/-! ### Reading off fields -/

/-- What is read off a field of a record. -/
def field? {α : Type} (read : Document → Option α) (name : String) : Document → Option α
  | record fields => (fields.lookup name).bind read
  | _ => none

/-- The text that a document is. -/
def asText : Document → Option String
  | text s => some s
  | _ => none

/-- The integer that a document is. -/
def asInt : Document → Option Int
  | int i => some i
  | _ => none

/-- The boolean that a document is. -/
def asBool : Document → Option Bool
  | bool b => some b
  | _ => none

/-- What is read off the values of a field is read off the field. -/
theorem Same.field?_eq {α : Type} {read : Document → Option α}
    (hread : ∀ d d', d.Same eq d' → read d = read d') (hsame : d.Same eq d') (name : String) :
    d.field? read name = d'.field? read name := by
  cases hsame with
  | record entries =>
    have hentry := entries name
    simp only [field?]
    generalize List.lookup name _ = entry at hentry ⊢
    generalize List.lookup name _ = entry' at hentry ⊢
    cases hentry with
    | some hvalue => exact hread _ _ hvalue
    | none => rfl
  | _ => rfl

theorem Same.asText_eq (hsame : d.Same eq d') : d.asText = d'.asText := by
  cases hsame <;> rfl

theorem Same.asInt_eq (hsame : d.Same eq d') : d.asInt = d'.asInt := by
  cases hsame <;> rfl

theorem Same.asBool_eq (hsame : d.Same eq d') : d.asBool = d'.asBool := by
  cases hsame <;> rfl

end Document

/-! ### Instructions -/

namespace Instruction

open Document (asText asInt asBool)

/-- The instruction that a document shows. -/
def ofView? (d : Document) : Option Instruction :=
  let index (name : String) := (UInt32.ofNat ·.toNat) <$> d.field? asInt name
  let signed (name : String) := Int32.ofInt <$> d.field? asInt name
  match d.field? asText "type" with
  | some "nop" => some nop
  | some "brk" => some breakpoint
  | some "pop" => pop <$> index "n"
  | some "ldk" => constant <$> index "idx"
  | some "nil" => some nil
  | some "ldb" => bool <$> d.field? asBool "val"
  | some "lsi" => int <$> signed "val"
  | some "llv" => loadLocal <$> index "idx"
  | some "slv" => storeLocal <$> index "idx"
  | some "imp" => importSymbol <$> index "idx"
  | some "cls" => makeClosure <$> index "idx"
  | some "jmp" => jump <$> signed "displacement"
  | some "jin" => jumpUnless <$> signed "displacement"
  | some "ivk" => call <$> index "nargs"
  | some "ret" => some ret
  | some "snd" => some send
  | some "rcv" => receive <$> signed "displacement"
  | some "rmv" => some remove
  | some "rwd" => some rewind
  | _ => none

theorem ofView?_view (i : Instruction) : ofView? i.view = some i := by
  cases i <;> simp [ofView?, view, Document.field?, Document.nat, mnemonic, asText, asInt, asBool,
    List.lookup_cons]

/-- An instruction is shown by all documents with the content of its view. -/
theorem ofView?_eq {d d' : Document} (hsame : d.Same eq d') : ofView? d = ofView? d' := by
  have htext := hsame.field?_eq fun _ _ => Document.Same.asText_eq
  have hint := hsame.field?_eq fun _ _ => Document.Same.asInt_eq
  have hbool := hsame.field?_eq fun _ _ => Document.Same.asBool_eq
  simp only [ofView?, htext, hint, hbool]

theorem same_view_iff (i j : Instruction) : i.view.Same eq j.view ↔ i = j := by
  constructor
  · intro hsame
    have hread := ofView?_eq hsame
    rw [ofView?_view, ofView?_view] at hread
    exact Option.some.inj hread
  · rintro rfl
    cases i <;> simp [view, Document.same_record_cons]

end Instruction

/-! ### Constants and imports -/

/-- Two constants resemble each other: they are the same, where `eq` says when reals are, or both
are reals that are not finite. -/
inductive Constant.Resembles (eq : Double → Double → Prop) :
    Constant String → Constant String → Prop
  | int (i : Int64) : Resembles eq (.int i) (.int i)
  | text (s : String) : Resembles eq (.text s) (.text s)
  | real {x y : Double} (finite : x.isFinite) (finite' : y.isFinite) (number : eq x y) :
    Resembles eq (.real x) (.real y)
  | undefined {x y : Double} (infinite : ¬ x.isFinite) (infinite' : ¬ y.isFinite) :
    Resembles eq (.real x) (.real y)

theorem Document.same_ofDouble_iff {x y : Double} : (ofDouble x).Same eq (ofDouble y) ↔
    Constant.Resembles eq (.real x) (.real y) := by
  unfold ofDouble
  constructor
  · intro hsame
    by_cases hx : x.isFinite <;> by_cases hy : y.isFinite <;> simp only [hx, hy] at hsame
    · exact .real hx hy (same_real_iff.1 hsame)
    · cases hsame
    · cases hsame
    · exact .undefined hx hy
  · rintro (_ | _ | ⟨hx, hy, heq⟩ | ⟨hx, hy⟩)
    · rw [if_pos hx, if_pos hy]
      exact .real heq
    · rw [if_neg hx, if_neg hy]
      exact .null

theorem Document.ofDouble_eq (x : Double) : ofDouble x = real x ∨ ofDouble x = null := by
  unfold ofDouble
  split <;> simp

theorem Constant.same_view_iff (c c' : Constant String) :
    c.view.Same eq c'.view ↔ c.Resembles eq c' := by
  constructor
  · intro hsame
    cases c <;> cases c' <;> simp only [view] at hsame
    case int.int i i' =>
      obtain rfl : i = i' := Int64.toInt_inj.1 (Document.same_int_iff.1 hsame)
      exact .int i
    case text.text s s' =>
      obtain rfl : s = s' := Document.same_text_iff.1 hsame
      exact .text s
    case real.real x y => exact Document.same_ofDouble_iff.1 hsame
    -- What a real is shown as is neither an integer nor a text.
    case int.real _ y | text.real _ y =>
      rcases Document.ofDouble_eq y with heq | heq <;> rw [heq] at hsame <;> cases hsame
    case real.int x _ | real.text x _ =>
      rcases Document.ofDouble_eq x with heq | heq <;> rw [heq] at hsame <;> cases hsame
    all_goals cases hsame
  · rintro (i | s | ⟨hx, hy, heq⟩ | ⟨hx, hy⟩)
    · exact .int _
    · exact .text _
    · exact Document.same_ofDouble_iff.2 (.real hx hy heq)
    · exact Document.same_ofDouble_iff.2 (.undefined hx hy)

theorem Import.same_view_iff (i j : Import String) : i.view.Same eq j.view ↔ i = j := by
  cases i
  cases j
  simp [Import.view, Document.same_record_cons]

/-! ### Prototypes -/

namespace Prototype

/-- Two prototypes resemble each other, and so do those that are nested in them. -/
@[mk_iff]
inductive Resembles (eq : Double → Double → Prop) : Prototype → Prototype → Prop
  | intro {p q : Prototype} (symbol : p.symbol = q.symbol) (imports : p.imports = q.imports)
      (constants : List.Forall₂ (Constant.Resembles eq) p.constants.toList q.constants.toList)
      (code : p.code = q.code) (nested : List.Forall₂ (Resembles eq) p.nested q.nested) :
      Resembles eq p q

mutual

theorem same_view_iff (p q : Prototype) : p.view.Same eq q.view ↔ p.Resembles eq q := by
  obtain ⟨symbol, _, _, _, _, code, constants, imports, nested⟩ := p
  obtain ⟨symbol', _, _, _, _, code', constants', imports', nested'⟩ := q
  rw [resembles_iff]
  cases symbol <;> cases symbol' <;>
    simp [view, Document.same_record_cons, Document.not_same_record_cons,
      Document.not_same_record_cons_right, Document.same_list_map Constant.same_view_iff,
      Document.same_list_map_array Import.same_view_iff,
      Document.same_list_map_array Instruction.same_view_iff, same_views_iff nested nested']

theorem same_views_iff (ps qs : List Prototype) :
    List.Forall₂ (Document.Same eq) (views ps) (views qs) ↔
      List.Forall₂ (Resembles eq) ps qs := by
  match ps, qs with
  | [], [] | [], _ :: _ | _ :: _, [] => simp [views]
  | p :: ps, q :: qs =>
    rw [views, views, List.forall₂_cons, List.forall₂_cons, same_view_iff p q, same_views_iff ps qs]

end

end Prototype

/-! ### Modules -/

/-- Two modules resemble each other: number, name and everything that they export. -/
@[mk_iff]
structure Chunk.Resembles (eq : Double → Double → Prop) (c c' : Chunk) : Prop where
  /-- They have the same number. -/
  id : c.id = c'.id
  /-- They have the same name. -/
  name : c.name = c'.name
  /-- What they export resembles each other, in the same order. -/
  exports : List.Forall₂ (Prototype.Resembles eq) c.module.nested c'.module.nested

theorem Chunk.same_view_iff {set set' : String} (c c' : Chunk) :
    (c.view set).Same eq (c'.view set') ↔ set = set' ∧ c.Resembles eq c' := by
  have hid : c.id.number = c'.id.number ↔ c.id = c'.id := by
    cases c.id
    cases c'.id
    simp
  rw [resembles_iff, ← hid]
  simp [view, Document.same_record_cons, Prototype.same_views_iff, and_left_comm]

/-- Where two kinds of entries are never related, lists of the one kind and then the other are
related exactly if both parts are. -/
theorem forall₂_map_append {α β : Type} {R : β → β → Prop} {f g : α → β}
    (hfg : ∀ a b, ¬ R (f a) (g b)) (hgf : ∀ a b, ¬ R (g a) (f b)) (xs xs' ys ys' : List α) :
    List.Forall₂ R (xs.map f ++ ys.map g) (xs'.map f ++ ys'.map g) ↔
      List.Forall₂ R (xs.map f) (xs'.map f) ∧ List.Forall₂ R (ys.map g) (ys'.map g) := by
  induction xs generalizing xs' with
  | nil =>
    cases xs' with
    | nil => simp
    | cons x' xs' => cases ys <;> simp [hgf]
  | cons x xs ih =>
    cases xs' with
    | nil => cases ys' <;> simp [hfg]
    | cons x' xs' => simp [ih, and_assoc]

/-- The modules of two loaders resemble each other. -/
@[mk_iff]
structure Loader.Resembles (eq : Double → Double → Prop) (l m : Loader) : Prop where
  /-- Those that run, in the same order. -/
  running : List.Forall₂ (Chunk.Resembles eq) l.running m.running
  /-- Those that were replaced, in the same order. -/
  garbage : List.Forall₂ (Chunk.Resembles eq) l.garbage m.garbage

/-- Whichever reals are taken to be the same, the views of two loaders have the same content exactly
if their modules resemble each other. -/
theorem Loader.same_view_iff (l m : Loader) : l.view.Same eq m.view ↔ l.Resembles eq m := by
  have hsplit := forall₂_map_append (R := Document.Same eq) (f := Chunk.view "running")
    (g := Chunk.view "garbage") (by simp [Chunk.same_view_iff]) (by simp [Chunk.same_view_iff])
  simp only [view, Document.same_list_iff, hsplit, List.forall₂_map_left_iff,
    List.forall₂_map_right_iff, Chunk.same_view_iff, true_and, resembles_iff]

/-- The same number: the bits are the same, or they are those of the two zeros. -/
def Double.SameNumber (x y : Double) : Prop :=
  x = y ∨ (x.bits <<< 1 = 0 ∧ y.bits <<< 1 = 0)

/-- The view of the modules loses nothing that it shows. If two loaders have the same view, then
they have the same modules, first those that run and then those that were replaced, with the same
numbers and names; and what these export has the same symbol or none, the same imports and
instructions, and the same constants, and so has everything that is nested in it, in order. Reals
that are not finite are not told apart, and zeros are not if numbers are compared by their value.
Conversely, such loaders have the same view. -/
theorem Loader.view_faithful (l m : Loader) :
    (l.view.Same (· = ·) m.view ↔ l.Resembles (· = ·) m) ∧
      (l.view.Same Double.SameNumber m.view ↔ l.Resembles Double.SameNumber m) :=
  ⟨same_view_iff l m, same_view_iff l m⟩

end ActorMachine
