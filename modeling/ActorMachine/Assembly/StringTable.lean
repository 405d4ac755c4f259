/-!
# String tables

An assembled module keeps its texts in a table and refers to them by position. Reference
zero is always the empty string and stands for "no text" where a text may be missing.

A table read from outside may hold a text more than once. Every reference then denotes its
own entry, and interning answers the last of them.
-/

namespace ActorMachine

/-- A reference into a string table. -/
structure StringRef where
  /-- Position of the text. -/
  index : UInt32
deriving DecidableEq, Repr, Inhabited

/-- The reference to the empty string. -/
def StringRef.empty : StringRef :=
  ⟨0⟩

/-- A table of texts. -/
structure StringTable where
  /-- The texts in the order of their references. -/
  texts : Array String
deriving DecidableEq, Repr

namespace StringTable

/-- The table that holds only the empty string. -/
def empty : StringTable :=
  { texts := #[""] }

instance : Inhabited StringTable := ⟨empty⟩

/-- The table of a list of texts; the empty string is put in front unless it is there. -/
def ofList (texts : List String) : StringTable :=
  match texts with
  | "" :: _ => { texts := texts.toArray }
  | _ => { texts := ("" :: texts).toArray }

/-- The texts in the order of their references. -/
def toList (t : StringTable) : List String :=
  t.texts.toList

/-- Number of texts. -/
def size (t : StringTable) : Nat :=
  t.texts.size

/-- Nothing but the empty string is there. -/
def isEmpty (t : StringTable) : Bool :=
  decide (t.size ≤ 1)

/-- The text of a reference. -/
def get? (t : StringTable) (r : StringRef) : Option String :=
  t.texts[r.index.toNat]?

/-- Position of the last entry that is `s`. -/
def lastIndex? (s : String) : List String → Option Nat
  | [] => none
  | text :: texts =>
    match lastIndex? s texts with
    | some i => some (i + 1)
    | none => if text = s then some 0 else none

theorem getElem?_lastIndex? {s : String} {i : Nat} :
    ∀ {texts : List String}, lastIndex? s texts = some i → texts[i]? = some s
  | text :: texts, h => by
    simp only [lastIndex?] at h
    split at h
    next j hj =>
      cases h
      simpa using getElem?_lastIndex? hj
    next hj =>
      split at h
      · cases h
        simpa
      · cases h

theorem lastIndex?_eq_none_iff {s : String} {texts : List String} :
    lastIndex? s texts = none ↔ s ∉ texts := by
  induction texts with
  | nil => simp [lastIndex?]
  | cons text texts ih =>
    cases h : lastIndex? s texts with
    | some j =>
      have hs : s ∈ texts := by simpa [h] using ih
      simp [lastIndex?, h, hs]
    | none =>
      have hs : s ∉ texts := ih.1 h
      simp [lastIndex?, h, hs, eq_comm]

/-- The reference to a text, which is appended if it is not there. -/
def intern (s : String) (t : StringTable) : StringRef × StringTable :=
  match lastIndex? s t.toList with
  | some i => (⟨UInt32.ofNat i⟩, t)
  | none => (⟨UInt32.ofNat t.size⟩, { t with texts := t.texts.push s })

end StringTable

end ActorMachine
