import ActorMachine.Assembly.StringTable
import ActorMachine.Prototype

/-!
# Drafts

A draft is a prototype under construction, with references into a string table in place of
texts. Its nested drafts are addressed by paths of indices.
-/

namespace ActorMachine

/-- A prototype under construction. -/
structure Draft where
  /-- Where the code was written; reference zero if that is not known. -/
  source : StringRef
  /-- The exported name; reference zero if there is none. -/
  symbol : StringRef
  /-- Number of captured variables. -/
  upvalues : UInt8
  /-- Number of arguments. -/
  arguments : UInt8
  /-- Number of local variables. -/
  locals : UInt8
  /-- The instructions. -/
  code : Array Instruction
  /-- The constant pool. -/
  constants : Array (Constant StringRef)
  /-- The import table. -/
  imports : Array (Import StringRef)
  /-- The nested drafts. -/
  nested : List Draft
deriving Repr

namespace Draft

/-- The draft in which nothing is set. -/
def blank : Draft :=
  { source := .empty, symbol := .empty, upvalues := 0, arguments := 0, locals := 0,
    code := #[], constants := #[], imports := #[], nested := [] }

instance : Inhabited Draft := ⟨blank⟩

/-- The draft that a path leads to. -/
def at? (d : Draft) : List Nat → Option Draft
  | [] => some d
  | index :: path =>
    match d.nested[index]? with
    | some child => child.at? path
    | none => none

/-- Changes the draft that a path leads to. -/
def modifyAt (change : Draft → Draft) : List Nat → Draft → Draft
  | [], d => change d
  | index :: path, d => { d with nested := d.nested.modify index (modifyAt change path) }

mutual

/-- Number of levels below a draft: the length of the longest path that leads anywhere. -/
def height : Draft → Nat
  | { nested, .. } => heightAll nested

/-- Number of levels that drafts make up, themselves included. -/
def heightAll : List Draft → Nat
  | [] => 0
  | d :: ds => max (d.height + 1) (heightAll ds)

end

end Draft

end ActorMachine
