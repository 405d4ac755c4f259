import ActorMachine.Value

/-!
# Documents

The tree-shaped data in which the machine is inspected and configured: the JSON data model,
with integers and reals told apart.
-/

namespace ActorMachine

/-- A document. -/
inductive Document
  | null
  | bool (b : Bool)
  | int (i : Int)
  | real (x : Double)
  | text (s : String)
  | list (items : List Document)
  | record (fields : List (String × Document))
deriving Inhabited

namespace Document

/-- A natural number as a document. -/
def nat (n : Nat) : Document :=
  int n

/-- A real as a document; there is no form for infinities and NaN. -/
def ofDouble (x : Double) : Document :=
  if x.isFinite then real x else null

end Document

end ActorMachine
