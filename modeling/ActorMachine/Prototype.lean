import ActorMachine.Instruction
import ActorMachine.Value

/-!
# Prototypes

The code of a function: instructions, constant pool, import table and the prototypes of
the functions nested in it. A module is a prototype whose nested prototypes are what it
exports.

A prototype is a plain tree. Where two occurrences of equal code have to be told apart,
because a closure keeps the module alive that its code came from, the code is handled as a
`Routine`: a prototype together with the chunk it belongs to and its place in the tree.
-/

namespace ActorMachine

/-- An entry of a constant pool whose texts are of type `τ`. -/
inductive Constant (τ : Type)
  | int (i : Int64)
  | real (x : Double)
  | text (s : τ)
deriving DecidableEq, Repr, Inhabited

/-- Two constants are the same; reals are compared as numbers. -/
def Constant.same : Constant String → Constant String → Bool
  | int i, int j => i == j
  | real x, real y => x.numEq y
  | text s, text t => s == t
  | _, _ => false

/-- An entry of an import table: what is wanted, and of which module or library. -/
structure Import (τ : Type) where
  /-- The name of the module or library. -/
  module : τ
  /-- The name it exports. -/
  name : τ
deriving DecidableEq, Repr, Inhabited

/-- The code of a function or of a module. -/
structure Prototype where
  /-- The name under which it is exported; for a module, the name of the module. -/
  symbol : Option String
  /-- Where the code was written. -/
  source : Option String
  /-- Number of captured variables. -/
  upvalues : UInt8
  /-- Number of arguments. -/
  arguments : UInt8
  /-- Number of local variables. -/
  locals : UInt8
  /-- The instructions. -/
  code : Array Instruction
  /-- The constant pool. -/
  constants : Array (Constant String)
  /-- The import table. -/
  imports : Array (Import String)
  /-- The prototypes of the functions made inside. -/
  nested : List Prototype
deriving Repr

namespace Prototype

/-- The prototype without name, code and nested prototypes. -/
def blank : Prototype :=
  { symbol := none, source := none, upvalues := 0, arguments := 0, locals := 0,
    code := #[], constants := #[], imports := #[], nested := [] }

instance : Inhabited Prototype := ⟨blank⟩

/-- Number of locals that instructions can address. -/
def frameSize (p : Prototype) : Nat :=
  p.arguments.toNat + p.upvalues.toNat + p.locals.toNat

mutual

/-- Two prototypes are the same; reals are compared as numbers, so code with a NaN differs
from itself. -/
def same : Prototype → Prototype → Bool
  | { symbol, source, upvalues, arguments, locals, code, constants, imports, nested }, q =>
    symbol == q.symbol && source == q.source && upvalues == q.upvalues &&
      arguments == q.arguments && locals == q.locals && code == q.code &&
      constants.isEqv q.constants Constant.same && imports == q.imports &&
      sameAll nested q.nested

/-- Two lists of prototypes are the same, entry by entry. -/
def sameAll : List Prototype → List Prototype → Bool
  | [], [] => true
  | p :: ps, q :: qs => p.same q && sameAll ps qs
  | _, _ => false

end

end Prototype

/-- The number that the loader gives to a module it takes in. -/
structure ChunkId where
  /-- Position of the module in the order of arrival. -/
  number : Nat
deriving DecidableEq, Repr, Inhabited

/-- A prototype at its place: the chunk whose module it belongs to, if any, and the nested
indices that lead to it from the root. Two routines of one origin and one path are the
same object. -/
structure Routine where
  /-- The module the code belongs to; none for code that was never loaded. -/
  origin : Option ChunkId
  /-- The nested indices from the root of the tree, outermost first. -/
  path : List Nat
  /-- The code. -/
  prototype : Prototype
deriving Repr, Inhabited

namespace Routine

/-- Code that belongs to no module, as the root of its own tree. -/
def loose (p : Prototype) : Routine :=
  { origin := none, path := [], prototype := p }

/-- The root of a loaded module. -/
def root (chunk : ChunkId) (p : Prototype) : Routine :=
  { origin := some chunk, path := [], prototype := p }

/-- The routine at a nested index. -/
def nested? (r : Routine) (index : Nat) : Option Routine :=
  r.prototype.nested[index]?.map fun p => { r with path := r.path ++ [index], prototype := p }

/-- Both are the same object. -/
def isSame (r s : Routine) : Bool :=
  r.origin == s.origin && r.path == s.path

mutual

/-- The prototype at `path` and all below it, parents before children and siblings in
order. -/
def walkFrom (origin : Option ChunkId) (path : List Nat) : Prototype → List Routine
  | p@{ nested, .. } => ⟨origin, path, p⟩ :: walkNested origin path 0 nested
termination_by structural p => p

/-- The walks of the nested prototypes, of which the first has this index. -/
def walkNested (origin : Option ChunkId) (path : List Nat) (index : Nat) :
    List Prototype → List Routine
  | [] => []
  | p :: ps => walkFrom origin (path ++ [index]) p ++ walkNested origin path (index + 1) ps
termination_by structural ps => ps

end

/-- This routine and all nested in it, parents before children and siblings in order. -/
def walk (r : Routine) : List Routine :=
  walkFrom r.origin r.path r.prototype

mutual

/-- Searches below `path`, depth first, for a prototype exported under a name. -/
def findFrom (name : String) (origin : Option ChunkId) (path : List Nat) :
    Prototype → Option Routine
  | { nested, .. } => findNested name origin path 0 nested
termination_by structural p => p

/-- Searches the nested prototypes, of which the first has this index. -/
def findNested (name : String) (origin : Option ChunkId) (path : List Nat) (index : Nat) :
    List Prototype → Option Routine
  | [] => none
  | p :: ps =>
    if p.symbol = some name then
      some ⟨origin, path ++ [index], p⟩
    else
      (findFrom name origin (path ++ [index]) p).or
        (findNested name origin path (index + 1) ps)
termination_by structural ps => ps

end

/-- The routine nested in this one, at any depth, that is exported under a name; of several
the first in depth-first order. -/
def find? (r : Routine) (name : String) : Option Routine :=
  findFrom name r.origin r.path r.prototype

mutual

/-- The prototype at `path`, or one below it, is `target`. -/
def containsFrom (target : Routine) (origin : Option ChunkId) (path : List Nat) :
    Prototype → Bool
  | { nested, .. } =>
    (origin == target.origin && path == target.path) ||
      containsNested target origin path 0 nested
termination_by structural p => p

/-- One of the nested prototypes, of which the first has this index, contains `target`. -/
def containsNested (target : Routine) (origin : Option ChunkId) (path : List Nat)
    (index : Nat) : List Prototype → Bool
  | [] => false
  | p :: ps =>
    containsFrom target origin (path ++ [index]) p ||
      containsNested target origin path (index + 1) ps
termination_by structural ps => ps

end

/-- `target` is this routine or one nested in it. -/
def contains (r target : Routine) : Bool :=
  containsFrom target r.origin r.path r.prototype

end Routine

/-- A module that the loader has taken in. -/
structure Chunk where
  /-- The number given to it. -/
  id : ChunkId
  /-- Its root prototype. -/
  module : Prototype
deriving Repr, Inhabited

namespace Chunk

/-- The name of the module, which is the symbol of its root. -/
def name (c : Chunk) : String :=
  c.module.symbol.getD ""

/-- The root of the module. -/
def root (c : Chunk) : Routine :=
  .root c.id c.module

end Chunk

end ActorMachine
