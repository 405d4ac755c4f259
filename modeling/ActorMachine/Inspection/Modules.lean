import ActorMachine.Document
import ActorMachine.Loader.Basic

/-!
# The view of the loaded modules

Running modules and then replaced ones, each with the prototypes that it exports and all
that is nested in them. A prototype without a name has no field for it.
-/

namespace ActorMachine

/-- The view of an instruction: its mnemonic and its operand. -/
def Instruction.view (i : Instruction) : Document :=
  let kind : String × Document := ("type", .text i.mnemonic)
  match i with
  | .pop count => .record [kind, ("n", .nat count.toNat)]
  | .constant index | .loadLocal index | .storeLocal index | .importSymbol index
  | .makeClosure index => .record [kind, ("idx", .nat index.toNat)]
  | .bool b => .record [kind, ("val", .bool b)]
  | .int i => .record [kind, ("val", .int i.toInt)]
  | .jump displacement | .jumpUnless displacement | .receive displacement =>
    .record [kind, ("displacement", .int displacement.toInt)]
  | .call arguments => .record [kind, ("nargs", .nat arguments.toNat)]
  | .nop | .breakpoint | .nil | .ret | .send | .remove | .rewind => .record [kind]

/-- The view of a constant. -/
def Constant.view : Constant String → Document
  | .int i => .int i.toInt
  | .real x => .ofDouble x
  | .text s => .text s

/-- The view of an import. -/
def Import.view (i : Import String) : Document :=
  .record [("module", .text i.module), ("name", .text i.name)]

namespace Prototype

mutual

/-- The view of a prototype. -/
def view : Prototype → Document
  | { symbol, code, constants, imports, nested, .. } =>
    .record <|
      (match symbol with
        | some name => [("name", .text name)]
        | none => []) ++
      [("imports", .list (imports.toList.map Import.view)),
        ("constants", .list (constants.toList.map Constant.view)),
        ("instructions", .list (code.toList.map Instruction.view)),
        ("prototypes", .list (views nested))]

/-- The views of prototypes. -/
def views : List Prototype → List Document
  | [] => []
  | p :: ps => p.view :: views ps

end

end Prototype

/-- The view of a module under the name of the set it is in. -/
def Chunk.view (set : String) (c : Chunk) : Document :=
  .record
    [("address", .nat c.id.number),
      ("type", .text set),
      ("module", .text c.name),
      ("prototypes", .list (Prototype.views c.module.nested))]

/-- The view of all modules that run or were replaced. -/
def Loader.view (l : Loader) : Document :=
  .list (l.running.map (Chunk.view "running") ++ l.garbage.map (Chunk.view "garbage"))

end ActorMachine
