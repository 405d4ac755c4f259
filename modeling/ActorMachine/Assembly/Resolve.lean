import ActorMachine.Assembly.Assembler

/-!
# From drafts to prototypes

Resolving a draft puts texts in the place of references. The first reference without a text
is reported, in the order constants, imports, nested drafts, symbol, source.
-/

namespace ActorMachine

namespace StringTable

/-- The text of a reference. -/
def text (t : StringTable) (r : StringRef) : Except AssemblyFault String :=
  match t.get? r with
  | some s => .ok s
  | none => .error (.badStringRef r)

/-- The text of a reference that may stand for no text. -/
def optionalText (t : StringTable) (r : StringRef) : Except AssemblyFault (Option String) :=
  if r = .empty then .ok none else some <$> t.text r

/-- A constant with its text. -/
def resolveConstant (t : StringTable) :
    Constant StringRef → Except AssemblyFault (Constant String)
  | .int i => .ok (.int i)
  | .real x => .ok (.real x)
  | .text r => .text <$> t.text r

/-- An import with its texts. -/
def resolveImport (t : StringTable) (i : Import StringRef) :
    Except AssemblyFault (Import String) := do
  let module ← t.text i.module
  let name ← t.text i.name
  return { module, name }

end StringTable

namespace Draft

mutual

/-- The prototype of a draft. -/
def resolve (t : StringTable) : Draft → Except AssemblyFault Prototype
  | { source, symbol, upvalues, arguments, locals, code, constants, imports, nested } => do
    let constants ← constants.mapM t.resolveConstant
    let imports ← imports.mapM t.resolveImport
    let nested ← resolveAll t nested
    let symbol ← t.optionalText symbol
    let source ← t.optionalText source
    return { symbol, source, upvalues, arguments, locals, code, constants, imports, nested }

/-- The prototypes of drafts. -/
def resolveAll (t : StringTable) : List Draft → Except AssemblyFault (List Prototype)
  | [] => return []
  | d :: ds => do
    let p ← resolve t d
    return p :: (← resolveAll t ds)

end

end Draft

namespace Assembler

/-- The prototype of the draft under the cursor. -/
def resolve (a : Assembler) : Except AssemblyFault Prototype :=
  a.current.resolve a.strings

/-- The prototype of the module. -/
def resolveModule (a : Assembler) : Except AssemblyFault Prototype :=
  a.root.resolve a.strings

end Assembler

end ActorMachine
