import ActorMachine.Assembly.Fault

/-!
# The assembler

The assembler builds the draft of a module. Its cursor stands on one draft of the tree, and
everything that does not move the cursor edits that draft. Texts that it is given are
interned.
-/

namespace ActorMachine

/-- A module under construction. -/
structure Assembler where
  /-- The texts that the drafts refer to. -/
  strings : StringTable
  /-- The draft of the module. -/
  root : Draft
  /-- The nested indices from the root to the draft that is edited. -/
  cursor : List Nat
deriving Repr

namespace Assembler

/-- Operations on an assembler. -/
abbrev Action := EStateM AssemblyFault Assembler

/-- Most levels that drafts can be nested below the root. -/
def maxNesting : Nat := 8

/-- The module in which nothing is set. -/
def blank : Assembler :=
  { strings := .empty, root := .blank, cursor := [] }

instance : Inhabited Assembler := ⟨blank⟩

/-- Number of levels that the cursor stands below the root. -/
def depth (a : Assembler) : Nat :=
  a.cursor.length

/-- The draft under the cursor. -/
def current (a : Assembler) : Draft :=
  (a.root.at? a.cursor).getD .blank

/-- Changes the draft under the cursor. -/
def edit (change : Draft → Draft) (a : Assembler) : Assembler :=
  { a with root := a.root.modifyAt change a.cursor }

/-- The reference to a text, which is taken into the table if it is new. -/
def intern (s : String) : Action StringRef :=
  modifyGet fun a =>
    let (r, strings) := a.strings.intern s
    (r, { a with strings })

/-! ### Moving the cursor -/

/-- Fails if the cursor can go no deeper. -/
def requireDepth : Action Unit := do
  if maxNesting ≤ (← get).depth then
    throw (.nestingTooDeep maxNesting)

/-- Makes a blank draft behind those nested in the current one and moves to it; answers its
index. -/
def push : Action Nat := do
  requireDepth
  let index := (← get).current.nested.length
  modify fun a =>
    let a := a.edit fun d => { d with nested := d.nested ++ [.blank] }
    { a with cursor := a.cursor ++ [index] }
  return index

/-- Moves to the parent; answers the index of the draft that was left. -/
def pop : Action Nat := do
  match (← get).cursor.getLast? with
  | some index =>
    modify fun a => { a with cursor := a.cursor.dropLast }
    return index
  | none => throw .atRoot

/-- Moves to a nested draft. -/
def «open» (index : Nat) : Action Unit := do
  requireDepth
  if (← get).current.nested.length ≤ index then
    throw (.noSuchPrototype index)
  modify fun a => { a with cursor := a.cursor ++ [index] }

/-! ### Editing the current draft -/

/-- Appends an instruction; answers its index. -/
def emit (i : Instruction) : Action Nat := do
  let index := (← get).current.code.size
  modify (edit fun d => { d with code := d.code.push i })
  return index

/-- Appends a constant; answers its index. -/
def addConstant (c : Constant StringRef) : Action Nat := do
  let index := (← get).current.constants.size
  modify (edit fun d => { d with constants := d.constants.push c })
  return index

/-- Appends an import; answers its index. -/
def addImport (module name : String) : Action Nat := do
  let module ← intern module
  let name ← intern name
  let index := (← get).current.imports.size
  modify (edit fun d => { d with imports := d.imports.push { module, name } })
  return index

/-- Sets the exported name. -/
def setSymbol (s : String) : Action Unit := do
  let symbol ← intern s
  modify (edit fun d => { d with symbol })

/-- Sets where the code was written. -/
def setSource (s : String) : Action Unit := do
  let source ← intern s
  modify (edit fun d => { d with source })

/-- Sets the number of captured variables. -/
def setUpvalues (upvalues : UInt8) : Action Unit :=
  modify (edit fun d => { d with upvalues })

/-- Sets the number of arguments. -/
def setArguments (arguments : UInt8) : Action Unit :=
  modify (edit fun d => { d with arguments })

/-- Sets the number of local variables. -/
def setLocals (locals : UInt8) : Action Unit :=
  modify (edit fun d => { d with locals })

/-- Makes a nested draft, moves to it and names it; answers its index. -/
def pushNamed (symbol : String) : Action Nat := do
  let index ← push
  setSymbol symbol
  return index

end Assembler

end ActorMachine
