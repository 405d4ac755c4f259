import ActorMachine.Library
import ActorMachine.Prototype

/-!
# The loader

The loader registers libraries of natives and takes in modules. A module is `pending` until
it is linked, `running` while imports can reach it, and `garbage` once a newer module of
the same name has replaced it.

Symbols that the embedding program keeps are recorded as holds, so that the loader knows
which replaced modules are still wanted (`ActorMachine.Loader.Garbage`).
-/

namespace ActorMachine

/-- What an import resolves to. -/
inductive Symbol
  | native (id : NativeId)
  | function (routine : Routine)
deriving Inhabited

/-- Who is told of a successful link. -/
inductive Listener
  /-- A listener of the embedding program, known by its number. -/
  | numbered (number : Nat)
  /-- The monitor that counts events. -/
  | monitor
deriving DecidableEq, Repr, Inhabited

/-- The loader. -/
structure Loader where
  /-- The natives; a native's number is its position. -/
  natives : Array Native
  /-- The names that each library exports, the last entry of a name first. -/
  libraries : List (String × List (String × NativeId))
  /-- Modules taken in but not linked, oldest first. -/
  pending : List Chunk
  /-- Linked modules, oldest first. -/
  running : List Chunk
  /-- Replaced modules in the order of their replacement. -/
  garbage : List Chunk
  /-- Number of modules ever taken in. -/
  nextChunk : Nat
  /-- Who is told of links, in the order of registration. -/
  listeners : List Listener
  /-- Symbols that the embedding program keeps or kept. -/
  holds : Array (Option Symbol)
deriving Inhabited

namespace Loader

/-- Operations on a loader. A failing operation still says what the loader is afterwards. -/
abbrev Action := EStateM Fault Loader

/-- The loader without libraries and modules. -/
def empty : Loader :=
  { natives := #[], libraries := [], pending := [], running := [], garbage := [],
    nextChunk := 0, listeners := [], holds := #[] }

/-- The native of a number. -/
def native? (l : Loader) (id : NativeId) : Option Native :=
  l.natives[id.index]?

/-- Registers one entry of a library. -/
private def addEntry (library : String) (entry : String × NativeBody) :
    Action (String × NativeId) := do
  let (name, arity) ← ofExcept (Library.readEntry entry.1)
  modifyGet fun l =>
    ((name, ⟨l.natives.size⟩),
      { l with natives := l.natives.push { library, name, arity, body := entry.2 } })

/-- Registers a library. The natives before a malformed entry keep their numbers, although
no name leads to them. -/
def addLibrary (library : Library) : Action Unit := do
  if ((← get).libraries.lookup library.name).isSome then
    throw (.runtime s!"library \x60{library.name}\x60 already registered")
  let table ← library.entries.mapM (addEntry library.name)
  modify fun l => { l with libraries := (library.name, table.reverse) :: l.libraries }

/-- A loader with the standard libraries. -/
def standard : Loader :=
  match (Library.standard.forM addLibrary) empty with
  | .ok _ l | .error _ l => l

/-- Takes in a module, which has to have a name. -/
def addChunk (module : Prototype) : Action ChunkId := do
  if module.symbol.isNone then
    throw (.runtime "module has no name")
  modifyGet fun l =>
    let id : ChunkId := ⟨l.nextChunk⟩
    (id, { l with nextChunk := l.nextChunk + 1, pending := l.pending ++ [⟨id, module⟩] })

/-- Adds a listener behind those there are. -/
def addListener (listener : Listener) (l : Loader) : Loader :=
  { l with listeners := l.listeners ++ [listener] }

/-- What `name` of `module` stands for: the entry of a library, or a function exported by
the newest running module of that name if no library has it. -/
def resolve? (l : Loader) (module name : String) : Option Symbol :=
  match l.libraries.lookup module with
  | some table => (table.lookup name).map .native
  | none =>
    match l.running.reverse.find? fun chunk => chunk.name = module with
    | some chunk => (chunk.root.find? name).map .function
    | none => none

/-- What `name` of `module` stands for. -/
def resolve (l : Loader) (module name : String) : Except Fault Symbol :=
  match l.resolve? module name with
  | some symbol => .ok symbol
  | none => .error (.unresolvedImport module name)

/-- Resolves a symbol and keeps it; answers the number of the hold. -/
def hold (module name : String) : Action Nat := do
  let symbol ← ofExcept ((← get).resolve module name)
  modifyGet fun l => (l.holds.size, { l with holds := l.holds.push symbol })

/-- Gives up a hold. -/
def drop (number : Nat) (l : Loader) : Loader :=
  { l with holds := l.holds.setIfInBounds number none }

/-- The text that sums up a loader. -/
def summary (l : Loader) : String :=
  s!"Loader \x7b natives: {l.natives.size}, pending: {l.pending.length}, " ++
    s!"running: {l.running.length}, garbages: {l.garbage.length} \x7d"

end Loader

end ActorMachine
