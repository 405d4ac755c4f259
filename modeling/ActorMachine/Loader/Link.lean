import ActorMachine.Loader.Basic

/-!
# Linking

Linking checks that every import of every pending module can be resolved, with running and
pending modules taken together, and then makes the pending modules run, oldest first. A
module replaces the running one of the same name, which becomes garbage. A link that fails
changes nothing.
-/

namespace ActorMachine

/-- What a successful link has done. -/
structure LinkReport where
  /-- The modules that run now, in the order of arrival. -/
  linked : List ChunkId := []
  /-- The modules that were replaced, in the order of their replacement. -/
  superseded : List ChunkId := []
deriving DecidableEq, Repr, Inhabited

/-- The result of a successful link. -/
structure Linking where
  /-- What was done. -/
  report : LinkReport
  /-- Who was told of it, in the order of the telling. -/
  told : List (Listener × LinkReport)
deriving Repr, Inhabited

namespace Loader

/-- An import can be resolved once all pending modules run. -/
def isResolvable (l : Loader) (i : Import String) : Bool :=
  match l.libraries.lookup i.module with
  | some table => (table.lookup i.name).isSome
  | none =>
    (l.running ++ l.pending).any fun chunk =>
      chunk.name = i.module && (chunk.root.find? i.name).isSome

/-- The imports of a module, those of a prototype before those of the ones nested in it. -/
def importsOf (chunk : Chunk) : List (Import String) :=
  chunk.root.walk.flatMap fun r => r.prototype.imports.toList

/-- The first import of a pending module that cannot be resolved. -/
def unresolved? (l : Loader) : Option (Import String) :=
  (l.pending.flatMap importsOf).find? fun i => !l.isResolvable i

/-- Makes one module run, in the place of the running module of its name. -/
def promote (acc : LinkReport × Loader) (chunk : Chunk) : LinkReport × Loader :=
  let (report, l) := acc
  let (report, l) :=
    match l.running.find? fun old => old.name = chunk.name with
    | some old =>
      ({ report with superseded := report.superseded ++ [old.id] },
        { l with
          running := l.running.eraseP fun old => old.name = chunk.name
          garbage := l.garbage ++ [old] })
    | none => (report, l)
  ({ report with linked := report.linked ++ [chunk.id] },
    { l with running := l.running ++ [chunk] })

/-- Links all pending modules and tells every listener. -/
def link : Action Linking := do
  match (← get).unresolved? with
  | some i => throw (.unresolvedImport i.module i.name)
  | none =>
    -- From here on nothing can fail.
    modifyGet fun l =>
      let (report, l) := l.pending.foldl promote ({}, { l with pending := [] })
      ({ report, told := l.listeners.map fun listener => (listener, report) }, l)

end Loader

end ActorMachine
