import ActorMachine.Loader.Basic

/-!
# Reclaiming replaced modules

A replaced module stays as long as something outside of it keeps one of its routines: a
frame, a closure, a kept result or a hold of the embedding program. What frames, closures
and results keep is handed in; the loader knows its holds itself.
-/

namespace ActorMachine.Loader

/-- The routines that the embedding program holds. -/
def heldRoutines (l : Loader) : List Routine :=
  l.holds.toList.filterMap fun
    | some (.function routine) => some routine
    | _ => none

/-- One of these routines belongs to the chunk. -/
def isKept (kept : List Routine) (chunk : Chunk) : Bool :=
  kept.any fun routine => routine.origin = some chunk.id

/-- Drops the replaced modules of which no routine is kept, neither by a hold nor by
`outside`; answers how many there were. -/
def collectGarbage (outside : List Routine) (l : Loader) : Nat × Loader :=
  let kept := l.heldRoutines ++ outside
  let garbage := l.garbage.filter (isKept kept)
  (l.garbage.length - garbage.length, { l with garbage })

end ActorMachine.Loader
