import ActorMachine.Assembly.Draft
import ActorMachine.Chunk.Wire
import ActorMachine.Storage

/-!
# Faults of assembling

Why building, resolving, saving or loading a module has failed.
-/

namespace ActorMachine

/-- The causes of failure. -/
inductive AssemblyFault
  /-- Drafts would be nested, or are nested, deeper than this. -/
  | nestingTooDeep (limit : Nat)
  /-- The cursor has no parent to move to. -/
  | atRoot
  /-- No nested draft has this index. -/
  | noSuchPrototype (index : Nat)
  /-- A reference denotes no text. -/
  | badStringRef (r : StringRef)
  /-- The bytes are no chunk. -/
  | badMagic
  /-- The chunk has a version that cannot be read. -/
  | unsupportedVersion (version : Nat)
  /-- The body of the chunk is malformed. -/
  | malformed (fault : WireFault)
  /-- A file could not be read or written. -/
  | storage (fault : StorageFault)
deriving DecidableEq, Repr, Inhabited

/-- The short name of a cause, under which it is reported. -/
def AssemblyFault.label : AssemblyFault → String
  | nestingTooDeep _ => "NestingTooDeep"
  | atRoot => "AtRoot"
  | noSuchPrototype _ => "NoSuchPrototype"
  | badStringRef _ => "BadStringRef"
  | badMagic => "BadMagic"
  | unsupportedVersion _ => "UnsupportedVersion"
  | malformed _ => "Codec"
  | storage _ => "Io"

/-- The text shown for a fault. -/
def AssemblyFault.message : AssemblyFault → String
  | nestingTooDeep limit => s!"nesting deeper than {limit} levels"
  | atRoot => "cannot pop the root prototype"
  | noSuchPrototype index => s!"no nested prototype {index}"
  | badStringRef r => s!"dangling string reference {r.index.toNat}"
  | badMagic => "not a strand chunk"
  | unsupportedVersion version => s!"unsupported chunk version {version}"
  | malformed fault => s!"chunk codec error: {fault.message}"
  | storage fault => s!"I/O error: {fault.message}"

end ActorMachine
