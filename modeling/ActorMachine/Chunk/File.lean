import ActorMachine.Assembly.Assembler
import ActorMachine.Chunk.Body
import ActorMachine.Chunk.Nesting

/-!
# Chunk files

A chunk file is a magic word, a version in two bytes, and the body: the list of texts,
followed by the draft of the module. What comes after the body is ignored.
-/

namespace ActorMachine.Assembler

open Wire (Bytes Reader)

/-- The bytes that every chunk begins with: the letters STRD. -/
def magic : Bytes :=
  [0x53, 0x54, 0x52, 0x44]

/-- The version that is written and can be read. -/
def version : Nat := 1

/-- Number of bytes in front of the body. -/
def headerLength : Nat := 6

/-- The body of a chunk. -/
def body (a : Assembler) : Bytes :=
  Wire.list Wire.text a.strings.toList ++ Wire.draft a.root

/-- The module as a chunk; the cursor plays no part. -/
def save (a : Assembler) : Bytes :=
  magic ++ Wire.number 2 version ++ a.body

/-- Reads the body of a chunk: the texts and the draft. -/
def readBody (depth : Nat) : Reader (List String × Draft) := do
  let texts ← Wire.readList Wire.readText
  let root ← Wire.readDraft depth
  return (texts, root)

/-- The module of a chunk, with the cursor at the root. -/
def load (bytes : Bytes) : Except AssemblyFault Assembler := do
  if bytes.length < headerLength ∨ bytes.take magic.length ≠ magic then
    throw .badMagic
  let body := bytes.drop headerLength
  match (Wire.readNumber 2).run (bytes.drop magic.length) with
  | .error fault => throw (.malformed fault)
  | .ok (found, _) =>
    if found ≠ version then
      throw (.unsupportedVersion found)
  -- No draft takes less than a byte, so no tree is deeper than its bytes are many.
  match (readBody (body.length + 1)).run body with
  | .error fault => throw (.malformed fault)
  | .ok ((texts, root), _) =>
    if maxNesting < root.nestingDepth then
      throw (.nestingTooDeep maxNesting)
    return { strings := .ofList texts, root, cursor := [] }

/-- Saves the module to a file and makes the directories above it. -/
def saveTo (a : Assembler) (path : FilePath) : EStateM AssemblyFault Storage Unit := do
  let steps := path.filter fun segment => segment ≠ "" ∧ segment ≠ "."
  EStateM.adaptExcept .storage (Storage.makeDirectories steps.dropLast)
  EStateM.adaptExcept .storage (Storage.write path a.save)

/-- Loads a module from a file. -/
def loadFrom (s : Storage) (path : FilePath) : Except AssemblyFault Assembler :=
  match s.read path with
  | .ok bytes => load bytes
  | .error fault => .error (.storage fault)

end ActorMachine.Assembler
