import ActorMachine.Assembly.Draft
import ActorMachine.Chunk.Wire

/-!
# Drafts as bytes

The byte form of instructions, constants, imports and drafts. Alternatives are told apart
by a tag of four bytes. A draft writes its nested drafts last, so the form is as deep as the
tree; reading needs no bound on that depth beyond the number of bytes at hand.
-/

namespace ActorMachine.Wire

/-! ### Writing -/

/-- The tag of an alternative. -/
def tag (n : Nat) : Bytes :=
  number 4 n

/-- A number of 32 bits. -/
def word (n : UInt32) : Bytes :=
  number 4 n.toNat

/-- A signed number of 32 bits. -/
def signedWord (i : Int32) : Bytes :=
  word i.toUInt32

/-- An instruction: its tag and its operand. -/
def instruction : Instruction → Bytes
  | .nop => tag 0
  | .breakpoint => tag 1
  | .pop count => tag 2 ++ word count
  | .constant index => tag 3 ++ word index
  | .nil => tag 4
  | .bool b => tag 5 ++ bool b
  | .int i => tag 6 ++ signedWord i
  | .loadLocal index => tag 7 ++ word index
  | .storeLocal index => tag 8 ++ word index
  | .importSymbol index => tag 9 ++ word index
  | .makeClosure index => tag 10 ++ word index
  | .jump displacement => tag 11 ++ signedWord displacement
  | .jumpUnless displacement => tag 12 ++ signedWord displacement
  | .call arguments => tag 13 ++ word arguments
  | .ret => tag 14
  | .send => tag 15
  | .receive displacement => tag 16 ++ signedWord displacement
  | .remove => tag 17
  | .rewind => tag 18

/-- A reference into the string table. -/
def stringRef (r : StringRef) : Bytes :=
  word r.index

/-- An entry of a constant pool. -/
def constant : Constant StringRef → Bytes
  | .int i => tag 0 ++ number 8 i.toUInt64.toNat
  | .text r => tag 1 ++ stringRef r
  | .real x => tag 2 ++ number 8 x.bits.toNat

/-- An entry of an import table. -/
def importEntry (i : Import StringRef) : Bytes :=
  stringRef i.module ++ stringRef i.name

mutual

/-- A draft with all that is nested in it. -/
def draft : Draft → Bytes
  | { source, symbol, upvalues, arguments, locals, code, constants, imports, nested } =>
    stringRef source ++ stringRef symbol ++ byte upvalues ++ byte arguments ++ byte locals ++
      list instruction code.toList ++ list constant constants.toList ++
      list importEntry imports.toList ++ (number 8 nested.length ++ drafts nested)

/-- Drafts, one after the other. -/
def drafts : List Draft → Bytes
  | [] => []
  | d :: ds => draft d ++ drafts ds

end

/-! ### Reading -/

/-- Reads a number of 32 bits. -/
def readWord : Reader UInt32 :=
  UInt32.ofNat <$> readNumber 4

/-- Reads a signed number of 32 bits. -/
def readSignedWord : Reader Int32 :=
  UInt32.toInt32 <$> readWord

/-- Reads a number of 64 bits. -/
def readLong : Reader UInt64 :=
  UInt64.ofNat <$> readNumber 8

/-- Reads an instruction. -/
def readInstruction : Reader Instruction := do
  match ← readNumber 4 with
  | 0 => return .nop
  | 1 => return .breakpoint
  | 2 => .pop <$> readWord
  | 3 => .constant <$> readWord
  | 4 => return .nil
  | 5 => .bool <$> readBool
  | 6 => .int <$> readSignedWord
  | 7 => .loadLocal <$> readWord
  | 8 => .storeLocal <$> readWord
  | 9 => .importSymbol <$> readWord
  | 10 => .makeClosure <$> readWord
  | 11 => .jump <$> readSignedWord
  | 12 => .jumpUnless <$> readSignedWord
  | 13 => .call <$> readWord
  | 14 => return .ret
  | 15 => return .send
  | 16 => .receive <$> readSignedWord
  | 17 => return .remove
  | 18 => return .rewind
  | n => throw (.badTag n 19)

/-- Reads a reference into the string table. -/
def readStringRef : Reader StringRef :=
  StringRef.mk <$> readWord

/-- Reads an entry of a constant pool. -/
def readConstant : Reader (Constant StringRef) := do
  match ← readNumber 4 with
  | 0 => return .int (← readLong).toInt64
  | 1 => .text <$> readStringRef
  | 2 => return .real ⟨← readLong⟩
  | n => throw (.badTag n 3)

/-- Reads an entry of an import table. -/
def readImport : Reader (Import StringRef) := do
  let module ← readStringRef
  let name ← readStringRef
  return { module, name }

/-- Reads a draft with all that is nested in it, down to `depth` levels below it. A level
takes at least one byte, so with as many levels as bytes the bytes run out first. -/
def readDraft : (depth : Nat) → Reader Draft
  | 0 => throw .unexpectedEnd
  | depth + 1 => do
    let source ← readStringRef
    let symbol ← readStringRef
    let upvalues ← readByte
    let arguments ← readByte
    let locals ← readByte
    let code ← readList readInstruction
    let constants ← readList readConstant
    let imports ← readList readImport
    let nested ← readList (readDraft depth)
    return { source, symbol, upvalues, arguments, locals, code := code.toArray,
             constants := constants.toArray, imports := imports.toArray, nested }

end ActorMachine.Wire
