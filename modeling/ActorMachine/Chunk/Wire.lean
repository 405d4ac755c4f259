import ActorMachine.Chunk.Utf8

/-!
# Numbers, texts and lists as bytes

The parts that chunk files are made of: numbers of fixed width with the lowest byte first,
lists as their length in eight bytes followed by their elements, and texts as the list of
the bytes of their UTF-8 form. Every written form has a reader beside it.
-/

namespace ActorMachine

/-- Why bytes could not be decoded. -/
inductive WireFault
  /-- The bytes end within a number. -/
  | unexpectedEnd
  /-- A text is longer than the bytes that are left. -/
  | textTooLong
  /-- A tag is none of the `count` alternatives. -/
  | badTag (tag count : Nat)
  /-- A byte is neither true nor false. -/
  | badBool (byte : Nat)
  /-- The bytes of a text are no UTF-8. -/
  | badText (malformed : Utf8.Malformed)
deriving DecidableEq, Repr, Inhabited

namespace WireFault

/-- The class that a fault is reported under. -/
def category : WireFault → String
  | unexpectedEnd | textTooLong => "Io"
  | badTag .. => "Custom"
  | badBool _ => "InvalidBoolEncoding"
  | badText _ => "InvalidUtf8Encoding"

/-- The text shown for a fault. -/
def message : WireFault → String
  | unexpectedEnd => "io error: unexpected end of file"
  | textTooLong => "io error: "
  | badTag tag count =>
    s!"invalid value: integer \x60{tag}\x60, expected variant index 0 <= i < {count}"
  | badBool byte => s!"invalid u8 while decoding bool, expected 0 or 1, found {byte}"
  | badText malformed => s!"string is not valid utf8: {malformed.message}"

end WireFault

namespace Wire

/-- A sequence of bytes. -/
abbrev Bytes := List UInt8

/-- Reads something off the front of a sequence of bytes. -/
abbrev Reader := StateT Bytes (Except WireFault)

/-! ### Writing -/

/-- The lowest `width` bytes of a number, the lowest first. -/
def number : (width : Nat) → Nat → Bytes
  | 0, _ => []
  | width + 1, n => UInt8.ofNat n :: number width (n / 256)

@[simp]
theorem length_number (width n : Nat) : (number width n).length = width := by
  induction width generalizing n with
  | zero => rfl
  | succ width ih => simp [number, ih]

/-- How many numbers a width tells apart. -/
def numbers : (width : Nat) → Nat
  | 0 => 1
  | width + 1 => 256 * numbers width

/-- A byte. -/
def byte (b : UInt8) : Bytes :=
  [b]

/-- A boolean. -/
def bool (b : Bool) : Bytes :=
  [if b then 1 else 0]

/-- A list of elements. -/
def list {α : Type} (write : α → Bytes) (as : List α) : Bytes :=
  number 8 as.length ++ as.flatMap write

/-- A text. -/
def text (s : String) : Bytes :=
  list byte s.toUTF8.data.toList

/-! ### Reading -/

/-- Reads a byte. -/
def readByte : Reader UInt8 := fun bytes =>
  match bytes with
  | b :: rest => .ok (b, rest)
  | [] => .error .unexpectedEnd

/-- Reads a number of `width` bytes, the lowest first. -/
def readNumber : (width : Nat) → Reader Nat
  | 0 => return 0
  | width + 1 => do
    let low ← readByte
    let high ← readNumber width
    return low.toNat + 256 * high

/-- Reading a number of a width gives back the number written, modulo what the width holds. -/
theorem readNumber_number (width n : Nat) (rest : Bytes) :
    (readNumber width).run (number width n ++ rest) = .ok (n % numbers width, rest) := by
  induction width generalizing n with
  | zero =>
    simp only [number, numbers, Nat.mod_one]
    rfl
  | succ width ih =>
    have hread : (readNumber (width + 1)).run (number (width + 1) n ++ rest) =
        ((readNumber width).run (number width (n / 256) ++ rest)).map fun p =>
          ((UInt8.ofNat n).toNat + 256 * p.1, p.2) := by
      rw [ih]
      simp only [readNumber, number, StateT.run_bind]
      change ((readNumber width).run (number width (n / 256) ++ rest) >>= _) = _
      rw [ih]
      rfl
    rw [hread, ih, numbers, Nat.mod_mul]
    simp [Except.map]

/-- Reads a boolean. -/
def readBool : Reader Bool := do
  match ← readByte with
  | 0 => return false
  | 1 => return true
  | b => throw (.badBool b.toNat)

/-- Reads a number of elements. -/
def readMany {α : Type} (read : Reader α) : Nat → Reader (List α)
  | 0 => return []
  | count + 1 => do
    let a ← read
    let as ← readMany read count
    return a :: as

/-- Reads a list of elements. -/
def readList {α : Type} (read : Reader α) : Reader (List α) := do
  readMany read (← readNumber 8)

/-- Reads the bytes of a text, all of which have to be there. -/
def readBytes (length : Nat) : Reader Bytes := fun bytes =>
  if bytes.length < length then .error .textTooLong
  else .ok (bytes.take length, bytes.drop length)

/-- The text of bytes in UTF-8. -/
def textOf (bytes : Bytes) : Except WireFault String :=
  match String.fromUTF8? ⟨bytes.toArray⟩ with
  | some s => .ok s
  | none => .error (.badText ((Utf8.malformed? bytes).getD (.incomplete 0)))

/-- Reads a text. -/
def readText : Reader String := do
  let length ← readNumber 8
  let bytes ← readBytes length
  ofExcept (textOf bytes)

end Wire

end ActorMachine
