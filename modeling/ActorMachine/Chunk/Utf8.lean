/-!
# Malformed UTF-8

Where and why a sequence of bytes is not the UTF-8 form of a text: either it goes wrong at
some sequence, of which the bytes that could still have begun a character are counted, or
it ends within one.
-/

namespace ActorMachine.Utf8

/-- What is wrong with a sequence of bytes. -/
inductive Malformed
  /-- No character begins with the `length` bytes from this index on and the one behind
  them. -/
  | invalid (length index : Nat)
  /-- The bytes end within the character that begins at this index. -/
  | incomplete (index : Nat)
deriving DecidableEq, Repr, Inhabited

/-- The text shown for malformed bytes. -/
def Malformed.message : Malformed → String
  | invalid length index =>
    s!"invalid utf-8 sequence of {length} bytes from index {index}"
  | incomplete index => s!"incomplete utf-8 byte sequence from index {index}"

/-- The bytes that may follow a first byte, one range for each; none if no character of
several bytes begins with it. The narrower ranges keep out overlong forms, surrogates and
numbers beyond the last character. -/
def continuations? (first : UInt8) : Option (List (UInt8 × UInt8)) :=
  if first < 0xc2 then none
  else if first < 0xe0 then some [(0x80, 0xbf)]
  else if first = 0xe0 then some [(0xa0, 0xbf), (0x80, 0xbf)]
  else if first = 0xed then some [(0x80, 0x9f), (0x80, 0xbf)]
  else if first < 0xf0 then some [(0x80, 0xbf), (0x80, 0xbf)]
  else if first = 0xf0 then some [(0x90, 0xbf), (0x80, 0xbf), (0x80, 0xbf)]
  else if first < 0xf4 then some [(0x80, 0xbf), (0x80, 0xbf), (0x80, 0xbf)]
  else if first = 0xf4 then some [(0x80, 0x8f), (0x80, 0xbf), (0x80, 0xbf)]
  else none

/-- Scans bytes from position `index` on, within a character that begins at `start` and
lacks bytes of the ranges in `expected`. -/
def scan (start index : Nat) : List (UInt8 × UInt8) → List UInt8 → Option Malformed
  | [], [] => none
  | _ :: _, [] => some (.incomplete start)
  | [], b :: bytes =>
    if b < 0x80 then
      scan (index + 1) (index + 1) [] bytes
    else
      match continuations? b with
      | some expected => scan index (index + 1) expected bytes
      | none => some (.invalid 1 index)
  | (low, high) :: expected, b :: bytes =>
    if low ≤ b ∧ b ≤ high then
      scan start (index + 1) expected bytes
    else
      some (.invalid (index - start) start)

/-- What is wrong with a sequence of bytes, if anything is. -/
def malformed? (bytes : List UInt8) : Option Malformed :=
  scan 0 0 [] bytes

end ActorMachine.Utf8
