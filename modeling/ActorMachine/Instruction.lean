/-!
# Instructions

The instruction set and its written form: a mnemonic, followed by the operand of the
instructions that have one. Displacements of jumps count from the jump itself.
-/

namespace ActorMachine

/-- An instruction of the machine. -/
inductive Instruction
  /-- Does nothing. -/
  | nop
  /-- Reported to observers; otherwise does nothing. -/
  | breakpoint
  /-- Discards values from the top. -/
  | pop (count : UInt32)
  /-- Pushes an entry of the constant pool. -/
  | constant (index : UInt32)
  /-- Pushes nil. -/
  | nil
  /-- Pushes a boolean. -/
  | bool (b : Bool)
  /-- Pushes a small integer. -/
  | int (i : Int32)
  /-- Pushes a local: arguments come first, then upvalues, then local variables. -/
  | loadLocal (index : UInt32)
  /-- Moves the top value into a local. -/
  | storeLocal (index : UInt32)
  /-- Pushes what an entry of the import table resolves to. -/
  | importSymbol (index : UInt32)
  /-- Makes a closure of a nested prototype, taking its upvalues from the top. -/
  | makeClosure (index : UInt32)
  /-- Jumps. -/
  | jump (displacement : Int32)
  /-- Takes the top value and jumps if it counts as false. -/
  | jumpUnless (displacement : Int32)
  /-- Calls the value below the given number of arguments. -/
  | call (arguments : UInt32)
  /-- Returns the top value. -/
  | ret
  /-- Takes a message and, below it, a pid, and sends the one to the other. -/
  | send
  /-- Receives the next message; the timeout is on top. Jumps when it has run out. -/
  | receive (displacement : Int32)
  /-- Removes the message that the last receive bound. -/
  | remove
  /-- Starts the scan of the mailbox over. -/
  | rewind
deriving DecidableEq, Repr, Inhabited

namespace Instruction

/-- The written name of an instruction. -/
def mnemonic : Instruction → String
  | nop => "nop"
  | breakpoint => "brk"
  | pop _ => "pop"
  | constant _ => "ldk"
  | nil => "nil"
  | bool _ => "ldb"
  | int _ => "lsi"
  | loadLocal _ => "llv"
  | storeLocal _ => "slv"
  | importSymbol _ => "imp"
  | makeClosure _ => "cls"
  | jump _ => "jmp"
  | jumpUnless _ => "jin"
  | call _ => "ivk"
  | ret => "ret"
  | send => "snd"
  | receive _ => "rcv"
  | remove => "rmv"
  | rewind => "rwd"

/-- The operand of an instruction, as written. -/
def operandText? : Instruction → Option String
  | pop n | constant n | loadLocal n | storeLocal n | importSymbol n | makeClosure n
  | call n => some (toString n.toNat)
  | bool b => some (if b then "true" else "false")
  | int i | jump i | jumpUnless i | receive i => some (toString i.toInt)
  | nop | breakpoint | nil | ret | send | remove | rewind => none

/-- The written form of an instruction. -/
def text (i : Instruction) : String :=
  match i.operandText? with
  | some operand => i.mnemonic ++ " " ++ operand
  | none => i.mnemonic

/-- Reads an operand that is a natural number of 32 bits. -/
private def readIndex? (s : String) : Option UInt32 := do
  let n ← s.toNat?
  if n < UInt32.size then some (UInt32.ofNat n) else none

/-- Reads an operand that is a signed number of 32 bits. -/
private def readSigned? (s : String) : Option Int32 := do
  let i ← s.toInt?
  if (Int32.ofInt i).toInt = i then some (Int32.ofInt i) else none

/-- Reads an operand that is a boolean. -/
private def readBool? (s : String) : Option Bool :=
  match s with
  | "true" => some true
  | "false" => some false
  | _ => none

/-- Reads the written form of an instruction. -/
def ofText? (s : String) : Option Instruction :=
  match s.splitOn " " with
  | ["nop"] => some nop
  | ["brk"] => some breakpoint
  | ["pop", n] => pop <$> readIndex? n
  | ["ldk", n] => constant <$> readIndex? n
  | ["nil"] => some nil
  | ["ldb", b] => bool <$> readBool? b
  | ["lsi", i] => int <$> readSigned? i
  | ["llv", n] => loadLocal <$> readIndex? n
  | ["slv", n] => storeLocal <$> readIndex? n
  | ["imp", n] => importSymbol <$> readIndex? n
  | ["cls", n] => makeClosure <$> readIndex? n
  | ["jmp", d] => jump <$> readSigned? d
  | ["jin", d] => jumpUnless <$> readSigned? d
  | ["ivk", n] => call <$> readIndex? n
  | ["ret"] => some ret
  | ["snd"] => some send
  | ["rcv", d] => receive <$> readSigned? d
  | ["rmv"] => some remove
  | ["rwd"] => some rewind
  | _ => none

end Instruction

end ActorMachine
