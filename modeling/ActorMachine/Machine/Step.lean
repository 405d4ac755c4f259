import ActorMachine.Builtin.Run
import ActorMachine.Loader.Basic
import ActorMachine.Actor.Call
import ActorMachine.Actor.Recovery

/-!
# One instruction

`step` executes the instruction at the instruction pointer of the innermost frame. The
pointer moves on first, so a fault leaves it behind the instruction that raised it. An
instruction that needs the scheduler answers an `Outcome`; all others answer none.

The instruction pointer beyond the last instruction acts as a return.
-/

namespace ActorMachine

/-- Why an actor hands control back. -/
inductive Outcome
  /-- A message is to be delivered. -/
  | send (receiver : Pid) (payload : Payload)
  /-- A new actor is wanted. Its pid goes to the top of the stack; under a protected call, a
  failure to start it becomes the result of that call. -/
  | newActor (callee : Payload) (args : List Payload) (guarded : Bool)
  /-- A breakpoint was executed. -/
  | breakpoint (ip : Nat)
  /-- The others are to run. -/
  | giveWay
  /-- A receive found no message and will be tried again. -/
  | block (deadline : Option Time)
  /-- The actor sleeps. -/
  | sleep (deadline : Time)
  /-- The first function returned. -/
  | exit (result : Value)
  /-- A fault was not caught. -/
  | trap (fault : Fault)
deriving Inhabited

namespace Machine

open Actor (Action onStack onHeap onMailbox push attempt)

/-- The entry of a table that an operand addresses; `what` names it in the message. -/
def operand {α : Type} (entry : Option α) (index : UInt32) (what : String) :
    Except Fault α :=
  match entry with
  | some a => .ok a
  | none => .error (.badOperand what index.toNat)

/-- Where a jump leads. Beyond the last instruction there is one more place to jump to. -/
def jumpTarget (ip : Nat) (displacement : Int32) (length : Nat) : Except Fault Nat :=
  let target := (ip : Int) + displacement.toInt
  if target < 0 ∨ (length : Int) < target then .error (.badJump target) else .ok target.toNat

/-- The stack slot of a local. -/
def localSlot (f : Frame) (index : UInt32) : Except Fault Nat :=
  if index.toNat < f.routine.prototype.frameSize then
    .ok (f.base + index.toNat)
  else
    .error (.badOperand "local" index.toNat)

/-- Sets the instruction pointer of the innermost frame. -/
def setIp (ip : Nat) : Action Unit :=
  modify fun p =>
    match p.frames with
    | f :: outer => { p with frames := { f with ip } :: outer }
    | [] => p

/-- Returns from the innermost frame. The result is the top value if there is one above the
locals, else nil. It takes the place of the callee, behind true if the call was guarded. -/
def returnFrom (f : Frame) : Action (Option Outcome) := do
  let stack := (← get).stack
  let result :=
    if f.base + f.routine.prototype.frameSize < stack.size then stack.top?.getD .nil
    else .nil
  let outer := (← get).frames.tail
  -- The frame is gone before anything is pushed: no guard of its own catches a full stack.
  modify fun p => { p with frames := outer, stack := p.stack.truncate f.calleeSlot }
  if outer.isEmpty then
    push result
    return some (.exit result)
  if f.guarded then
    push (.bool true)
  push result
  return none

/-- What a request of a native means for the scheduler. -/
def outcomeOf (now : Time) (guarded : Bool) : Request → Outcome
  | .giveWay => .giveWay
  | .sleep delay => .sleep (now + delay)
  | .newActor callee args => .newActor callee args guarded

/-- Calls an ordinary native. A guarded call that fails leaves false and the description of
the fault, and drops what the native has asked for. -/
def callBuiltin (builtin : Builtin) (now : Time) (calleeSlot : Nat) (guarded : Bool) :
    Action (Option Outcome) := do
  let stack := (← get).stack
  -- The arguments stay on the stack, where the collector finds them, while the native runs.
  let args := stack.values.extract (calleeSlot + 1) stack.size
  match ← attempt (builtin.run args) with
  | .ok result =>
    Actor.truncateStack calleeSlot
    if guarded then
      push (.bool true)
    push result
    return (← Actor.takeRequest).map (outcomeOf now guarded)
  | .error fault =>
    if guarded then
      Actor.truncateStack calleeSlot
      Actor.pushFailure fault
      discard Actor.takeRequest
      return none
    else
      throw fault

/-- The native behind a number, if it takes this many arguments. -/
def nativeFor (loader : Loader) (id : NativeId) (nargs : Nat) : Except Fault NativeBody := do
  let some native := loader.native? id | throw (.badOperand "native" id.index)
  match native.arity with
  | some arity => if arity ≠ nargs then throw (.arityMismatch arity nargs)
  | none => pure ()
  return native.body

/-- Calls the value below the top `nargs` values. A protected call takes itself off the
stack and calls its first argument with the others; if that call does not even start, the
fault becomes its result at once, for there is no frame yet to catch it. -/
def invoke (loader : Loader) (now : Time) (nargs : Nat) (guarded : Bool) :
    Action (Option Outcome) := do
  let size := (← get).stack.size
  if size ≤ nargs then
    throw (.stackUnderflow (nargs + 1) size)
  let calleeSlot := size - nargs - 1
  match ← ofExcept ((← get).stack.slot calleeSlot) with
  | .ref r =>
    if r.kind ≠ .closure then
      throw (.notCallable r.kind.name)
    Actor.enter calleeSlot nargs guarded
    return none
  | .native id =>
    match ← ofExcept (nativeFor loader id nargs) with
    | .function builtin => callBuiltin builtin now calleeSlot guarded
    | .protectedCall =>
      match nargs with
      | 0 => throw (.arityMismatch 1 0)
      | nargs + 1 =>
        discard <| onStack (Stack.removeSlot calleeSlot)
        let depth := (← get).frames.length
        match ← attempt (invoke loader now nargs true) with
        | .ok outcome => return outcome
        | .error fault =>
          -- A call that has got a frame is caught by unwinding to that frame.
          if (← get).frames.length = depth then
            Actor.truncateStack calleeSlot
            Actor.pushFailure fault
            return none
          else
            throw fault
  | v => throw (.notCallable v.typeName)

/-- How long a receive may wait; the timeout is on top of the stack. -/
def receiveTimeout (stack : Stack) : Except Fault (Option Time) :=
  match stack.top? with
  | some .nil => .ok none
  | some (.int milliseconds) => .ok (some milliseconds.toInt.toNat)
  | some v => .error (v.mismatch "integer")
  | none => .error (.stackUnderflow 1 0)

/-- Binds the message at the cursor of the mailbox, if there is one. -/
def takeMessage? : Action (Option Value) :=
  onMailbox do
    match (← get).receive? with
    | some (v, mailbox) => MonadStateOf.set mailbox; return some v
    | none => return none

/-- Receives: a message takes the place of the timeout; if there is none and the deadline,
which the first attempt fixes, has passed, the timeout is dropped and the jump is taken;
else the instruction will be tried again. -/
def receive (now : Time) (ip : Nat) (displacement : Int32) (length : Nat) :
    Action (Option Outcome) := do
  let timeout ← ofExcept (receiveTimeout (← get).stack)
  let target ← ofExcept (jumpTarget ip displacement length)
  -- A message wins even over a deadline that has passed.
  if let some message ← takeMessage? then
    onStack (Stack.pop 1)
    push message
    return none
  let fixed := (← get).receiveDeadline
  let deadline := timeout.map fun delay => fixed.getD (now + delay)
  if deadline.isSome then
    modify fun p => { p with receiveDeadline := deadline }
  if deadline.any (· ≤ now) then
    modify fun p => { p with receiveDeadline := none }
    onStack (Stack.pop 1)
    setIp target
    return none
  setIp ip
  return some (.block deadline)

/-- Sends the top value to the pid below it. -/
def send : Action (Option Outcome) := do
  let message ← onStack Stack.popValue
  match ← onStack Stack.popValue with
  | .pid receiver =>
    return some (.send receiver (← ofExcept (Payload.capture (← get).heap message)))
  | v => throw (v.mismatch "pid")

/-- Pushes what an import resolves to. A function becomes a closure without upvalues of its
own: as many nils as it declares. -/
def importSymbol (loader : Loader) (i : Import String) : Action Unit := do
  match ← ofExcept (loader.resolve i.module i.name) with
  | .native id => push (.native id)
  | .function routine =>
    Actor.pushClosure routine (Array.replicate routine.prototype.upvalues.toNat .nil)

/-- Makes a closure of a routine. Its upvalues stay on the stack until it exists. -/
def makeClosure (routine : Routine) : Action Unit := do
  let upvalues := routine.prototype.upvalues.toNat
  let size := (← get).stack.size
  if size < upvalues then
    throw (.stackUnderflow upvalues size)
  Actor.prepareHeap (HeapObject.closureBytes upvalues)
  let captured := (← get).stack.values.extract (size - upvalues) size
  let r ← onHeap (Heap.allocClosure routine captured)
  onStack (Stack.pop upvalues)
  push (.ref r)

/-- Pushes an entry of the constant pool. -/
def pushConstant : Constant String → Action Unit
  | .int i => push (.int i)
  | .real x => push (.real x)
  | .text s => Actor.pushString s

/-- Executes an instruction of a frame that stood at `ip`. -/
def execute (loader : Loader) (now : Time) (f : Frame) (ip : Nat) :
    Instruction → Action (Option Outcome)
  | .nop => return none
  | .breakpoint => return some (.breakpoint ip)
  | .pop count => do
    onStack (Stack.pop count.toNat)
    return none
  | .constant index => do
    pushConstant (← ofExcept
      (operand f.routine.prototype.constants[index.toNat]? index "constant"))
    return none
  | .nil => do
    push .nil
    return none
  | .bool b => do
    push (.bool b)
    return none
  | .int i => do
    push (.int i.toInt64)
    return none
  | .loadLocal index => do
    let slot ← ofExcept (localSlot f index)
    push (← ofExcept ((← get).stack.slot slot))
    return none
  | .storeLocal index => do
    let slot ← ofExcept (localSlot f index)
    let v ← onStack Stack.popValue
    onStack (Stack.setSlot slot v)
    return none
  | .importSymbol index => do
    importSymbol loader (← ofExcept
      (operand f.routine.prototype.imports[index.toNat]? index "import"))
    return none
  | .makeClosure index => do
    makeClosure (← ofExcept (operand (f.routine.nested? index.toNat) index "prototype"))
    return none
  | .jump displacement => do
    setIp (← ofExcept (jumpTarget ip displacement f.routine.prototype.code.size))
    return none
  | .jumpUnless displacement => do
    let target ← ofExcept (jumpTarget ip displacement f.routine.prototype.code.size)
    let condition ← onStack Stack.popValue
    if !condition.isTruthy then
      setIp target
    return none
  | .call nargs => invoke loader now nargs.toNat false
  | .ret => returnFrom f
  | .send => send
  | .receive displacement => receive now ip displacement f.routine.prototype.code.size
  | .remove => do
    discard <| onMailbox Mailbox.remove
    modify fun p => { p with receiveDeadline := none }
    return none
  | .rewind => do
    modify fun p => { p with mailbox := p.mailbox.rewind }
    return none

/-- Executes the next instruction. Without a frame the actor has nothing left to do. -/
def step (loader : Loader) (now : Time) : Action (Option Outcome) := do
  match (← get).frames with
  | [] => return some (.exit .nil)
  | f :: _ =>
    setIp (f.ip + 1)
    match f.routine.prototype.code[f.ip]? with
    | some instruction => execute loader now f f.ip instruction
    | none => returnFrom f

end Machine

end ActorMachine
