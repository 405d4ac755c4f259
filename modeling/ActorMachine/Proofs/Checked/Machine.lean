import ActorMachine.Proofs.Checked.Loader
import ActorMachine.Proofs.Machine.Jumps

/-!
# Instructions that can crash

The machine finds the callee of a call and the upvalues of a new closure by differences of sizes,
and slices the stack there. What makes this right is checked just before, or holds because nothing
that comes in between changes the stack.

* `Machine.Checked`: the instructions with what they take for granted.
* `secureAt_execute`, `secure_step`: no instruction crashes on a firm actor, whatever its operands
  and its values are, and the actor stays firm.
-/

namespace ActorMachine.Machine

open Crashing
open Actor (Action Firm AsksFits AsksFirm asksFits_firm asksFirm_firm)

variable {p : Actor} {loader : Loader} {now : Time} {f : Frame}

/-! ### What the instructions take for granted -/

namespace Checked

open Actor.Checked (onStack onHeap push attempt)

/-- Returns from the innermost frame. -/
def returnFrom (f : Frame) : Crashing Actor (Option Outcome) := do
  let stack := (← get).stack
  let result :=
    if f.base + f.routine.prototype.frameSize < stack.size then stack.top?.getD .nil
    else .nil
  let outer := (← get).frames.tail
  modify fun p => { p with frames := outer, stack := p.stack.truncate f.calleeSlot }
  if outer.isEmpty then
    push result
    return some (.exit result)
  if f.guarded then
    push (.bool true)
  push result
  return none

/-- Calls an ordinary native with what is above the callee. -/
def callBuiltin (builtin : Builtin) (now : Time) (calleeSlot : Nat) (guarded : Bool) :
    Crashing Actor (Option Outcome) := do
  let stack := (← get).stack
  let args ← grant (slice stack.values (calleeSlot + 1) stack.size)
  match ← attempt (Builtin.Checked.run builtin args) with
  | .ok result =>
    sure (Actor.truncateStack calleeSlot)
    if guarded then
      push (.bool true)
    push result
    return (← sure Actor.takeRequest).map (outcomeOf now guarded)
  | .error fault =>
    if guarded then
      sure (Actor.truncateStack calleeSlot)
      Actor.Checked.pushFailure fault
      discard <| sure Actor.takeRequest
      return none
    else
      fail fault

/-- Takes a protected call off the stack and makes the call that it is about, `call`, which has one
argument less. -/
def protect (nargs calleeSlot : Nat) (call : Crashing Actor (Option Outcome)) :
    Crashing Actor (Option Outcome) := do
  discard <| onStack (Stack.Checked.removeSlot calleeSlot)
  let depth := (← get).frames.length
  let _ ← grant (minus nargs 1)
  match ← attempt call with
  | .ok outcome => return outcome
  | .error fault =>
    if (← get).frames.length = depth then
      sure (Actor.truncateStack calleeSlot)
      Actor.Checked.pushFailure fault
      return none
    else
      fail fault

/-- Calls the value below the top `nargs` values. If it is the protected call, `protectedCall` says
what to do with its slot. -/
@[irreducible]
def dispatch (loader : Loader) (now : Time) (nargs : Nat) (guarded : Bool)
    (protectedCall : Nat → Crashing Actor (Option Outcome)) : Crashing Actor (Option Outcome) := do
  let size := (← get).stack.size
  if size ≤ nargs then
    fail (.stackUnderflow (nargs + 1) size)
  let above ← grant (minus size nargs)
  let calleeSlot ← grant (minus above 1)
  match ← look ((← get).stack.slot calleeSlot) with
  | .ref r =>
    if r.kind ≠ .closure then
      fail (.notCallable r.kind.name)
    Actor.Checked.enter calleeSlot nargs guarded
    return none
  | .native id =>
    match ← look (nativeFor loader id nargs) with
    | .function builtin => callBuiltin builtin now calleeSlot guarded
    | .protectedCall => protectedCall calleeSlot
  | v => fail (.notCallable v.typeName)

/-- Calls the value below the top `nargs` values. -/
def invoke (loader : Loader) (now : Time) (nargs : Nat) (guarded : Bool) :
    Crashing Actor (Option Outcome) :=
  dispatch loader now nargs guarded fun calleeSlot =>
    match nargs with
    | 0 => fail (.arityMismatch 1 0)
    | fewer + 1 => protect nargs calleeSlot (invoke loader now fewer true)

/-- Receives a message, or jumps once the deadline has passed. -/
def receive (now : Time) (ip : Nat) (displacement : Int32) (length : Nat) :
    Crashing Actor (Option Outcome) := do
  let timeout ← look (receiveTimeout (← get).stack)
  let target ← look (jumpTarget ip displacement length)
  if let some message ← sure takeMessage? then
    onStack (Stack.Checked.pop 1)
    push message
    return none
  let fixed := (← get).receiveDeadline
  let deadline := timeout.map fun delay => fixed.getD (now + delay)
  if deadline.isSome then
    modify fun p => { p with receiveDeadline := deadline }
  if deadline.any (· ≤ now) then
    modify fun p => { p with receiveDeadline := none }
    onStack (Stack.Checked.pop 1)
    sure (setIp target)
    return none
  sure (setIp ip)
  return some (.block deadline)

/-- Sends the top value to the pid below it. -/
def send : Crashing Actor (Option Outcome) := do
  let message ← onStack (sure Stack.popValue)
  match ← onStack (sure Stack.popValue) with
  | .pid receiver =>
    return some (.send receiver (← ofExcept (Payload.Checked.capture (← get).heap message)))
  | v => fail (v.mismatch "pid")

/-- Pushes what an import resolves to. -/
def importSymbol (loader : Loader) (i : Import String) : Crashing Actor Unit := do
  match ← look (loader.resolve i.module i.name) with
  | .native id => push (.native id)
  | .function routine =>
    Actor.Checked.pushClosure routine (Array.replicate routine.prototype.upvalues.toNat .nil)

/-- Makes a closure of a routine with the upvalues on top of the stack. -/
def makeClosure (routine : Routine) : Crashing Actor Unit := do
  let upvalues := routine.prototype.upvalues.toNat
  let size := (← get).stack.size
  if size < upvalues then
    fail (.stackUnderflow upvalues size)
  Actor.Checked.prepareHeap (HeapObject.closureBytes upvalues)
  let stack := (← get).stack
  let first ← grant (minus size upvalues)
  let captured ← grant (slice stack.values first stack.size)
  let r ← onHeap (Heap.Checked.allocClosure routine captured)
  onStack (Stack.Checked.pop upvalues)
  push (.ref r)

/-- Pushes an entry of the constant pool. -/
def pushConstant : Constant String → Crashing Actor Unit
  | .int i => push (.int i)
  | .real x => push (.real x)
  | .text s => Actor.Checked.pushString s

/-- Executes an instruction of a frame that stood at `ip`. -/
def execute (loader : Loader) (now : Time) (f : Frame) (ip : Nat) :
    Instruction → Crashing Actor (Option Outcome)
  | .nop => return none
  | .breakpoint => return some (.breakpoint ip)
  | .pop count => do
    onStack (Stack.Checked.pop count.toNat)
    return none
  | .constant index => do
    pushConstant (← look
      (operand f.routine.prototype.constants[index.toNat]? index "constant"))
    return none
  | .nil => do
    push .nil
    return none
  | .bool b => do
    push (.bool b)
    return none
  | .int i => do
    push (.int i.toInt64)
    return none
  | .loadLocal index => do
    let slot ← look (localSlot f index)
    push (← look ((← get).stack.slot slot))
    return none
  | .storeLocal index => do
    let slot ← look (localSlot f index)
    let v ← onStack (sure Stack.popValue)
    onStack (sure (Stack.setSlot slot v))
    return none
  | .importSymbol index => do
    importSymbol loader (← look
      (operand f.routine.prototype.imports[index.toNat]? index "import"))
    return none
  | .makeClosure index => do
    makeClosure (← look (operand (f.routine.nested? index.toNat) index "prototype"))
    return none
  | .jump displacement => do
    sure (setIp (← look (jumpTarget ip displacement f.routine.prototype.code.size)))
    return none
  | .jumpUnless displacement => do
    let target ← look (jumpTarget ip displacement f.routine.prototype.code.size)
    let condition ← onStack (sure Stack.popValue)
    if !condition.isTruthy then
      sure (setIp target)
    return none
  | .call nargs => invoke loader now nargs.toNat false
  | .ret => returnFrom f
  | .send => send
  | .receive displacement => receive now ip displacement f.routine.prototype.code.size
  | .remove => do
    discard <| sure (Actor.onMailbox Mailbox.remove)
    modify fun p => { p with receiveDeadline := none }
    return none
  | .rewind => do
    modify fun p => { p with mailbox := p.mailbox.rewind }
    return none

/-- Executes the next instruction. -/
def step (loader : Loader) (now : Time) : Crashing Actor (Option Outcome) := do
  match (← get).frames with
  | [] => return some (.exit .nil)
  | f :: _ =>
    sure (setIp (f.ip + 1))
    match f.routine.prototype.code[f.ip]? with
    | some instruction => execute loader now f f.ip instruction
    | none => returnFrom f

end Checked

/-! ### Calls and returns -/

/-- Something is done, and the actor goes on. -/
theorem secure_goOn {checked : Crashing Actor Unit} {act : Action Unit} {inv : Actor → Prop}
    (hact : Secure inv checked act fun _ => True) :
    Secure inv (do checked; return none) (do act; return (none : Option Outcome)) fun _ => True :=
  hact.bind fun _ _ => secure_pure trivial

/-- The result of a call comes behind true if the call was guarded. -/
theorem secure_pushResult {α : Type} {post : α → Prop} (v : Value) (guarded : Bool)
    {checked : Crashing Actor α} {act : Action α} (hact : Secure Firm checked act post) :
    Secure Firm (do
      if guarded then Actor.Checked.push (.bool true)
      Actor.Checked.push v
      checked) (do
      if guarded then Actor.push (.bool true)
      Actor.push v
      act) post := by
  have hlast := (Actor.secure_push v asksFits_firm).bind fun _ _ => hact
  dsimp only
  split
  next => exact (Actor.secure_push _ asksFits_firm).bind fun _ _ => hlast
  next => exact hlast

theorem secure_returnFrom (f : Frame) :
    Secure Firm (Checked.returnFrom f) (returnFrom f) fun _ => True := by
  refine secure_get_bind fun p _ => secure_get_bind fun q hq => ?_
  have hreturned : Secure Firm
      (modify fun p => { p with frames := q.frames.tail, stack := p.stack.truncate f.calleeSlot })
      (modify fun p => { p with frames := q.frames.tail, stack := p.stack.truncate f.calleeSlot })
      fun _ => True :=
    secure_modify fun p hp =>
      ⟨hp.stack.truncate _, hp.heap, fun g hg => hq.frames g (List.mem_of_mem_tail hg)⟩
  refine hreturned.bind fun _ _ => ?_
  dsimp only
  split
  next => exact (Actor.secure_push _ asksFits_firm).bind fun _ _ => secure_pure trivial
  next => exact secure_pushResult _ f.guarded (secure_pure trivial)

theorem secure_takeRequest :
    Secure Firm (sure Actor.takeRequest) Actor.takeRequest fun _ => True :=
  secure_sure (upholds_modifyGet fun _ hp => ⟨⟨hp.stack, hp.heap, hp.frames⟩, trivial⟩)

/-- A failure is reported where the callee was. -/
theorem secure_report {α : Type} {post : α → Prop} (calleeSlot : Nat) (fault : Fault)
    {checked : Crashing Actor α} {act : Action α} (hact : Secure Firm checked act post) :
    Secure Firm (do
      sure (Actor.truncateStack calleeSlot)
      Actor.Checked.pushFailure fault
      checked) (do
      Actor.truncateStack calleeSlot
      Actor.pushFailure fault
      act) post :=
  (Actor.secure_truncateStack calleeSlot).bind fun _ _ =>
    (Actor.secure_pushFailure fault).bind fun _ _ => hact

/-- The arguments that the function takes for granted are above the callee. -/
theorem secureAt_callBuiltin {builtin : Builtin} {calleeSlot : Nat} (hp : p.Firm)
    (hargs : calleeSlot + 1 + builtin.presumed ≤ p.stack.size) (guarded : Bool) :
    SecureAt Firm (Checked.callBuiltin builtin now calleeSlot guarded)
      (callBuiltin builtin now calleeSlot guarded) (fun _ => True) p := by
  have hstart : calleeSlot + 1 ≤ p.stack.size := (Nat.le_add_right _ _).trans hargs
  -- These are all values above the callee, so there are enough of them.
  have hpresumed :
      builtin.presumed ≤ (p.stack.values.extract (calleeSlot + 1) p.stack.size).size := by
    rw [Array.size_extract, Stack.size, Nat.min_self]
    exact Nat.le_sub_of_add_le' hargs
  refine secureAt_get_bind (secureAt_grant (slice_eq_ok hstart (Nat.le_refl _)) ?_)
  refine Secure.secureAt (Secure.bind (Actor.secure_attempt (Builtin.secure_run builtin hpresumed))
    fun result _ => ?_) hp
  cases result with
  | ok result =>
    refine (Actor.secure_truncateStack calleeSlot).bind fun _ _ => ?_
    exact secure_pushResult result guarded (secure_takeRequest.bind fun _ _ => secure_pure trivial)
  | error fault =>
    dsimp only
    split
    next => exact secure_report calleeSlot fault (secure_goOn secure_takeRequest.discard)
    next => exact secure_fail fault

/-- A protected call is secure if the call that it is about is. -/
theorem secure_protect {nargs : Nat} (hnargs : 1 ≤ nargs) (calleeSlot : Nat)
    {checked : Crashing Actor (Option Outcome)} {act : Action (Option Outcome)}
    (hcall : Secure Firm checked act fun _ => True) :
    Secure Firm (Checked.protect nargs calleeSlot checked) (do
      discard <| Actor.onStack (Stack.removeSlot calleeSlot)
      let depth := (← get).frames.length
      match ← Actor.attempt act with
      | .ok outcome => return outcome
      | .error fault =>
        if (← get).frames.length = depth then
          Actor.truncateStack calleeSlot
          Actor.pushFailure fault
          return none
        else
          throw fault) fun _ => True := by
  -- There is an argument to count off, for the function to call is one.
  refine (Actor.secure_onStack (Stack.secure_removeSlot _) asksFits_firm).discard.bind
    fun _ _ => secure_get_bind fun depth _ => secure_grant (minus_eq_ok hnargs) ?_
  refine (Actor.secure_attempt hcall).bind fun result _ => ?_
  cases result with
  | ok outcome => exact secure_pure trivial
  | error fault =>
    refine secure_get_bind fun q _ => ?_
    split
    next => exact secure_report _ fault (secure_pure trivial)
    next => exact secure_fail fault

/-- A protected call is a call with fewer arguments. -/
theorem secure_invoke (hloader : loader.Fitting) (nargs : Nat) (guarded : Bool) :
    Secure Firm (Checked.invoke loader now nargs guarded) (invoke loader now nargs guarded)
      fun _ => True := by
  induction nargs using Nat.strongRecOn generalizing guarded with
  | _ nargs ih =>
  -- Nothing changes until the callee is found, so its slot is one of the stack that was measured.
  refine secure_of_secureAt fun p hp => ?_
  rw [invoke.eq_def, Checked.invoke.eq_def, Checked.dispatch]
  refine secureAt_get_bind ?_
  dsimp only
  split
  next => exact (secure_fail_bind _ _ _).secureAt hp
  next hsize =>
  have hnargs : nargs < p.stack.size := Nat.not_le.1 hsize
  refine secureAt_grant (minus_eq_ok hnargs.le) (secureAt_grant (minus_eq_ok (by omega)) ?_)
  refine secureAt_get_bind (secureAt_look hp fun callee _ => ?_)
  cases callee with
  | ref r =>
    dsimp only
    split
    next => exact (secure_fail_bind _ _ _).secureAt hp
    next => exact (secure_goOn (Actor.secure_enter _ nargs guarded)).secureAt hp
  | native number =>
    refine secureAt_look hp fun body hbody => ?_
    have hpresumed := Loader.presumed_le_of_nativeFor hloader hbody
    cases body with
    | function builtin =>
      refine secureAt_callBuiltin hp ?_ guarded
      rw [NativeBody.presumed] at hpresumed
      omega
    | protectedCall =>
      refine Secure.secureAt ?_ hp
      cases nargs with
      | zero => exact secure_fail _
      | succ nargs =>
        have hcall := ih nargs (Nat.lt_succ_self nargs) true
        exact secure_protect (Nat.le_add_left 1 nargs) _ hcall
  | _ => exact (secure_fail _).secureAt hp

/-! ### Jumps -/

/-- The actor is firm, and the code of its innermost frame has this length. -/
structure InCode (length : Nat) (p : Actor) : Prop where
  /-- It is firm. -/
  firm : p.Firm
  /-- This is how long the code of the innermost frame is. -/
  length : ∀ f outer, p.frames = f :: outer → f.routine.prototype.code.size = length

theorem inCode_of_frames {outer : List Frame} (hp : p.Firm) (hframes : p.frames = f :: outer) :
    InCode f.routine.prototype.code.size p where
  firm := hp
  length g rest hg := by
    obtain ⟨rfl, -⟩ := List.cons.inj (hframes.symm.trans hg)
    rfl

theorem asksFits_inCode (length : Nat) : AsksFits (InCode length) :=
  fun p hp => ⟨hp.firm.stack, fun _ hstack => ⟨(asksFits_firm p hp.firm).2 _ hstack, hp.length⟩⟩

/-- The mailbox is looked at with care. -/
theorem secure_onMailbox {α : Type} {inv : Actor → Prop} (act : EStateM Fault Mailbox α)
    (hinv : ∀ p, inv p → ∀ mailbox : Mailbox, inv { p with mailbox }) :
    Secure inv (sure (Actor.onMailbox act)) (Actor.onMailbox act) fun _ => True := by
  refine secure_sure fun p hp => ?_
  rw [Actor.ensures_onMailbox]
  exact (ensures_result act p.mailbox).mono (fun _ _ _ => ⟨hinv p hp _, trivial⟩)
    fun _ _ _ => hinv p hp _

/-- Every place from the first instruction up to the end of the code may be jumped to. -/
theorem secure_setIp {ip length : Nat} (hip : ip ≤ length) :
    Secure (InCode length) (sure (setIp ip)) (setIp ip) fun _ => True := by
  refine secure_modify fun p hp => ?_
  split
  next f outer hframes =>
    have hlength := hp.length f outer hframes
    have hall := hp.firm.frames
    rw [hframes, List.forall_mem_cons] at hall
    refine ⟨⟨hp.firm.stack, hp.firm.heap, List.forall_mem_cons.2 ⟨?_, hall.2⟩⟩, ?_⟩
    · exact hip.trans (Nat.le_of_eq hlength.symm)
    · rintro _ _ ⟨⟩
      exact hlength
  next => exact hp

/-- A receive has found the timeout on the stack before it looks for a message, and both its jumps
stay in the code. -/
theorem secure_receive {ip length : Nat} (hip : ip ≤ length) (displacement : Int32) :
    Secure (InCode length) (Checked.receive now ip displacement length)
      (receive now ip displacement length) fun _ => True := by
  refine secure_get_bind fun p _ => secure_look fun timeout _ => ?_
  refine secure_look fun target htarget => ?_
  have hle := le_of_jumpTarget htarget
  have htake : Secure (InCode length) (sure takeMessage?) takeMessage? fun _ => True :=
    secure_onMailbox _ fun p hp _ =>
      ⟨⟨hp.firm.stack, hp.firm.heap, hp.firm.frames⟩, hp.length⟩
  have hpop := Actor.secure_onStack (Stack.secure_pop 1) (asksFits_inCode length)
  refine htake.bind fun message _ => ?_
  cases message with
  | some message =>
    exact hpop.bind fun _ _ => secure_goOn (Actor.secure_push message (asksFits_inCode length))
  | none =>
    -- The deadline is set or left as it is; the rest is the same in both cases.
    have hset (deadline : Option Time) : Secure (InCode length)
        (modify fun p => { p with receiveDeadline := deadline })
        (modify fun p => { p with receiveDeadline := deadline }) fun _ => True :=
      secure_modify fun p hp => ⟨⟨hp.firm.stack, hp.firm.heap, hp.firm.frames⟩, hp.length⟩
    have hwait (deadline : Option Time) : Secure (InCode length) (do
        if deadline.any (· ≤ now) then
          modify fun p => { p with receiveDeadline := none }
          Actor.Checked.onStack (Stack.Checked.pop 1)
          sure (setIp target)
          return none
        sure (setIp ip)
        return some (.block deadline)) (do
        if deadline.any (· ≤ now) then
          modify fun p => { p with receiveDeadline := none }
          Actor.onStack (Stack.pop 1)
          setIp target
          return none
        setIp ip
        return some (Outcome.block deadline)) fun _ => True := by
      split
      next =>
        refine (hset none).bind fun _ _ => hpop.bind fun _ _ => ?_
        exact secure_goOn (secure_setIp hle)
      next => exact (secure_setIp hip).bind fun _ _ => secure_pure trivial
    refine secure_get_bind fun q _ => ?_
    dsimp only
    split
    next => exact (hset _).bind fun _ _ => hwait _
    next => exact hwait _

/-! ### Instructions -/

theorem secure_send : Secure Firm Checked.send send fun _ => True := by
  have hpop := Actor.secure_onStack Stack.secure_popValue asksFits_firm
  refine hpop.bind fun message _ => hpop.bind fun receiver _ => ?_
  cases receiver with
  | pid receiver =>
    exact (Builtin.secure_capture message).bind fun payload _ => secure_pure trivial
  | _ => exact secure_fail _

theorem secure_importSymbol (i : Import String) :
    Secure Firm (Checked.importSymbol loader i) (importSymbol loader i) fun _ => True := by
  refine secure_look fun symbol _ => ?_
  cases symbol with
  | native number => exact Actor.secure_push _ asksFits_firm
  | function routine => exact Actor.secure_pushClosure routine _

theorem secure_makeClosure (routine : Routine) :
    Secure Firm (Checked.makeClosure routine) (makeClosure routine) fun _ => True := by
  refine secure_of_secureAt fun p hp => secureAt_get_bind ?_
  dsimp only
  split
  next => exact (secure_fail_bind _ _ _).secureAt hp
  next hsize =>
  have hcount := Nat.not_lt.1 hsize
  -- The stack is the same after a collection, which is all that can happen in between.
  have hasks : AsksFirm fun q => q.Firm ∧ q.stack = p.stack :=
    fun q hq => ⟨hq.1.heap, fun _ hheap => ⟨(asksFirm_firm q hq.1).2 _ hheap, hq.2⟩⟩
  refine Secure.secureAt_bind (Actor.secure_prepareHeap _ hasks) ⟨hp, rfl⟩ (fun _ => And.left) ?_
  rintro _ q ⟨hq, hstack⟩ -
  refine secureAt_get_bind ?_
  rw [hstack]
  refine secureAt_grant (minus_eq_ok hcount) ?_
  refine secureAt_grant (slice_eq_ok (Nat.sub_le _ _) (Nat.le_refl _)) (Secure.secureAt ?_ hq)
  have halloc := Actor.secure_onHeap (Heap.secure_allocClosure routine
    (p.stack.values.extract (p.stack.size - routine.prototype.upvalues.toNat) p.stack.size))
    asksFirm_firm
  exact halloc.bind fun r _ => (Actor.secure_onStack (Stack.secure_pop _) asksFits_firm).bind
    fun _ _ => Actor.secure_push _ asksFits_firm

theorem secure_pushConstant (constant : Constant String) :
    Secure Firm (Checked.pushConstant constant) (pushConstant constant) fun _ => True := by
  cases constant with
  | int | real => exact Actor.secure_push _ asksFits_firm
  | text s => exact Actor.secure_pushString s

/-- An instruction of the innermost frame may have any operands. -/
theorem secureAt_execute (hloader : loader.Fitting) {ip : Nat}
    (hp : InCode f.routine.prototype.code.size p) (hip : ip ≤ f.routine.prototype.code.size)
    (instruction : Instruction) :
    SecureAt Firm (Checked.execute loader now f ip instruction)
      (execute loader now f ip instruction) (fun _ => True) p := by
  -- Only a jump has to know how long the code is.
  have hfirm {checked : Crashing Actor (Option Outcome)} {act : Action (Option Outcome)}
      (h : Secure Firm checked act fun _ => True) : SecureAt Firm checked act (fun _ => True) p :=
    h.secureAt hp.firm
  have hjump {checked : Crashing Actor (Option Outcome)} {act : Action (Option Outcome)}
      (h : Secure (InCode f.routine.prototype.code.size) checked act fun _ => True) :
      SecureAt Firm checked act (fun _ => True) p :=
    (h.secureAt hp).weaken fun _ => InCode.firm
  have hpush (v : Value) := Actor.secure_push v asksFits_firm
  cases instruction with
  | nop | breakpoint => exact hfirm (secure_pure trivial)
  | pop count =>
    exact hfirm (secure_goOn (Actor.secure_onStack (Stack.secure_pop _) asksFits_firm))
  | constant index => exact hfirm (secure_look fun c _ => secure_goOn (secure_pushConstant c))
  | nil | bool | int => exact hfirm (secure_goOn (hpush _))
  | loadLocal index =>
    refine hfirm (secure_look fun slot _ => secure_get_bind fun p _ => secure_look fun v _ => ?_)
    exact secure_goOn (hpush v)
  | storeLocal index =>
    have hpop := Actor.secure_onStack Stack.secure_popValue asksFits_firm
    refine hfirm (secure_look fun slot _ => hpop.bind fun v _ => ?_)
    exact secure_goOn (Actor.secure_onStack (Stack.secure_setSlot slot v) asksFits_firm)
  | importSymbol index => exact hfirm (secure_look fun i _ => secure_goOn (secure_importSymbol i))
  | makeClosure index =>
    exact hfirm (secure_look fun routine _ => secure_goOn (secure_makeClosure routine))
  | jump displacement =>
    exact hjump (secure_look fun target htarget =>
      secure_goOn (secure_setIp (le_of_jumpTarget htarget)))
  | jumpUnless displacement =>
    refine hjump (secure_look fun target htarget => ?_)
    refine (Actor.secure_onStack Stack.secure_popValue (asksFits_inCode _)).bind
      fun condition _ => ?_
    dsimp only
    split
    next => exact secure_goOn (secure_setIp (le_of_jumpTarget htarget))
    next => exact secure_pure trivial
  | call nargs => exact hfirm (secure_invoke hloader nargs.toNat false)
  | ret => exact hfirm (secure_returnFrom f)
  | send => exact hfirm secure_send
  | receive displacement => exact hjump (secure_receive hip displacement)
  | remove =>
    have hremove := secure_onMailbox Mailbox.remove fun p (hp : Firm p) _ =>
      ⟨hp.stack, hp.heap, hp.frames⟩
    refine hfirm (hremove.discard.bind fun _ _ => secure_goOn (secure_modify fun p hp => ?_))
    exact ⟨hp.stack, hp.heap, hp.frames⟩
  | rewind =>
    exact hfirm (secure_goOn (secure_modify fun p hp => ⟨hp.stack, hp.heap, hp.frames⟩))

/-- Behind the last instruction the pointer moves out of the code, but the return that follows drops
the frame. -/
theorem secure_step (hloader : loader.Fitting) (now : Time) :
    Secure Firm (Checked.step loader now) (step loader now) fun _ => True := by
  refine secure_of_secureAt fun p hp => secureAt_get_bind ?_
  cases hframes : p.frames with
  | nil => exact (secure_pure trivial).secureAt hp
  | cons f outer =>
    dsimp only
    cases hcode : f.routine.prototype.code[f.ip]? with
    | some instruction =>
      have hip : f.ip < f.routine.prototype.code.size := (Array.getElem?_eq_some_iff.1 hcode).1
      have hin := inCode_of_frames hp hframes
      refine Secure.secureAt_bind (secure_setIp hip) hin (fun _ => InCode.firm) fun _ q hq _ => ?_
      exact secureAt_execute hloader hq hip.le instruction
    | none =>
      -- A return does not look at the pointer of the frame that it drops.
      refine ((secure_returnFrom f).secureAt hp).congr ?_ ?_
      · obtain ⟨⟩ := p
        obtain rfl := hframes
        rfl
      · obtain ⟨⟩ := p
        obtain rfl := hframes
        rfl

end ActorMachine.Machine
