import ActorMachine.Machine.Run
import ActorMachine.Proofs.Actor.Cleared
import ActorMachine.Proofs.Loader.Cleared
import ActorMachine.Proofs.Machine.Receiving

/-!
# Instructions with cleared breakpoints

Two actors that are the same but for breakpoints execute the same instructions, until one comes upon
a breakpoint that was cleared for the other. Then the one hands control back and the other goes on,
and they are still the same.

* `Outcome.Cleared`, `Machine.Echoes`: what both ask for.
* `agrees_step`: one instruction, whatever it is.
* `echoes_advance`: so it is with the recovery from its fault.
-/

namespace ActorMachine

/-- The second outcome is the first one with some breakpoints cleared in what it hands out. -/
inductive Outcome.Cleared : Outcome → Outcome → Prop
  /-- It is the same. -/
  | same (outcome : Outcome) : Cleared outcome outcome
  /-- The same message is to be delivered. -/
  | send (receiver : Pid) {payload payload' : Payload} (message : payload.Cleared payload') :
      Cleared (.send receiver payload) (.send receiver payload')
  /-- The same actor is wanted. -/
  | newActor {callee callee' : Payload} {args args' : List Payload} (guarded : Bool)
      (called : callee.Cleared callee') (passed : List.Forall₂ Payload.Cleared args args') :
      Cleared (.newActor callee args guarded) (.newActor callee' args' guarded)

namespace Machine

open Actor (Action Cleared push respects_onStack agrees_onHeap respects_onMailbox respects_push
  agrees_attempt)

variable {loader loader' : Loader} {now : Time} {f g : Frame} {p q : Actor}

/-- Both ask for the same or for nothing, except that the second one asks for nothing where a
breakpoint was cleared. -/
inductive Echoes : Option Outcome → Option Outcome → Prop
  /-- Both go on. -/
  | goOn : Echoes none none
  /-- Both ask for the same. -/
  | ask {outcome outcome' : Outcome} (same : outcome.Cleared outcome') :
      Echoes (some outcome) (some outcome')
  /-- The first one reports a breakpoint. -/
  | cleared (ip : Nat) : Echoes (some (.breakpoint ip)) none

/-- Something is done, and the actors go on. -/
theorem agrees_goOn {act act' : Action Unit} (hact : Agrees Cleared Eq act act') :
    Agrees Cleared Echoes (do act; return none) (do act'; return none) :=
  hact.andThen fun _ => agrees_pure .goOn

theorem respects_setIp (ip : Nat) : Respects Cleared Eq (setIp ip) := by
  refine agrees_modify fun p q h => ?_
  generalize hfs : p.frames = fs
  generalize hgs : q.frames = gs
  have hframes := h.frames
  rw [hfs, hgs] at hframes
  cases hframes with
  | nil => exact h
  | cons hfg houter =>
    exact { h with frames := .cons ⟨hfg.routine, rfl, hfg.calleeSlot, hfg.guarded⟩ houter }

theorem localSlot_eq (hfg : f.Cleared g) (index : UInt32) :
    localSlot g index = localSlot f index := by
  rw [localSlot, localSlot, hfg.routine.prototype.frameSize, hfg.base]

theorem agrees_returnFrom (hfg : f.Cleared g) :
    Agrees Cleared Echoes (returnFrom f) (returnFrom g) := by
  refine agrees_get_bind fun p q h => ?_
  dsimp only
  rw [h.stack, hfg.base, hfg.routine.prototype.frameSize, hfg.calleeSlot, hfg.guarded]
  refine agrees_get_bind fun p q h => ?_
  have houter : List.Forall₂ Frame.Cleared p.frames.tail q.frames.tail := by
    simpa using List.forall₂_drop 1 h.frames
  rw [isEmpty_eq_of_forall₂ houter]
  refine (agrees_modify fun p q h => ?_).andThen fun _ => ?_
  · exact { h with frames := houter, stack := by rw [h.stack] }
  split
  next => exact (respects_push _).andThen fun _ => agrees_pure (.ask (.same _))
  next =>
    split
    next => exact (respects_push _).andThen fun _ => agrees_goOn (respects_push _)
    next => exact agrees_goOn (respects_push _)

/-! ### Calls -/

/-- What is asked for means the same to the scheduler. -/
theorem echoes_outcomeOf (now : Time) (guarded : Bool) {request request' : Option Request}
    (h : Option.Rel Request.Cleared request request') :
    Echoes (request.map (outcomeOf now guarded)) (request'.map (outcomeOf now guarded)) := by
  cases h with
  | none => exact .goOn
  | some h =>
    cases h with
    | same => exact .ask (.same _)
    | newActor hcallee hargs => exact .ask (.newActor guarded hcallee hargs)

theorem respects_callBuiltin (builtin : Builtin) (calleeSlot : Nat) (guarded : Bool) :
    Respects Cleared Echoes (callBuiltin builtin now calleeSlot guarded) := by
  refine agrees_get_bind fun p q h => ?_
  dsimp only
  rw [h.stack]
  refine (agrees_attempt (Builtin.respects_run builtin _)).bind fun result result' hresult => ?_
  cases hresult with
  | ok heq =>
    subst heq
    refine (Actor.respects_truncateStack calleeSlot).andThen fun _ => ?_
    -- Whatever is below it, the result is put on top and the request is passed on.
    have hlast (v : Value) : Respects Cleared Echoes
        (do push v; return (← Actor.takeRequest).map (outcomeOf now guarded)) :=
      (respects_push v).andThen fun _ => Actor.respects_takeRequest.bind fun _ _ hrequest =>
        agrees_pure (echoes_outcomeOf now guarded hrequest)
    split
    next => exact (respects_push _).andThen fun _ => hlast _
    next => exact hlast _
  | error fault =>
    dsimp only
    split
    next =>
      refine (Actor.respects_truncateStack calleeSlot).andThen fun _ => ?_
      refine (Actor.respects_pushFailure fault).andThen fun _ => ?_
      exact agrees_goOn Actor.respects_takeRequest.discard
    next => exact agrees_throw fault

theorem nativeFor_eq (hl : loader.Cleared loader') (id : NativeId) (nargs : Nat) :
    nativeFor loader' id nargs = nativeFor loader id nargs := by
  rw [nativeFor, nativeFor, hl.native?]

/-- A protected call is a call with fewer arguments, and its failure is recovered from. -/
theorem agrees_invoke (hl : loader.Cleared loader') (nargs : Nat) (guarded : Bool) :
    Agrees Cleared Echoes (invoke loader now nargs guarded) (invoke loader' now nargs guarded) := by
  -- The callee of a protected call is called with one argument less, which is what goes down.
  induction nargs using Nat.strongRecOn generalizing guarded with
  | _ nargs ih =>
  rw [invoke.eq_def, invoke.eq_def loader']
  refine agrees_get_bind fun p q h => ?_
  dsimp only
  rw [h.stack]
  split
  next => exact agrees_throw_bind _ _ _
  refine agrees_get_bind fun p' q' h' => ?_
  rw [h'.stack]
  refine agrees_look_same fun callee => ?_
  cases callee with
  | ref r =>
    dsimp only
    split
    next => exact agrees_throw_bind _ _ _
    next => exact agrees_goOn (Actor.respects_enter _ nargs guarded)
  | native id =>
    dsimp only
    rw [nativeFor_eq hl]
    refine agrees_look_same fun body => ?_
    cases body with
    | function builtin => exact respects_callBuiltin builtin _ guarded
    | protectedCall =>
      cases nargs with
      | zero => exact agrees_throw _
      | succ nargs =>
        refine (respects_onStack _).discard.andThen fun _ => ?_
        refine agrees_get_bind fun r r' hr => ?_
        rw [hr.length_frames]
        have hcall := agrees_attempt (ih nargs (Nat.lt_succ_self nargs) true)
        refine hcall.bind fun result result' hresult => ?_
        cases hresult with
        | ok hecho => exact agrees_pure hecho
        | error fault =>
          refine agrees_get_bind fun u u' hu => ?_
          rw [hu.length_frames]
          split
          next =>
            refine (Actor.respects_truncateStack _).andThen fun _ => ?_
            exact agrees_goOn (Actor.respects_pushFailure fault)
          next => exact agrees_throw fault
  | _ => exact agrees_throw _

/-! ### Messages -/

theorem respects_receiveDeadline (deadline : Option Time) :
    Respects Cleared Eq (modify fun p => { p with receiveDeadline := deadline }) :=
  agrees_modify fun _ _ h => { h with receiveDeadline := rfl }

/-- Both have the same deadline, if they have one, so they fix the same one. -/
theorem respects_fixDeadline (timeout : Option Time) :
    Respects Cleared Eq (fixDeadline now timeout) := by
  refine agrees_get_bind fun p q h => ?_
  dsimp only
  rw [h.receiveDeadline]
  split
  next => exact (respects_receiveDeadline _).andThen fun _ => agrees_pure rfl
  next => exact agrees_pure rfl

theorem respects_jumpOrWait (ip target : Nat) (deadline : Option Time) :
    Respects Cleared Echoes (jumpOrWait now ip target deadline) := by
  rw [jumpOrWait]
  split
  next =>
    refine (respects_receiveDeadline none).andThen fun _ => ?_
    exact (respects_onStack _).andThen fun _ => agrees_goOn (respects_setIp target)
  next => exact (respects_setIp ip).andThen fun _ => agrees_pure (.ask (.same _))

theorem respects_receive (ip : Nat) (displacement : Int32) (length : Nat) :
    Respects Cleared Echoes (receive now ip displacement length) := by
  rw [receive_eq]
  refine agrees_get_bind fun p q h => ?_
  rw [h.stack]
  refine agrees_look_same fun timeout => agrees_look_same fun target => ?_
  refine (respects_onMailbox _).andThen fun message => ?_
  cases message with
  | some message => exact (respects_onStack _).andThen fun _ => agrees_goOn (respects_push _)
  | none => exact (respects_fixDeadline timeout).andThen (respects_jumpOrWait ip target)

theorem respects_send : Respects Cleared Echoes send := by
  refine (respects_onStack _).andThen fun message => (respects_onStack _).andThen fun receiver => ?_
  cases receiver with
  | pid receiver =>
    refine agrees_get_bind fun p q h => ?_
    refine agrees_look (Payload.alike_capture h.heap message) fun payload payload' hpayload => ?_
    exact agrees_pure (.ask (.send receiver hpayload))
  | _ => exact agrees_throw _

/-! ### Closures and constants -/

theorem agrees_importSymbol (hl : loader.Cleared loader') (i : Import String) :
    Agrees Cleared Eq (importSymbol loader i) (importSymbol loader' i) := by
  refine agrees_look (hl.resolve i.module i.name) fun symbol symbol' hs => ?_
  cases hs with
  | native id => exact respects_push _
  | function hcode =>
    dsimp only
    rw [hcode.prototype.upvalues]
    exact Actor.agrees_pushClosure hcode _

theorem agrees_makeClosure {routine routine' : Routine} (hcode : routine.Cleared routine') :
    Agrees Cleared Eq (makeClosure routine) (makeClosure routine') := by
  rw [makeClosure, makeClosure, hcode.prototype.upvalues]
  refine agrees_get_bind fun p q h => ?_
  dsimp only
  rw [h.stack]
  split
  next => exact agrees_throw_bind _ _ _
  refine (Actor.respects_prepareHeap _).andThen fun _ => agrees_get_bind fun p' q' h' => ?_
  rw [h'.stack]
  refine (agrees_onHeap (Heap.agrees_allocClosure hcode _)).andThen fun r => ?_
  exact (respects_onStack _).andThen fun _ => respects_push _

theorem respects_pushConstant (constant : Constant String) :
    Respects Cleared Eq (pushConstant constant) := by
  cases constant with
  | int | real => exact respects_push _
  | text s => exact Actor.respects_pushString s

/-- An operand that addresses something in both or in neither. -/
theorem alike_operand {α α' : Type} {R : α → α' → Prop} {entry : Option α} {entry' : Option α'}
    (h : Option.Rel R entry entry') (index : UInt32) (what : String) :
    Alike R (operand entry index what) (operand entry' index what) := by
  cases h with
  | none => exact .error _
  | some hrelated => exact .ok hrelated

/-! ### All instructions -/

theorem agrees_execute (hl : loader.Cleared loader') (hfg : f.Cleared g) (ip : Nat)
    (i : Instruction) :
    Agrees Cleared Echoes (execute loader now f ip i) (execute loader' now g ip i) := by
  -- All that an instruction reads of the code but the instructions themselves is the same in both.
  have hcode := hfg.routine.prototype
  cases i with
  | nop => exact agrees_pure .goOn
  | breakpoint => exact agrees_pure (.ask (.same _))
  | pop count => exact agrees_goOn (respects_onStack _)
  | constant index =>
    rw [execute, execute, hcode.constants]
    exact agrees_look_same fun constant => agrees_goOn (respects_pushConstant constant)
  | nil => exact agrees_goOn (respects_push _)
  | bool b => exact agrees_goOn (respects_push _)
  | int i => exact agrees_goOn (respects_push _)
  | loadLocal index =>
    rw [execute, execute, localSlot_eq hfg]
    refine agrees_look_same fun slot => agrees_get_bind fun p q h => ?_
    rw [h.stack]
    exact agrees_look_same fun v => agrees_goOn (respects_push v)
  | storeLocal index =>
    rw [execute, execute, localSlot_eq hfg]
    refine agrees_look_same fun slot => (respects_onStack _).andThen fun v => ?_
    exact agrees_goOn (respects_onStack _)
  | importSymbol index =>
    rw [execute, execute, hcode.imports]
    exact agrees_look_same fun i => agrees_goOn (agrees_importSymbol hl i)
  | makeClosure index =>
    refine agrees_look (alike_operand (hfg.routine.nested? index.toNat) index "prototype") ?_
    exact fun r s hrs => agrees_goOn (agrees_makeClosure hrs)
  | jump displacement =>
    rw [execute, execute, hcode.size_code]
    exact agrees_look_same fun target => agrees_goOn (respects_setIp target)
  | jumpUnless displacement =>
    rw [execute, execute, hcode.size_code]
    refine agrees_look_same fun target => (respects_onStack _).andThen fun condition => ?_
    dsimp only
    split
    next => exact agrees_goOn (respects_setIp target)
    next => exact agrees_pure .goOn
  | call nargs => exact agrees_invoke hl nargs.toNat false
  | ret => exact agrees_returnFrom hfg
  | send => exact respects_send
  | receive displacement =>
    rw [execute, execute, hcode.size_code]
    exact respects_receive ip displacement _
  | remove =>
    refine (respects_onMailbox _).discard.andThen fun _ => agrees_goOn ?_
    exact agrees_modify fun _ _ h => { h with receiveDeadline := rfl }
  | rewind =>
    exact agrees_goOn (agrees_modify fun _ _ h => { h with mailbox := by rw [h.mailbox] })

/-- The next instruction does the same, unless it is a breakpoint that was cleared: then only the
first actor reports it. -/
theorem agrees_step (hl : loader.Cleared loader') (now : Time) :
    Agrees Cleared Echoes (step loader now) (step loader' now) := by
  refine agrees_get_bind fun p q h => ?_
  generalize hfs : p.frames = fs
  generalize hgs : q.frames = gs
  have hframes := h.frames
  rw [hfs, hgs] at hframes
  cases hframes with
  | nil => exact agrees_pure (.ask (.same _))
  | @cons f g _ _ hfg _ =>
    dsimp only
    rw [hfg.ip]
    refine (respects_setIp _).andThen fun _ => ?_
    -- The same instruction comes next in both, unless it is a breakpoint in the one and cleared in
    -- the other.
    have hnext : Option.Rel Instruction.Cleared f.routine.prototype.code[f.ip]?
        g.routine.prototype.code[f.ip]? := by
      simpa using rel_getElem? hfg.routine.prototype.code f.ip
    rcases eq_of_rel hnext with ⟨hnone, hnone'⟩ | ⟨i, j, hsome, hsome', hij⟩
    · rw [hnone, hnone']
      exact agrees_returnFrom hfg
    · rw [hsome, hsome']
      cases hij with
      | same => exact agrees_execute hl hfg f.ip i
      | breakpoint => exact agrees_pure (.cleared f.ip)

/-- So it does after the recovery from a fault. -/
theorem echoes_advance (hl : loader.Cleared loader') (now : Time) (h : p.Cleared q) :
    Echoes (advance loader now p).1 (advance loader' now q).1 ∧
      (advance loader now p).2.Cleared (advance loader' now q).2 := by
  rw [advance, advance]
  rcases (agrees_step hl now).runs h with ⟨o, o', p', q', hrun, hrun', ho, h'⟩ |
    ⟨fault, p', q', hrun, hrun', h'⟩
  · rw [hrun, hrun']
    exact ⟨ho, h'⟩
  · rw [hrun, hrun']
    dsimp only
    rcases (Actor.respects_unwind fault).runs h' with ⟨_, _, p'', q'', hunwind, hunwind', -, h''⟩ |
      ⟨fault', p'', q'', hunwind, hunwind', h''⟩
    · rw [hunwind, hunwind']
      exact ⟨.goOn, h''⟩
    · rw [hunwind, hunwind']
      exact ⟨.ask (.same _), h''⟩

end Machine

end ActorMachine
