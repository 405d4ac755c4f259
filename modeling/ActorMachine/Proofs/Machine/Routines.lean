import ActorMachine.Machine.Run
import ActorMachine.Proofs.Actor.Routines
import ActorMachine.Proofs.Machine.Receiving

/-!
# The code that instructions bring in

An instruction gets new code from the frame that it belongs to, whose nested routines it makes
closures of, or by an import, which the loader resolves. All else is code that the actor keeps
already.

* `Furnishes`: from the code that is known nothing leads out.
* `upholds_step`: no instruction brings in other code, nor does it hand other code out.
* `knows_advance`: nor does the recovery from a fault.
-/

namespace ActorMachine

/-- The routines nested in known ones are known, and so is what imports resolve to. -/
structure Loader.Furnishes (known : Set Routine) (loader : Loader) : Prop where
  /-- What is nested in known code is known. -/
  nested : ∀ {r s : Routine} {index : Nat}, r ∈ known → r.nested? index = some s → s ∈ known
  /-- What an import leads to is known. -/
  resolved : ∀ {module name : String} {r : Routine},
    loader.resolve module name = .ok (.function r) → r ∈ known

/-- The code that an outcome hands out is known. -/
def Outcome.Knows (known : Set Routine) : Outcome → Prop
  | send _ payload => payload.Knows known
  | newActor callee args _ => callee.Knows known ∧ ∀ payload ∈ args, payload.Knows known
  | _ => True

namespace Machine

open Actor (Action Knows push upholds_onStack upholds_onHeap upholds_push)

variable {known : Set Routine} {loader : Loader} {now : Time} {f : Frame}

/-- The code of the outcome is known if there is one. -/
def Known (known : Set Routine) (answer : Option Outcome) : Prop :=
  ∀ outcome, answer = some outcome → outcome.Knows known

theorem known_none : Known known none := by
  rintro _ ⟨⟩

theorem known_some {outcome : Outcome} (h : outcome.Knows known) : Known known (some outcome) := by
  rintro _ ⟨⟩
  exact h

/-- Something is done, and the actor goes on. -/
theorem upholds_goOn {act : Action Unit} (hact : Upholds (Knows known) act fun _ => True) :
    Upholds (Knows known) (do act; return none) (Known known) :=
  hact.bind fun _ _ => upholds_pure known_none

theorem upholds_setIp (ip : Nat) : Upholds (Knows known) (setIp ip) fun _ => True := by
  refine upholds_modify fun p hp => ?_
  split
  next f outer hframes =>
    refine ⟨hp.heap, ?_, hp.request⟩
    have hall := hp.frames
    rw [hframes] at hall
    exact List.forall_mem_cons.2 (List.forall_mem_cons.1 hall)
  next => exact hp

theorem upholds_returnFrom (f : Frame) :
    Upholds (Knows known) (returnFrom f) (Known known) := by
  refine upholds_get_bind fun p hp => upholds_get_bind fun q hq => ?_
  have hreturned : Upholds (Knows known)
      (modify fun p => { p with frames := q.frames.tail, stack := p.stack.truncate f.calleeSlot })
      fun _ => True :=
    upholds_modify fun p hp =>
      ⟨hp.heap, fun g hg => hq.frames g (List.mem_of_mem_tail hg), hp.request⟩
  refine hreturned.bind fun _ _ => ?_
  have hlast (result : Value) :
      Upholds (Knows known) (do push result; return none : Action (Option Outcome)) (Known known) :=
    upholds_goOn (upholds_push result)
  dsimp only
  split
  next => exact (upholds_push _).bind fun _ _ => upholds_pure (known_some trivial)
  next =>
    split
    next => exact (upholds_push _).bind fun _ _ => hlast _
    next => exact hlast _

theorem knows_outcomeOf {request : Request} (h : request.Knows known) (guarded : Bool) :
    (outcomeOf now guarded request).Knows known := by
  cases request with
  | giveWay | sleep => trivial
  | newActor callee args => exact h

theorem upholds_callBuiltin (builtin : Builtin) (calleeSlot : Nat) (guarded : Bool) :
    Upholds (Knows known) (callBuiltin builtin now calleeSlot guarded) (Known known) := by
  refine upholds_get_bind fun p _ => ?_
  refine (Actor.upholds_attempt (Builtin.upholds_run builtin _)).bind fun result _ => ?_
  cases result with
  | ok result =>
    -- What the native has asked for is known, and so is what is made of it.
    have hlast : Upholds (Knows known) (do
        push result
        return (← Actor.takeRequest).map (outcomeOf now guarded)) (Known known) := by
      refine (upholds_push result).bind fun _ _ => ?_
      refine Actor.upholds_takeRequest.bind fun request hrequest => upholds_pure ?_
      intro outcome houtcome
      obtain ⟨request, hsome, rfl⟩ := Option.map_eq_some_iff.1 houtcome
      exact knows_outcomeOf (hrequest request hsome) guarded
    refine (Actor.upholds_truncateStack calleeSlot).bind fun _ _ => ?_
    dsimp only
    split
    next => exact (upholds_push _).bind fun _ _ => hlast
    next => exact hlast
  | error fault =>
    dsimp only
    split
    next =>
      refine (Actor.upholds_truncateStack calleeSlot).bind fun _ _ => ?_
      refine (Actor.upholds_pushFailure fault).bind fun _ _ => ?_
      exact upholds_goOn Actor.upholds_takeRequest.discard
    next => exact upholds_throw fault

/-- A protected call is a call with fewer arguments, and its failure is recovered from. -/
theorem upholds_invoke (nargs : Nat) (guarded : Bool) :
    Upholds (Knows known) (invoke loader now nargs guarded) (Known known) := by
  -- The callee of a protected call is called with one argument less, which is what goes down.
  induction nargs using Nat.strongRecOn generalizing guarded with
  | _ nargs ih =>
  rw [invoke.eq_def]
  refine upholds_get_bind fun p _ => ?_
  dsimp only
  split
  next => exact upholds_throw_bind _ _
  refine upholds_get_bind fun q _ => upholds_look fun callee _ => ?_
  cases callee with
  | ref r =>
    dsimp only
    split
    next => exact upholds_throw_bind _ _
    next => exact upholds_goOn (Actor.upholds_enter _ nargs guarded)
  | native id =>
    refine upholds_look fun body _ => ?_
    cases body with
    | function builtin => exact upholds_callBuiltin builtin _ guarded
    | protectedCall =>
      cases nargs with
      | zero => exact upholds_throw _
      | succ nargs =>
        refine (upholds_onStack _).discard.bind fun _ _ => upholds_get_bind fun depth _ => ?_
        have hcall := ih nargs (Nat.lt_succ_self nargs) true
        refine (Actor.upholds_attempt hcall).bind fun result hresult => ?_
        cases result with
        | ok outcome => exact upholds_pure (hresult outcome rfl)
        | error fault =>
          refine upholds_get_bind fun r _ => ?_
          split
          next =>
            refine (Actor.upholds_truncateStack _).bind fun _ _ => ?_
            exact upholds_goOn (Actor.upholds_pushFailure fault)
          next => exact upholds_throw fault
  | _ => exact upholds_throw _

/-! ### Instructions -/

theorem upholds_receiveDeadline (deadline : Option Time) :
    Upholds (Knows known) (modify fun p => { p with receiveDeadline := deadline }) fun _ => True :=
  upholds_modify fun _ hp => ⟨hp.heap, hp.frames, hp.request⟩

theorem upholds_fixDeadline (timeout : Option Time) :
    Upholds (Knows known) (fixDeadline now timeout) fun _ => True := by
  refine upholds_get_bind fun p _ => ?_
  dsimp only
  split
  next => exact (upholds_receiveDeadline _).bind fun _ _ => upholds_pure trivial
  next => exact upholds_pure trivial

theorem upholds_jumpOrWait (ip target : Nat) (deadline : Option Time) :
    Upholds (Knows known) (jumpOrWait now ip target deadline) (Known known) := by
  rw [jumpOrWait]
  split
  next =>
    refine (upholds_receiveDeadline none).bind fun _ _ => (upholds_onStack _).bind fun _ _ => ?_
    exact upholds_goOn (upholds_setIp target)
  next => exact (upholds_setIp ip).bind fun _ _ => upholds_pure (known_some trivial)

theorem upholds_receive (ip : Nat) (displacement : Int32) (length : Nat) :
    Upholds (Knows known) (receive now ip displacement length) (Known known) := by
  rw [receive_eq]
  refine upholds_get_bind fun p _ => upholds_look fun timeout _ => ?_
  refine upholds_look fun target _ => (Actor.upholds_onMailbox _).bind fun message _ => ?_
  cases message with
  | some message =>
    exact (upholds_onStack _).bind fun _ _ => upholds_goOn (upholds_push message)
  | none =>
    exact (upholds_fixDeadline timeout).bind fun deadline _ =>
      upholds_jumpOrWait ip target deadline

/-- What is sent is captured from the heap. -/
theorem upholds_send : Upholds (Knows known) send (Known known) := by
  refine (upholds_onStack _).bind fun message _ => (upholds_onStack _).bind fun receiver _ => ?_
  cases receiver with
  | pid receiver =>
    refine upholds_get_bind fun p hp => upholds_look fun payload hpayload => ?_
    exact upholds_pure (known_some (Payload.knows_of_capture hp.heap hpayload))
  | _ => exact upholds_throw _

theorem upholds_importSymbol (hloader : loader.Furnishes known) (i : Import String) :
    Upholds (Knows known) (importSymbol loader i) fun _ => True := by
  refine upholds_look fun symbol hsymbol => ?_
  cases symbol with
  | native id => exact upholds_push _
  | function routine => exact Actor.upholds_pushClosure (hloader.resolved hsymbol) _

theorem upholds_makeClosure {routine : Routine} (hroutine : routine ∈ known) :
    Upholds (Knows known) (makeClosure routine) fun _ => True := by
  refine upholds_get_bind fun p _ => ?_
  dsimp only
  split
  next => exact upholds_throw_bind _ _
  refine (Actor.upholds_prepareHeap _).bind fun _ _ => upholds_get_bind fun q _ => ?_
  refine (upholds_onHeap (Heap.upholds_allocClosure hroutine _)).bind fun r _ => ?_
  exact (upholds_onStack _).bind fun _ _ => upholds_push _

theorem upholds_pushConstant (constant : Constant String) :
    Upholds (Knows known) (pushConstant constant) fun _ => True := by
  cases constant with
  | int | real => exact upholds_push _
  | text s => exact Actor.upholds_pushString s

theorem upholds_execute (hloader : loader.Furnishes known) (hf : f.routine ∈ known) (ip : Nat)
    (instruction : Instruction) :
    Upholds (Knows known) (execute loader now f ip instruction) (Known known) := by
  cases instruction with
  | nop => exact upholds_pure known_none
  | breakpoint => exact upholds_pure (known_some trivial)
  | pop count => exact upholds_goOn (upholds_onStack _)
  | constant index => exact upholds_look fun c _ => upholds_goOn (upholds_pushConstant c)
  | nil | bool | int => exact upholds_goOn (upholds_push _)
  | loadLocal index =>
    refine upholds_look fun slot _ => upholds_get_bind fun p _ => upholds_look fun v _ => ?_
    exact upholds_goOn (upholds_push v)
  | storeLocal index =>
    refine upholds_look fun slot _ => (upholds_onStack _).bind fun v _ => ?_
    exact upholds_goOn (upholds_onStack _)
  | importSymbol index =>
    exact upholds_look fun i _ => upholds_goOn (upholds_importSymbol hloader i)
  | makeClosure index =>
    -- A nested routine is known with the routine that it stands in.
    refine upholds_look fun routine hroutine => upholds_goOn (upholds_makeClosure ?_)
    cases hnested : f.routine.nested? index.toNat with
    | none => rw [hnested] at hroutine; cases hroutine
    | some r =>
      rw [hnested] at hroutine
      obtain rfl := Except.ok.inj hroutine
      exact hloader.nested hf hnested
  | jump displacement => exact upholds_look fun target _ => upholds_goOn (upholds_setIp target)
  | jumpUnless displacement =>
    refine upholds_look fun target _ => (upholds_onStack _).bind fun condition _ => ?_
    dsimp only
    split
    next => exact upholds_goOn (upholds_setIp target)
    next => exact upholds_pure known_none
  | call nargs => exact upholds_invoke nargs.toNat false
  | ret => exact upholds_returnFrom f
  | send => exact upholds_send
  | receive displacement => exact upholds_receive ip displacement _
  | remove =>
    refine (Actor.upholds_onMailbox _).discard.bind fun _ _ => upholds_goOn ?_
    exact upholds_modify fun p hp => ⟨hp.heap, hp.frames, hp.request⟩
  | rewind => exact upholds_goOn (upholds_modify fun p hp => ⟨hp.heap, hp.frames, hp.request⟩)

/-- The code of the outcome is known, too. -/
theorem upholds_step (hloader : loader.Furnishes known) :
    Upholds (Knows known) (step loader now) (Known known) := by
  refine upholds_get_bind fun p hp => ?_
  split
  next => exact upholds_pure (known_some trivial)
  next f outer hframes =>
    have hf : f.routine ∈ known := hp.frames f (hframes ▸ List.mem_cons_self)
    refine (upholds_setIp _).bind fun _ _ => ?_
    split
    next instruction _ => exact upholds_execute hloader hf f.ip instruction
    next => exact upholds_returnFrom f

theorem knows_advance (hloader : loader.Furnishes known) (now : Time) {p : Actor}
    (hp : p.Knows known) :
    (advance loader now p).2.Knows known ∧ Known known (advance loader now p).1 := by
  rw [advance]
  cases hstep : step loader now p with
  | ok outcome q => exact (upholds_step hloader).of_ok hp hstep
  | error fault q =>
    have hq := (upholds_step hloader).of_error hp hstep
    dsimp only
    cases hunwind : Actor.unwind fault q with
    | ok _ r => exact ⟨((Actor.upholds_unwind fault).of_ok hq hunwind).1, known_none⟩
    | error fault' r =>
      refine ⟨(Actor.upholds_unwind fault).of_error hq hunwind, known_some ?_⟩
      exact trivial

end Machine

end ActorMachine
