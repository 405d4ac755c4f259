import ActorMachine.Proofs.Machine.Ages

/-!
# What an actor asks the scheduler for

Only one instruction sends, only one waits for messages, and only one is a breakpoint.

* `send_of_step`: what is sent is what the value on top of the stack captures to.
* `rest_of_block`: an actor waits for a message only if its scan has none left to look at.
* `advance_breakpoint_iff`: a breakpoint is reported if and only if one is executed.
-/

namespace ActorMachine.Machine

open Actor (Action onStack push)

variable {p q : Actor} {loader : Loader} {now : Time} {α : Type}

/-! ### Instructions that neither send nor wait -/

/-- What is asked for is neither to send nor to wait for a message, and no breakpoint is
reported. -/
structure Reserved (o : Option Outcome) : Prop where
  /-- Nothing is sent. -/
  send : ∀ receiver payload, o ≠ some (.send receiver payload)
  /-- No message is waited for. -/
  block : ∀ deadline, o ≠ some (.block deadline)
  /-- No breakpoint is reported. -/
  breakpoint : ∀ ip, o ≠ some (.breakpoint ip)

theorem reserved_none : Reserved none :=
  ⟨nofun, nofun, nofun⟩

theorem reserved_outcomeOf (now : Time) (guarded : Bool) (request : Option Request) :
    Reserved (request.map (outcomeOf now guarded)) := by
  cases request with
  | none => exact reserved_none
  | some request => cases request <;> exact ⟨nofun, nofun, nofun⟩

/-- The action neither sends nor waits for a message, nor does it report a breakpoint. -/
def Mute (p : Actor) (act : Action (Option Outcome)) : Prop :=
  Ensures act p (fun o _ => Reserved o) (fun _ _ => True)

/-- Only what comes last asks for something. -/
theorem mute_bind {act : Action α} {f : α → Action (Option Outcome)}
    (hf : ∀ a q, Mute q (f a)) : Mute p (act >>= f) := by
  rw [Mute, ensures_bind]
  exact (ensures_result act p).mono (fun a q _ => hf a q) fun _ _ _ => trivial

theorem mute_none : Mute p (pure none) :=
  reserved_none

theorem mute_throw (fault : Fault) : Mute p (throw fault) :=
  trivial

theorem mute_throw_bind (fault : Fault) (f : α → Action (Option Outcome)) :
    Mute p (throw fault >>= f) :=
  trivial

theorem mute_returnFrom (f : Frame) : Mute p (returnFrom f) := by
  refine mute_bind fun q r => ?_
  dsimp only
  refine mute_bind fun s t => mute_bind fun _ u => ?_
  split
  next => exact mute_bind fun _ _ => ⟨nofun, nofun, nofun⟩
  next =>
    split
    next => exact mute_bind fun _ _ => mute_bind fun _ _ => mute_none
    next => exact mute_bind fun _ _ => mute_none

theorem mute_callBuiltin (builtin : Builtin) (now : Time) (slot : Nat) (guarded : Bool) :
    Mute p (callBuiltin builtin now slot guarded) := by
  have hlast : ∀ (v : Value) (r : Actor), Mute r (do
      push v
      return (← Actor.takeRequest).map (outcomeOf now guarded)) := fun v _ =>
    mute_bind fun _ _ => mute_bind fun request _ => reserved_outcomeOf now guarded request
  refine mute_bind fun s _ => mute_bind fun result r => ?_
  cases result with
  | ok v =>
    refine mute_bind fun _ _ => ?_
    dsimp only
    split
    next => exact mute_bind fun _ u => hlast v u
    next => exact hlast v _
  | error fault =>
    dsimp only
    split
    next => exact mute_bind fun _ _ => mute_bind fun _ _ => mute_bind fun _ _ => mute_none
    next => exact mute_throw fault

/-- A call comes to a frame or to what a built-in function asks for. -/
theorem mute_invoke (loader : Loader) (now : Time) (n : Nat) (guarded : Bool) :
    Mute p (invoke loader now n guarded) := by
  induction n using Nat.strong_induction_on generalizing p guarded with
  | h n ih =>
    rw [invoke.eq_def]
    refine mute_bind fun s _ => ?_
    dsimp only
    split
    next => exact mute_throw_bind _ _
    next =>
      refine mute_bind fun t _ => mute_bind fun callee u => ?_
      cases callee with
      | ref r =>
        dsimp only
        split
        next => exact mute_throw_bind _ _
        next => exact mute_bind fun _ _ => mute_none
      | native number =>
        refine mute_bind fun body v => ?_
        cases body with
        | function builtin => exact mute_callBuiltin builtin now _ guarded
        | protectedCall =>
          cases n with
          | zero => exact mute_throw _
          | succ n =>
            refine mute_bind fun _ w => mute_bind fun q _ => ?_
            -- What the guarded call asks for, the protected call does.
            rw [Mute, ensures_bind, Actor.ensures_attempt]
            refine Ensures.mono (ih n (Nat.lt_succ_self n) true) (fun _ _ => id) ?_
            intro fault x _
            refine mute_bind fun y _ => ?_
            split
            next => exact mute_bind fun _ _ => mute_bind fun _ _ => mute_none
            next => exact mute_throw fault
      | _ => exact mute_throw _

/-- All instructions but three are mute. -/
theorem mute_execute (loader : Loader) (now : Time) (f : Frame) (ip : Nat) {i : Instruction}
    (hsend : i ≠ .send) (hreceive : ∀ displacement, i ≠ .receive displacement)
    (hbreak : i ≠ .breakpoint) : Mute p (execute loader now f ip i) := by
  cases i with
  | nop => exact mute_none
  | breakpoint => exact absurd rfl hbreak
  | pop | nil | bool | int | rewind => exact mute_bind fun _ _ => mute_none
  | constant | importSymbol | makeClosure | jump | remove =>
    exact mute_bind fun _ _ => mute_bind fun _ _ => mute_none
  | loadLocal =>
    exact mute_bind fun _ _ => mute_bind fun _ _ => mute_bind fun _ _ => mute_bind fun _ _ =>
      mute_none
  | storeLocal =>
    exact mute_bind fun _ _ => mute_bind fun _ _ => mute_bind fun _ _ => mute_none
  | jumpUnless =>
    refine mute_bind fun _ _ => mute_bind fun _ _ => ?_
    dsimp only
    split
    next => exact mute_bind fun _ _ => mute_none
    next => exact mute_none
  | call nargs => exact mute_invoke loader now nargs.toNat false
  | ret => exact mute_returnFrom f
  | send => exact absurd rfl hsend
  | receive displacement => exact absurd rfl (hreceive displacement)

/-! ### Sending -/

/-- What is sent was on top of the pid that it is sent to. -/
theorem send_spec (p : Actor) :
    Ensures send p
      (fun o _ => ∃ receiver payload, o = some (.send receiver payload) ∧ ∃ below message,
        p.stack.toList = below ++ [.pid receiver, message] ∧
          Payload.capture p.heap message = .ok payload)
      (fun _ _ => True) := by
  rw [send, ensures_bind, Actor.ensures_onStack, Stack.ensures_popValue]
  refine ⟨fun message hmessage => ?_, fun _ => trivial⟩
  rw [ensures_bind, Actor.ensures_onStack, Stack.ensures_popValue]
  refine ⟨fun v hv => ?_, fun _ => trivial⟩
  obtain ⟨values, hvalues⟩ := Array.back?_eq_some_iff.1 hmessage
  -- The receiver is what is on top once the message is popped.
  obtain ⟨below, hbelow⟩ : ∃ below : Array Value, values = below.push v := by
    have hnext : p.stack.values.pop.back? = some v := hv
    rw [hvalues, Array.pop_push] at hnext
    exact Array.back?_eq_some_iff.1 hnext
  cases v with
  | pid receiver =>
    rw [ensures_bind, ensures_get, ensures_bind, ensures_ofExcept]
    refine ⟨fun payload hpayload => ⟨receiver, payload, rfl, below.toList, message, ?_, hpayload⟩,
      fun _ _ => trivial⟩
    rw [Stack.toList, hvalues, hbelow]
    simp
  | _ => trivial

/-! ### Waiting for messages -/

/-- Without a message to bind there is none left to look at. -/
theorem takeMessage?_spec (p : Actor) :
    Ensures takeMessage? p (fun message q => message = none → q.mailbox.rest = [])
      (fun _ _ => True) := by
  rw [takeMessage?, Actor.ensures_onMailbox, ensures_bind, ensures_get]
  split
  next =>
    intro hnone
    cases hnone
  next hnone =>
    intro _
    have hhead := Mailbox.receive?_map_fst p.mailbox
    rw [hnone] at hhead
    exact List.head?_eq_none_iff.1 hhead.symm

/-- Going back to the receive does not touch the mailbox. -/
theorem jumpOrWait_spec (p : Actor) (now : Time) (ip target : Nat) (deadline : Option Time) :
    Ensures (jumpOrWait now ip target deadline) p
      (fun o q => o = none ∨ o = some (.block deadline) ∧ q.mailbox = p.mailbox)
      (fun _ _ => True) := by
  rw [jumpOrWait]
  split
  next =>
    rw [ensures_bind, ensures_modify, ensures_bind]
    refine (ensures_result (onStack (Stack.pop 1)) _).mono (fun _ q _ => ?_) fun _ _ _ => trivial
    rw [ensures_bind]
    exact (ensures_result (setIp target) q).mono (fun _ _ _ => .inl rfl) fun _ _ _ => trivial
  next =>
    rw [ensures_bind]
    refine Ensures.mono (leaves_setIp (p := p) ip) ?_ fun _ _ _ => trivial
    rintro _ q ⟨-, hq⟩
    exact .inr ⟨rfl, hq⟩

/-- With a message a receive is over, and asks for nothing. -/
theorem bindMessage_spec (p : Actor) (message : Value) :
    Ensures (bindMessage message) p (fun o _ => o = none) (fun _ _ => True) := by
  rw [bindMessage, ensures_bind]
  refine (ensures_result (onStack (Stack.pop 1)) p).mono (fun _ q _ => ?_) fun _ _ _ => trivial
  rw [ensures_bind]
  exact (ensures_result (push message) q).mono (fun _ _ _ => rfl) fun _ _ _ => trivial

/-- A receive that asks to wait has found no message. -/
theorem receive_spec (p : Actor) (now : Time) (ip : Nat) (displacement : Int32) (length : Nat) :
    Ensures (receive now ip displacement length) p
      (fun o q => o = none ∨ ∃ deadline, o = some (.block deadline) ∧ q.mailbox.rest = [])
      (fun _ _ => True) := by
  rw [receive_eq, ensures_bind, ensures_get, ensures_bind, ensures_ofExcept]
  refine ⟨fun timeout _ => ?_, fun _ _ => trivial⟩
  rw [ensures_bind, ensures_ofExcept]
  refine ⟨fun target _ => ?_, fun _ _ => trivial⟩
  rw [ensures_bind]
  refine (takeMessage?_spec p).mono ?_ fun _ _ => id
  intro message q hrest
  cases message with
  | some v => exact (bindMessage_spec q v).mono (fun _ _ => .inl) fun _ _ => id
  | none =>
    rw [endReceive, ensures_bind, ensures_fixDeadline]
    refine (jumpOrWait_spec _ now ip target _).mono ?_ fun _ _ => id
    rintro o r (hnone | ⟨rfl, hmailbox⟩)
    · exact .inl hnone
    · exact .inr ⟨_, rfl, hmailbox ▸ hrest rfl⟩

/-! ### Instructions in general -/

/-- Where the next instruction is a breakpoint, if it is one. -/
def breaksAt? (p : Actor) : Option Nat :=
  match p.frames with
  | [] => none
  | f :: _ => if f.routine.prototype.code[f.ip]? = some .breakpoint then some f.ip else none

/-- What an instruction asks for when it sends or waits for a message or is a breakpoint. -/
inductive Asks (p : Actor) : Option Outcome → Actor → Prop
  /-- It is none of these. -/
  | other {o : Option Outcome} {q : Actor} (reserved : Reserved o) : Asks p o q
  /-- It sends the value on top of the stack to the pid below it. -/
  | sends {q : Actor} (receiver : Pid) {payload : Payload} {below : List Value} {message : Value}
      (stack : p.stack.toList = below ++ [.pid receiver, message])
      (captured : Payload.capture p.heap message = .ok payload) :
      Asks p (some (.send receiver payload)) q
  /-- It waits, for the scan of the mailbox has no message left to look at. -/
  | waits {q : Actor} (deadline : Option Time) (rest : q.mailbox.rest = []) :
      Asks p (some (.block deadline)) q
  /-- It is a breakpoint. -/
  | breaks {q : Actor} {ip : Nat} (here : breaksAt? p = some ip) : Asks p (some (.breakpoint ip)) q

theorem step_asks (p : Actor) (loader : Loader) (now : Time) :
    Ensures (step loader now) p (fun o q => Asks p o q) (fun _ _ => True) := by
  -- What is mute asks for none of the three, so only the instructions that are not are left.
  have hmute : ∀ {act : Action (Option Outcome)} {q : Actor}, Mute q act →
      Ensures act q (fun o r => Asks p o r) fun _ _ => True := fun h =>
    Ensures.mono h (fun _ _ => .other) fun _ _ => id
  rw [step, ensures_bind, ensures_get]
  cases hframes : p.frames with
  | nil => exact .other ⟨by simp, by simp, by simp⟩
  | cons f outer =>
    have hset : setIp (f.ip + 1) = modify fun p => p.atIp (f.ip + 1) := rfl
    have hat := Actor.atIp_of_frames hframes (f.ip + 1)
    dsimp only
    rw [hset, ensures_bind, ensures_modify, hat]
    cases hcode : f.routine.prototype.code[f.ip]? with
    | none => exact hmute (mute_returnFrom f)
    | some i =>
      by_cases hsend : i = .send
      · subst hsend
        refine (send_spec _).mono ?_ fun _ _ => id
        rintro _ q ⟨receiver, payload, rfl, below, message, hstack, hpayload⟩
        exact .sends receiver hstack hpayload
      by_cases hreceive : ∃ displacement, i = .receive displacement
      · obtain ⟨displacement, rfl⟩ := hreceive
        refine (receive_spec _ now f.ip displacement _).mono ?_ fun _ _ => id
        rintro _ q (rfl | ⟨deadline, rfl, hrest⟩)
        · exact .other reserved_none
        · exact .waits deadline hrest
      by_cases hbreak : i = .breakpoint
      · subst hbreak
        exact .breaks (by rw [breaksAt?, hframes]; exact if_pos hcode)
      · exact hmute (mute_execute loader now f f.ip hsend (fun d h => hreceive ⟨d, h⟩) hbreak)

/-- An actor waits for a message only if its scan has none left to look at. -/
theorem rest_of_block {deadline : Option Time}
    (h : step loader now p = .ok (some (.block deadline)) q) : q.mailbox.rest = [] := by
  have hasks := (step_asks p loader now).of_ok h
  generalize ho : some (Outcome.block deadline) = o at hasks
  cases hasks with
  | other hreserved => exact absurd ho.symm (hreserved.block deadline)
  | waits _ hrest => exact hrest
  | sends | breaks => cases ho

/-- What an actor sends is what the value on top of its stack captures to. -/
theorem send_of_step {receiver : Pid} {payload : Payload}
    (h : step loader now p = .ok (some (.send receiver payload)) q) :
    ∃ below message, p.stack.toList = below ++ [.pid receiver, message] ∧
      Payload.capture p.heap message = .ok payload := by
  have hasks := (step_asks p loader now).of_ok h
  generalize ho : some (Outcome.send receiver payload) = o at hasks
  cases hasks with
  | other hreserved => exact absurd ho.symm (hreserved.send receiver payload)
  | sends _ hstack hcaptured =>
    obtain ⟨rfl, rfl⟩ := Outcome.send.inj (Option.some.inj ho)
    exact ⟨_, _, hstack, hcaptured⟩
  | waits | breaks => cases ho

/-- A breakpoint is executed without more ado. -/
theorem step_of_breaksAt? {ip : Nat} (h : breaksAt? p = some ip) :
    step loader now p = .ok (some (.breakpoint ip)) (p.atIp (ip + 1)) := by
  rw [breaksAt?] at h
  split at h
  next => cases h
  next f outer hframes =>
    split at h
    next hcode =>
      obtain rfl := Option.some.inj h
      exact step_eq_execute hframes hcode loader now
    next => cases h

/-- A breakpoint is reported if and only if one is executed. -/
theorem advance_breakpoint_iff {ip : Nat} :
    (advance loader now p).1 = some (.breakpoint ip) ↔ breaksAt? p = some ip := by
  constructor
  · intro h
    rw [advance] at h
    split at h
    next o q hstep =>
      have hasks := (step_asks p loader now).of_ok hstep
      obtain rfl : o = some (.breakpoint ip) := h
      cases hasks with
      | other hreserved => exact absurd rfl (hreserved.breakpoint ip)
      | breaks here => exact here
    next =>
      -- A fault that is caught reports nothing, and the other ones are traps.
      split at h <;> cases h
  · intro h
    rw [advance, step_of_breaksAt? h]

end ActorMachine.Machine
