import ActorMachine.Proofs.Machine.Receiving
import ActorMachine.Proofs.Stack

/-!
# Jumps

A jump names its target by the distance from its own place. It may lead to any instruction of the
code and to the place behind the last one.

* `jumpTarget_spec`: either it leads out of the code and is refused, or it leads into it.
* `step_badJump_iff`: an instruction that jumps is refused exactly if it leads out.
-/

namespace ActorMachine

/-- How far an instruction may jump. -/
def Instruction.displacement? : Instruction → Option Int32
  | jump displacement | jumpUnless displacement | receive displacement => some displacement
  | _ => none

namespace Machine

open Actor (Action)

variable {p : Actor} {loader : Loader} {now : Time} {f : Frame}

/-! ### Targets -/

/-- A jump to there leads out of the code. -/
def LeadsOut (target : Int) (length : Nat) : Prop :=
  target < 0 ∨ (length : Int) < target

/-- A jump is refused if it leads out of the code. Else it leads to an instruction or to the end. -/
theorem jumpTarget_spec (ip : Nat) (displacement : Int32) (length : Nat) :
    (LeadsOut (ip + displacement.toInt) length ∧
        jumpTarget ip displacement length = .error (.badJump (ip + displacement.toInt))) ∨
      (¬ LeadsOut (ip + displacement.toInt) length ∧
        ∃ target ≤ length, jumpTarget ip displacement length = .ok target) := by
  rw [jumpTarget]
  split
  next hout => exact .inl ⟨hout, rfl⟩
  next hin =>
    refine .inr ⟨hin, _, ?_, rfl⟩
    omega

theorem le_of_jumpTarget {ip target length : Nat} {displacement : Int32}
    (h : jumpTarget ip displacement length = .ok target) : target ≤ length := by
  rcases jumpTarget_spec ip displacement length with ⟨-, hrefused⟩ | ⟨-, other, hle, hleads⟩
  · rw [h] at hrefused
    cases hrefused
  · obtain rfl := Except.ok.inj (h.symm.trans hleads)
    exact hle

/-! ### Refused jumps -/

/-- The action may fail, but not because a jump is refused. -/
def JumpSafe {σ α : Type} (act : EStateM Fault σ α) (s : σ) : Prop :=
  Ensures act s (fun _ _ => True) fun fault _ => ∀ target, fault ≠ .badJump target

theorem JumpSafe.bind {σ α β : Type} {act : EStateM Fault σ β} {f : β → EStateM Fault σ α} {s : σ}
    (hact : JumpSafe act s) (hf : ∀ b t, JumpSafe (f b) t) : JumpSafe (act >>= f) s := by
  rw [JumpSafe, ensures_bind]
  exact hact.mono (fun b t _ => hf b t) fun _ _ h => h

theorem jumpSafe_throw_bind {σ α β : Type} {fault : Fault}
    (hfault : ∀ target, fault ≠ .badJump target) (f : β → EStateM Fault σ α) (s : σ) :
    JumpSafe (throw fault >>= f) s :=
  hfault

theorem jumpSafe_reserve (more : Nat) (s : Stack) : JumpSafe (Stack.reserve more) s := by
  rw [JumpSafe, Stack.reserve, ensures_bind, ensures_get]
  dsimp only
  split
  next => exact jumpSafe_throw_bind (by simp) _ s
  next =>
    split
    next =>
      split
      next => exact jumpSafe_throw_bind (by simp) _ s
      next => trivial
    next => trivial

theorem jumpSafe_push (v : Value) (s : Stack) : JumpSafe (Stack.push v) s := by
  rw [JumpSafe, Stack.push, ensures_bind, ensures_get]
  dsimp only
  split
  next => exact (jumpSafe_reserve 1 s).bind fun _ _ => trivial
  next => trivial

theorem jumpSafe_pop (count : Nat) (s : Stack) : JumpSafe (Stack.pop count) s := by
  rw [JumpSafe, Stack.ensures_pop]
  exact ⟨fun _ => trivial, fun _ => by simp⟩

theorem jumpSafe_popValue (s : Stack) : JumpSafe Stack.popValue s := by
  rw [JumpSafe, Stack.ensures_popValue]
  exact ⟨fun _ _ => trivial, fun _ => by simp⟩

theorem jumpSafe_onStack {α : Type} {act : Stack.Action α} (hact : ∀ s, JumpSafe act s)
    (p : Actor) : JumpSafe (Actor.onStack act) p := by
  rw [JumpSafe, Actor.ensures_onStack]
  exact hact p.stack

/-- The action begins with a jump. It fails with a refused jump if that leads out of the code, and
for no other reason. -/
def Refuses (target : Int) (length : Nat) {α : Type} (act : Action α) (p : Actor) : Prop :=
  Ensures act p (fun _ _ => ¬ LeadsOut target length) fun fault _ =>
    (LeadsOut target length ∧ fault = .badJump target) ∨
      (¬ LeadsOut target length ∧ ∀ other, fault ≠ .badJump other)

theorem refuses_jumpTarget {α : Type} {ip length : Nat} {displacement : Int32}
    {f : Nat → Action α} (hf : ∀ place, JumpSafe (f place) p) :
    Refuses (ip + displacement.toInt) length (ofExcept (jumpTarget ip displacement length) >>= f)
      p := by
  rw [Refuses, ensures_bind, ensures_ofExcept]
  rcases jumpTarget_spec ip displacement length with ⟨hout, hrefused⟩ | ⟨hin, place, -, hleads⟩
  · rw [hrefused]
    refine ⟨nofun, ?_⟩
    rintro _ ⟨⟩
    exact .inl ⟨hout, rfl⟩
  · rw [hleads]
    refine ⟨?_, nofun⟩
    rintro _ ⟨⟩
    exact (hf place).mono (fun _ _ _ => hin) fun _ _ h => .inr ⟨hin, h⟩

/-- The target of a jump is known before the jump is made. -/
theorem jumpSafe_jumpOrWait (p : Actor) (now : Time) (ip target : Nat) (deadline : Option Time) :
    JumpSafe (jumpOrWait now ip target deadline) p := by
  have hset (ip : Nat) (q : Actor) : JumpSafe (setIp ip) q := trivial
  rw [jumpOrWait]
  split
  next =>
    refine JumpSafe.bind trivial fun _ q => ?_
    refine (jumpSafe_onStack (jumpSafe_pop 1) q).bind fun _ q => ?_
    exact (hset target q).bind fun _ _ => trivial
  next => exact (hset ip p).bind fun _ _ => trivial

theorem refuses_receive {timeout : Option Time} (htimeout : receiveTimeout p.stack = .ok timeout)
    (ip : Nat) (displacement : Int32) (length : Nat) :
    Refuses (ip + displacement.toInt) length (receive now ip displacement length) p := by
  rw [receive_eq, Refuses, ensures_bind, ensures_get, htimeout]
  refine refuses_jumpTarget fun place => ?_
  have htake (q : Actor) : JumpSafe takeMessage? q := by
    rw [JumpSafe, takeMessage?, Actor.ensures_onMailbox, ensures_bind, ensures_get]
    cases q.mailbox.receive? <;> trivial
  refine (htake p).bind fun message q => ?_
  cases message with
  | some message =>
    refine (jumpSafe_onStack (jumpSafe_pop 1) q).bind fun _ q => ?_
    exact (jumpSafe_onStack (jumpSafe_push message) q).bind fun _ _ => trivial
  | none =>
    have hfix : JumpSafe (fixDeadline now timeout) q := (ensures_fixDeadline now timeout).2 trivial
    exact hfix.bind fun deadline q => jumpSafe_jumpOrWait q now ip place deadline

theorem refuses_execute {instruction : Instruction} {displacement : Int32}
    (hjumps : instruction.displacement? = some displacement)
    (htimeout : instruction = .receive displacement →
      ∃ timeout, receiveTimeout p.stack = .ok timeout) (ip : Nat) :
    Refuses (ip + displacement.toInt) f.routine.prototype.code.size
      (execute loader now f ip instruction) p := by
  cases instruction with
  | jump =>
    obtain rfl := Option.some.inj hjumps
    exact refuses_jumpTarget fun place => trivial
  | jumpUnless =>
    obtain rfl := Option.some.inj hjumps
    refine refuses_jumpTarget fun place => ?_
    refine (jumpSafe_onStack jumpSafe_popValue p).bind fun condition q => ?_
    dsimp only
    split <;> trivial
  | receive =>
    obtain rfl := Option.some.inj hjumps
    obtain ⟨timeout, htimeout⟩ := htimeout rfl
    exact refuses_receive htimeout ip _ _
  | _ => cases hjumps

/-- An instruction that jumps fails with a refused jump exactly if the jump leads out of the code. A
receive looks at its timeout first. -/
theorem step_badJump_iff {outer : List Frame} {instruction : Instruction} {displacement : Int32}
    (hframes : p.frames = f :: outer)
    (hcode : f.routine.prototype.code[f.ip]? = some instruction)
    (hjumps : instruction.displacement? = some displacement)
    (htimeout : instruction = .receive displacement →
      ∃ timeout, receiveTimeout p.stack = .ok timeout) (target : Int) :
    (∃ q, step loader now p = .error (.badJump target) q) ↔
      target = f.ip + displacement.toInt ∧ LeadsOut target f.routine.prototype.code.size := by
  -- Nothing else in a step refuses a jump, so the instruction is all that matters.
  have hrefuses : Refuses (f.ip + displacement.toInt) f.routine.prototype.code.size
      (step loader now) p := by
    rw [step, Refuses, ensures_bind, ensures_get, hframes]
    dsimp only
    rw [ensures_bind, setIp, ensures_modify, hframes, hcode]
    exact refuses_execute (p := { p with frames := { f with ip := f.ip + 1 } :: outer })
      hjumps htimeout f.ip
  constructor
  · rintro ⟨q, hstep⟩
    rcases hrefuses.of_error hstep with ⟨hout, hfault⟩ | ⟨-, hother⟩
    · obtain rfl := Fault.badJump.inj hfault
      exact ⟨rfl, hout⟩
    · exact absurd rfl (hother target)
  · rintro ⟨rfl, hout⟩
    cases hstep : step loader now p with
    | ok outcome q => exact absurd hout (hrefuses.of_ok hstep)
    | error fault q =>
      rcases hrefuses.of_error hstep with ⟨-, rfl⟩ | ⟨hin, -⟩
      · exact ⟨q, rfl⟩
      · exact absurd hout hin

end Machine

end ActorMachine
