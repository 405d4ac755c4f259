import ActorMachine.Proofs.Checked.Machine
import ActorMachine.Proofs.Machine.Reached

/-!
# No code crashes an actor

An actor may be started with any function and any arguments, and then instructions, messages and
faults may come in any order. The checked machine goes through all of it without a crash and does
what the plain machine does, provided that the built-in functions are registered with the arguments
that they take for granted and that no heap is larger than a machine word can tell.

* `secure_checked`: no operation crashes on a firm actor, and the actor stays firm.
* `life_checked`: so no sequence of operations does, and `Sturdy` says what holds at its end.
-/

namespace ActorMachine.Machine

open Crashing
open Actor (Firm asksFits_firm asksFirm_firm)

variable {p : Actor} {config : ActorConfig}

namespace Operation

/-- What an operation does, with what it takes for granted. -/
def checked : Operation → Crashing Actor (Option Outcome)
  | step loader now => Checked.step loader now
  | deliver payload => do Actor.Checked.deliver payload; return none
  | unwind fault => do Actor.Checked.unwind fault; return none
  | failProtectedCall fault => do Actor.Checked.failProtectedCall fault; return none
  | collectGarbage => do discard Actor.Checked.collectGarbage; return none
  | answer child => do Actor.Checked.onStack (Stack.Checked.setAt (-1) (.pid child)); return none
  | stand state wait => do modify fun p => { p with state, wait }; return none

/-- If it executes an instruction, its loader has the natives registered as they need it. -/
def Fitting : Operation → Prop
  | step loader _ => loader.Fitting
  | _ => True

theorem ending_run (op : Operation) (p : Actor) : ending op.run p = op.after p := by
  rw [ending, after]
  cases op.run p <;> rfl

end Operation

theorem secure_checked {op : Operation} (hop : op.Fitting) :
    Secure Firm op.checked op.run fun _ => True := by
  cases op with
  | step loader now => exact secure_step hop now
  | deliver payload => exact secure_goOn (Actor.secure_deliver payload)
  | unwind fault => exact secure_goOn (Actor.secure_unwind fault)
  | failProtectedCall fault => exact secure_goOn (Actor.secure_failProtectedCall fault)
  | collectGarbage => exact secure_goOn (Actor.secure_collectGarbage asksFirm_firm).discard
  | answer child =>
    exact secure_goOn (Actor.secure_onStack (Stack.secure_setAt (-1) (.pid child)) asksFits_firm)
  | stand state wait =>
    exact secure_goOn (secure_modify fun p hp => ⟨hp.stack, hp.heap, hp.frames⟩)

/-! ### Whole lives -/

/-- What becomes of an actor by operations. -/
def goesThrough (ops : List Operation) (p : Actor) : Actor :=
  ops.foldl (fun p op => op.after p) p

/-- What becomes of an actor by operations that may crash. -/
def Checked.goesThrough (ops : List Operation) (p : Actor) : Except Crash Actor :=
  ops.foldlM (fun p op => endingChecked op.checked p) p

/-- One operation after the other does without a crash what it should. -/
theorem goesThrough_checked {ops : List Operation} (hp : p.Firm)
    (hops : ∀ op ∈ ops, op.Fitting) :
    Checked.goesThrough ops p = .ok (goesThrough ops p) ∧ (goesThrough ops p).Firm := by
  induction ops generalizing p with
  | nil => exact ⟨rfl, hp⟩
  | cons op ops ih =>
    obtain ⟨hop, hops⟩ := List.forall_mem_cons.1 hops
    have hsecure := secure_checked hop
    have hafter : (op.after p).Firm := op.ending_run p ▸ hsecure.ending hp
    obtain ⟨hrest, hfirm⟩ := ih hafter hops
    refine ⟨?_, hfirm⟩
    rw [Checked.goesThrough, List.foldlM_cons, (hsecure.runs p hp).endingChecked_eq, op.ending_run]
    exact hrest

/-- What becomes of an actor that is to be started and then goes through some operations. -/
def life (config : ActorConfig) (pid : Pid) (callee : Payload) (args : List Payload)
    (ops : List Operation) : Actor :=
  goesThrough ops (ending (Actor.start callee args) (.create pid config))

/-- What becomes of it if everything may crash. -/
def Checked.life (config : ActorConfig) (pid : Pid) (callee : Payload) (args : List Payload)
    (ops : List Operation) : Except Crash Actor := do
  goesThrough ops (← endingChecked (Actor.Checked.start callee args) (.create pid config))

/-- Whatever is done to the actor next, it does not crash. -/
structure Sturdy (p : Actor) : Prop where
  /-- No operation crashes. -/
  crash : ∀ op : Operation, op.Fitting → ∀ crash q, op.checked p ≠ .error (.crash crash) q
  /-- What it does is what it should do. -/
  operation : ∀ op : Operation, op.Fitting → Runs op.checked op.run p
  /-- Nor would any other instruction in the place of the next one. -/
  instruction : ∀ (loader : Loader) now f outer instruction, loader.Fitting →
    p.frames = f :: outer →
    Runs (Checked.execute loader now f f.ip instruction) (execute loader now f f.ip instruction) p
  /-- Nor does a built-in function that gets the arguments that it takes for granted. -/
  builtin : ∀ (builtin : Builtin) args, builtin.presumed ≤ args.size →
    Runs (Builtin.Checked.run builtin args) (builtin.run args) p
  /-- Nor does the capture of a value. -/
  capture : ∀ v, Payload.Checked.capture p.heap v = faulty (Payload.capture p.heap v)
  /-- The next instruction of a frame is one of its code, or it is at the end. -/
  frames : ∀ f ∈ p.frames, f.ip ≤ f.routine.prototype.code.size
  /-- A jump is refused exactly if it leads out of the code. -/
  jump : ∀ loader now f outer instruction displacement, p.frames = f :: outer →
    f.routine.prototype.code[f.ip]? = some instruction →
    instruction.displacement? = some displacement →
    (instruction = .receive displacement →
      ∃ timeout, receiveTimeout p.stack = .ok timeout) →
    ∀ target, (∃ q, step loader now p = .error (.badJump target) q) ↔
      target = f.ip + displacement.toInt ∧
        (target < 0 ∨ (f.routine.prototype.code.size : Int) < target)

theorem sturdy_of_firm (hp : p.Firm) : Sturdy p where
  crash _ hop := ((secure_checked hop).runs p hp).ne_crash
  operation _ hop := (secure_checked hop).runs p hp
  instruction loader now f outer instruction hloader hframes := by
    have hip := hp.frames f (hframes ▸ List.mem_cons_self)
    exact (secureAt_execute hloader (inCode_of_frames hp hframes) hip instruction).runs
  builtin builtin _ hargs := (Builtin.secure_run builtin hargs).runs p hp
  capture v := Payload.capture_eq hp.heap.housed v
  frames := hp.frames
  jump _ _ _ _ _ _ hframes hcode hjumps htimeout :=
    step_badJump_iff hframes hcode hjumps htimeout

/-- Whatever function an actor is started with, and whatever it goes through, nothing crashes. The
standard loader and what becomes of it by modules have the natives registered as they need it. -/
theorem life_checked (hlimit : config.heap.heapLimit ≤ Capacity.maxWord) (pid : Pid)
    (callee : Payload) (args : List Payload) {ops : List Operation}
    (hops : ∀ op ∈ ops, op.Fitting) :
    (∀ changes : List Loader.Operation, (∀ op ∈ changes, op.Fitting) →
        (changes.foldl (fun l op => op.after l) Loader.standard).Fitting) ∧
      Checked.life config pid callee args ops = .ok (life config pid callee args ops) ∧
      Sturdy (life config pid callee args ops) := by
  have hcreate := Actor.firm_create pid hlimit
  have hstart := Actor.secure_start callee args
  obtain ⟨hchecked, hfirm⟩ := goesThrough_checked (hstart.ending hcreate) hops
  refine ⟨fun changes => Loader.fitting_foldl Loader.fitting_standard, ?_, sturdy_of_firm hfirm⟩
  rw [Checked.life, (hstart.runs _ hcreate).endingChecked_eq]
  exact hchecked

/-- A function that compares two integers and then tries to jump out of its code. -/
def strayer : Routine :=
  .loose { Prototype.blank with
    imports := #[⟨"std-value", "eq"⟩]
    code := #[.importSymbol 0, .int 7, .int 7, .call 2, .jumpUnless 100] }

/-- The comparison has been made, and the jump comes next. -/
def straying : List Operation :=
  [.step .standard 0, .step .standard 0, .deliver (.buffer ⟨#[1, 2]⟩), .step .standard 0,
    .collectGarbage, .step .standard 0]

/-- The jump is refused, and there is no crash. -/
theorem life_checked_strayer :
    let p := life {} ⟨1⟩ (.closure strayer []) [] straying
    (p.frames.map Frame.ip = [4] ∧ p.stack.top? = some (.bool true)) ∧
      Checked.life {} ⟨1⟩ (.closure strayer []) [] straying = .ok p ∧ Sturdy p := by
  intro p
  have hops : ∀ op ∈ straying, op.Fitting := by
    simp [straying, Operation.Fitting, Loader.fitting_standard]
  exact ⟨by decide +kernel, (life_checked (by decide) ⟨1⟩ _ _ hops).2⟩

end ActorMachine.Machine
