import ActorMachine.Proofs.Machine.Isolation
import ActorMachine.Proofs.Machine.Receives

/-!
# How long a receive keeps its deadline

The first attempt of a receive with a timeout fixes a deadline, and the attempts that follow go by
it, whatever timeout they bring along.

* `Ends`: the receive ends when the bound message is removed, or when it times out.
* `Abides`: up to some state it has kept its deadline. From then on an attempt that finds no message
  times out exactly from the deadline on, and no attempt before could have.
* `abides_iff`: a receive that has not ended abides by its deadline exactly if no guarded call has
  caught a fault meanwhile.
* `not_abides`: a guarded call can catch one while the receive is in progress.
-/

namespace ActorMachine.Machine

open Actor (Action Dated upkeep_dated upkeep_onStack)

variable {p q : Actor} {loader : Loader} {now deadline : Time} {op : Operation}
  {trace : List (Operation × Actor)}

/-- What ends the receive in progress. -/
inductive Ends (p : Actor) : Operation → Prop
  /-- The bound message is removed. -/
  | removes {loader : Loader} {now : Time} {q : Actor}
      (instruction : nextInstruction? p = some .remove)
      (removed : step loader now p = .ok none q) : Ends p (.step loader now)
  /-- There is no message, and the receive does not wait for one. -/
  | expires {loader : Loader} {now : Time} {q : Actor} {f : Frame} {outer : List Frame}
      {target : Nat} {delay : Time} (findsNone : FindsNone p f outer target delay)
      (expired : step loader now p = .ok none q) : Ends p (.step loader now)

/-- A guarded call catches the fault that unwinds. -/
inductive Unwinds (p : Actor) : Operation → Prop
  /-- One of the calls in progress is guarded. -/
  | caught {fault : Fault} {f : Frame} (inProgress : f ∈ p.frames)
      (guarded : f.guarded = true) : Unwinds p (.unwind fault)

/-- On the way to `q` a receive has kept its deadline, which it goes by there. -/
structure Abides (deadline : Time) (trace : List (Operation × Actor)) (q : Actor) : Prop where
  /-- The deadline was the same all the time. -/
  fixed : ∀ entry ∈ trace, entry.2.receiveDeadline = some deadline
  /-- So it is now. -/
  current : q.receiveDeadline = some deadline
  /-- All attempts so far that have found no message came before the deadline. -/
  early : ∀ {r loader now f outer target delay}, (.step loader now, r) ∈ trace →
    FindsNone r f outer target delay → now < deadline
  /-- The next one waits before the deadline, and nothing about the actor changes. -/
  waits : ∀ {f outer target delay}, FindsNone q f outer target delay → ∀ loader now,
    now < deadline → step loader now q = .ok (some (.block (some deadline))) q
  /-- From the deadline on it times out. -/
  expires : ∀ {f outer target delay}, FindsNone q f outer target delay → ∀ loader now,
    deadline ≤ now → step loader now q = .ok none (timedOut q f outer target)

/-! ### What becomes of a deadline -/

/-- Without a bound message there is nothing to remove, and the deadline stays. -/
theorem step_of_remove (h : nextInstruction? p = some .remove) (loader : Loader) (now : Time) :
    Ensures (step loader now) p (fun o q => o = none ∧ Dated none q)
      fun _ q => Dated p.receiveDeadline q := by
  rw [nextInstruction?] at h
  cases hframes : p.frames with
  | nil =>
    rw [hframes] at h
    cases h
  | cons f outer =>
    -- Past the end of the code there is a return, so the instruction is in the code.
    have hcode : f.routine.prototype.code[f.ip]? = some .remove := by
      rw [hframes, List.head?_cons, Option.map_some, Option.some_inj] at h
      cases hcode : f.routine.prototype.code[f.ip]? with
      | none =>
        rw [hcode] at h
        cases h
      | some i =>
        rw [hcode] at h
        exact congrArg some h
    have hat : Dated p.receiveDeadline (p.atIp (f.ip + 1)) := by
      rw [Actor.atIp, hframes]
      exact rfl
    rw [Ensures, step_eq_execute hframes hcode]
    change Ensures (execute loader now f f.ip .remove) (p.atIp (f.ip + 1)) _ _
    rw [execute, ensures_bind, ensures_discard]
    exact Ensures.mono (upkeep_remove upkeep_dated _ hat) (fun _ _ _ => ⟨rfl, rfl⟩)
      fun _ _ h => h

/-- All other instructions leave the deadline alone, whether they fail or not. -/
theorem step_dated (hremove : nextInstruction? p ≠ some .remove)
    (hnone : ∀ f outer target delay, ¬ FindsNone p f outer target delay) (loader : Loader)
    (now : Time) :
    Ensures (step loader now) p (fun _ q => Dated p.receiveDeadline q)
      fun _ q => Dated p.receiveDeadline q := by
  cases hframes : p.frames with
  | nil =>
    rw [step, ensures_bind, ensures_get, hframes]
    exact rfl
  | cons f outer =>
    have hat := Actor.atIp_of_frames hframes (f.ip + 1)
    -- Moving the instruction pointer leaves the deadline alone, so the rest of the step decides.
    have hkeep : ∀ {act : Action (Option Outcome)},
        step loader now p = act (p.atIp (f.ip + 1)) →
        Upholds (Dated p.receiveDeadline) act (fun _ => True) →
        Ensures (step loader now) p (fun _ q => Dated p.receiveDeadline q)
          fun _ q => Dated p.receiveDeadline q := by
      intro act hstep hact
      rw [Ensures, hstep, hat]
      exact Dated.ensures rfl hact
    cases hcode : f.routine.prototype.code[f.ip]? with
    | none =>
      exact hkeep (step_eq_returnFrom hframes hcode loader now) (upkeep_returnFrom upkeep_dated f)
    | some i =>
      have hstep := step_eq_execute hframes hcode loader now
      by_cases hreceive : ∃ displacement, i = .receive displacement
      · obtain ⟨displacement, rfl⟩ := hreceive
        rw [Ensures, hstep, hat]
        refine (receive_spec_of_not_findsNone (fun delay target htimeout htarget hrest => ?_)
          now).mono (fun _ _ h => h.1) fun _ _ => id
        exact hnone f outer target delay ⟨hframes, ⟨displacement, hcode, htarget⟩, htimeout, hrest⟩
      · have hi : i ≠ .remove := by
          rintro rfl
          exact hremove (nextInstruction?_eq hframes hcode)
        refine hkeep hstep (upkeep_execute upkeep_dated loader now f f.ip hi ?_)
        exact fun d h => hreceive ⟨d, h⟩

/-- What ends the receive clears the deadline, and so does a fault that is caught. -/
theorem cleared_after (h : Ends p op ∨ Unwinds p op) : (op.after p).receiveDeadline = none := by
  rcases h with hends | hcaught
  · have hafter : ∀ {loader now q}, step loader now p = .ok none q →
        (Operation.step loader now).after p = q := by
      intro loader now q hstep
      rw [Operation.after, Operation.run, hstep]
    cases hends with
    | removes hinstruction hremoved =>
      rw [hafter hremoved]
      exact ((step_of_remove hinstruction _ _).of_ok hremoved).2
    -- The receive did not wait, so its deadline had come, and it has dropped it.
    | expires hnone hexpired =>
      rw [hafter hexpired]
      obtain ⟨hexpires, hwaits⟩ := step_of_findsNone hnone _ _
      rcases Nat.lt_or_ge _ _ with hearly | hdue
      · rw [hwaits hearly] at hexpired
        cases hexpired
      · rw [hexpires hdue] at hexpired
        cases hexpired
        exact rfl
  · cases hcaught with
    | @caught fault f hf hguarded =>
      have hany : p.frames.any Frame.guarded = true := List.any_eq_true.2 ⟨f, hf, hguarded⟩
      have hunwind := Actor.ensures_unwind p fault
      rw [hany, if_pos rfl] at hunwind
      show Dated none _
      refine Operation.after_of_ensures ?_
      rw [Operation.run, ensures_bind]
      exact hunwind

/-- Nothing else changes it. -/
theorem kept_after (hp : p.receiveDeadline = some deadline) (hends : ¬ Ends p op)
    (huncaught : ¬ Unwinds p op) : (op.after p).receiveDeadline = some deadline := by
  have hkeep : ∀ {act : Action (Option Outcome)},
      Upholds (Dated (some deadline)) act (fun _ => True) →
      Ensures act p (fun _ q => Dated (some deadline) q) fun _ q => Dated (some deadline) q :=
    Dated.ensures hp
  show Dated (some deadline) _
  refine Operation.after_of_ensures ?_
  cases op with
  | step loader now =>
    change Ensures (step loader now) p _ _
    -- A removal that succeeds ends the receive, and so does a receive from the deadline on.
    by_cases hremove : nextInstruction? p = some .remove
    · refine Ensures.mono ((step_of_remove hremove loader now).and (ensures_result _ p)) ?_ ?_
      · rintro o q ⟨⟨rfl, -⟩, hstep⟩
        exact absurd (.removes hremove hstep) hends
      · exact fun _ q h => h.1.trans hp
    by_cases hnone : ∃ f outer target delay, FindsNone p f outer target delay
    · obtain ⟨f, outer, target, delay, hnone⟩ := hnone
      obtain ⟨hexpires, hwaits⟩ := step_of_findsNone hnone loader now
      have hdeadline : dueBy p now delay = deadline := by rw [dueBy, hp, Option.getD_some]
      rw [hdeadline] at hexpires hwaits
      rcases Nat.lt_or_ge now deadline with hearly | hdue
      · rw [Ensures, hwaits hearly]
        exact rfl
      · exact absurd (.expires hnone (hexpires hdue)) hends
    · rw [← hp]
      exact step_dated hremove (fun f outer target delay h => hnone ⟨f, outer, target, delay, h⟩)
        loader now
  | deliver payload => exact hkeep (upkeep_goOn (Actor.upkeep_deliver upkeep_dated payload))
  | unwind fault =>
    have hany : p.frames.any Frame.guarded = false := by
      rw [← Bool.not_eq_true, List.any_eq_true]
      rintro ⟨f, hf, hguarded⟩
      exact huncaught (.caught hf hguarded)
    have hunwind := Actor.ensures_unwind p fault
    rw [hany, if_neg Bool.false_ne_true, hp] at hunwind
    rw [Operation.run, ensures_bind]
    exact hunwind
  | failProtectedCall fault =>
    exact hkeep (upkeep_goOn (Actor.upkeep_failProtectedCall upkeep_dated fault))
  | collectGarbage =>
    exact hkeep (upkeep_goOn (Actor.upkeep_collectGarbage upkeep_dated).discard)
  | answer child => exact hkeep (upkeep_goOn (upkeep_onStack upkeep_dated _))
  | stand state wait => exact hp

/-! ### Runs -/

/-- As long as the receive has not ended, its deadline is what it was exactly if nothing was caught
meanwhile. -/
theorem Run.dated_iff {depth : Nat} (h : Run depth p trace q)
    (hp : p.receiveDeadline = some deadline) (hopen : ∀ entry ∈ trace, ¬ Ends entry.2 entry.1) :
    ((∀ entry ∈ trace, entry.2.receiveDeadline = some deadline) ∧
      q.receiveDeadline = some deadline) ↔ ∀ entry ∈ trace, ¬ Unwinds entry.2 entry.1 := by
  -- The last operation comes first in the trace, and the hypothesis gives the deadline before it.
  induction h with
  | refl => exact ⟨fun _ => by simp, fun _ => ⟨by simp, hp⟩⟩
  | @next trace q op _ _ ih =>
    rw [List.forall_mem_cons] at hopen
    rw [List.forall_mem_cons, List.forall_mem_cons, ← ih hopen.2]
    constructor
    · rintro ⟨⟨hq, htrace⟩, hafter⟩
      refine ⟨fun hcaught => ?_, htrace, hq⟩
      rw [cleared_after (.inr hcaught)] at hafter
      cases hafter
    · rintro ⟨huncaught, htrace, hq⟩
      exact ⟨⟨hq, htrace⟩, kept_after hq hopen.1 huncaught⟩

/-- A receive that has found no message goes by the deadline that was fixed when it did so first.
Until it ends it abides by this deadline exactly if no guarded call catches a fault meanwhile; where
one does, the deadline is gone. -/
theorem abides_iff {loader : Loader} {now deadline : Time} {p p' q : Actor}
    {trace : List (Operation × Actor)}
    (hwait : step loader now p = .ok (some (.block (some deadline))) p') (hrun : Run 0 p' trace q)
    (hopen : ∀ entry ∈ trace, ¬ Ends entry.2 entry.1) :
    (∃ f outer target delay, FindsNone p f outer target delay ∧ deadline = dueBy p now delay) ∧
      (Abides deadline trace q ↔ ∀ entry ∈ trace, ¬ Unwinds entry.2 entry.1) ∧
      ∀ op, Unwinds q op → (op.after q).receiveDeadline = none := by
  obtain ⟨f, outer, target, delay, hnone, hdeadline, rfl⟩ := findsNone_of_block hwait
  have hdated := hrun.dated_iff rfl hopen
  refine ⟨⟨f, outer, target, delay, hnone, hdeadline⟩, ⟨fun habides => ?_, fun huncaught => ?_⟩,
    fun op hcaught => cleared_after (.inr hcaught)⟩
  · exact hdated.1 ⟨habides.fixed, habides.current⟩
  obtain ⟨htrace, hq⟩ := hdated.2 huncaught
  -- What a receive goes by is the deadline that was fixed, whatever the time and the timeout are.
  have hdue : ∀ {r : Actor}, r.receiveDeadline = some deadline → ∀ now delay,
      dueBy r now delay = deadline := by
    intro r hr now delay
    rw [dueBy, hr, Option.getD_some]
  refine ⟨htrace, hq, ?_, ?_, ?_⟩
  · -- An attempt from the deadline on would have ended the receive.
    intro r loader now f outer target delay hmem hnone
    by_contra hlate
    refine hopen _ hmem (.expires hnone ((step_of_findsNone hnone loader now).1 ?_))
    rw [hdue (htrace _ hmem)]
    exact Nat.not_lt.1 hlate
  · intro f outer target delay hnone loader now hearly
    have hwaits := (step_of_findsNone hnone loader now).2
    rw [hdue hq] at hwaits
    rw [hwaits hearly, ← hq]
  · intro f outer target delay hnone loader now hlate
    refine (step_of_findsNone hnone loader now).1 ?_
    rwa [hdue hq]

/-! ### A receive that abides by its deadline and one that does not -/

/-- The actor after some operations, the last one first. -/
def afterAll (p : Actor) : List Operation → Actor
  | [] => p
  | op :: earlier => op.after (afterAll p earlier)

/-- Some operations, the last one first, each with the actor that it was done to. -/
def traced (p : Actor) : List Operation → List (Operation × Actor)
  | [] => []
  | op :: earlier => (op, afterAll p earlier) :: traced p earlier

theorem map_fst_traced (p : Actor) (ops : List Operation) : (traced p ops).map Prod.fst = ops := by
  induction ops with
  | nil => rfl
  | cons op earlier ih => rw [traced, List.map_cons, ih]

theorem run_traced {depth : Nat} {ops : List Operation}
    (hq : depth < (afterAll p ops).frames.length)
    (h : ∀ entry ∈ traced p ops, depth < entry.2.frames.length) :
    Run depth p (traced p ops) (afterAll p ops) := by
  induction ops with
  | nil => exact .refl hq
  | cons op earlier ih =>
    rw [traced, List.forall_mem_cons] at h
    exact .next op (ih h.1 h.2) hq

/-- An operation is no instruction that could end a receive: it does not remove a message, and if it
is a receive itself there is one to bind. -/
def goesOn (entry : Operation × Actor) : Bool :=
  match entry.1, nextInstruction? entry.2 with
  | .step _ _, some .remove => false
  | .step _ _, some (.receive _) => !entry.2.mailbox.rest.isEmpty
  | _, _ => true

theorem not_ends_of_goesOn {entry : Operation × Actor} (h : goesOn entry = true) :
    ¬ Ends entry.2 entry.1 := by
  obtain ⟨op, p⟩ := entry
  intro hends
  cases hends with
  | removes hinstruction =>
    rw [goesOn, hinstruction] at h
    cases h
  | expires hnone =>
    obtain ⟨displacement, hcode, -⟩ := hnone.code
    rw [goesOn, nextInstruction?_eq hnone.frames hcode] at h
    dsimp only at h
    rw [hnone.message] at h
    cases h

/-- A function that waits for a message, for 50 milliseconds in all. It passes over those it gets,
after a protected call of a closure with some code. -/
def awaiter (body : Array Instruction) : Routine :=
  .loose
    { Prototype.blank with
      code := #[.int 50, .receive 7, .pop 1, .importSymbol 0, .makeClosure 0, .call 1, .pop 2,
        .jump (-7), .ret]
      imports := #[⟨"std-process", "pcall"⟩]
      nested := [{ Prototype.blank with code := body }] }

/-- The actor that runs this function, after some instructions at the time 0. -/
def awaiting (body : Array Instruction) (n : Nat) : Actor :=
  stepped .standard 0 (started {} (.closure (awaiter body) []) []) n

/-- A message arrives, and then a number of instructions are executed at the time 7. -/
def passingOver (n : Nat) : List Operation :=
  List.replicate n (.step .standard 7) ++ [.deliver .nil]

theorem traced_passingOver (p : Actor) (n : Nat) :
    traced p (passingOver (n + 1)) =
      (.step .standard 7, afterAll p (passingOver n)) :: traced p (passingOver n) := rfl

/-- No calls are unwound then. -/
theorem unwind_notMem_passingOver {fault : Fault} {n : Nat} {r : Actor} :
    (.unwind fault, r) ∉ traced p (passingOver n) := by
  intro hmem
  have hop := List.mem_map_of_mem (f := Prod.fst) hmem
  rw [map_fst_traced, passingOver, List.mem_append] at hop
  simp at hop

/-- Whatever code is called, its receive has found no message and waits until the time 50. -/
theorem step_awaiting {body : Array Instruction}
    (h : (match step .standard 0 (awaiting body 1) with
      | .ok (some (.block due)) _ => due == some 50
      | _ => false) = true) :
    step .standard 0 (awaiting body 1) = .ok (some (.block (some 50))) (awaiting body 2) := by
  have hafter : awaiting body 2 = (Operation.step .standard 0).after (awaiting body 1) := rfl
  rw [hafter, Operation.after, Operation.run]
  split at h
  next hstep =>
    rw [hstep, eq_of_beq h]
  next => cases h

/-- A closure that returns an integer does not touch the deadline. After the message has been passed
over, the receive is tried again. -/
theorem abides_awaiting :
    let q := afterAll (awaiting #[.int 1, .ret] 2) (passingOver 10)
    nextInstruction? q = some (.receive 7) ∧
      Abides 50 (traced (awaiting #[.int 1, .ret] 2) (passingOver 10)) q := by
  intro q
  have hrun : Run 0 (awaiting #[.int 1, .ret] 2)
      (traced (awaiting #[.int 1, .ret] 2) (passingOver 10)) q :=
    run_traced (by decide +kernel) (by decide +kernel)
  have hgoes : ∀ entry ∈ traced (awaiting #[.int 1, .ret] 2) (passingOver 10),
      goesOn entry = true := by
    decide +kernel
  obtain ⟨-, hiff, -⟩ := abides_iff (step_awaiting (by decide +kernel)) hrun
    fun entry hentry => not_ends_of_goesOn (hgoes entry hentry)
  refine ⟨by decide +kernel, hiff.2 ?_⟩
  rintro ⟨op, r⟩ hentry hcaught
  cases hcaught
  exact unwind_notMem_passingOver hentry

/-- The time at which an operation looks at the clock. -/
def Operation.time? : Operation → Option Time
  | step _ now => some now
  | _ => none

/-- The clock does not go back from `now` on, and calls are unwound by the faults of instructions
only. -/
structure Proper (now : Time) (trace : List (Operation × Actor)) : Prop where
  /-- The times do not decrease. -/
  clock : (trace.filterMap (fun entry => entry.1.time?) ++ [now]).Pairwise (· ≥ ·)
  /-- An instruction has raised the fault, and has left the actor as it is. -/
  unwinds : ∀ fault r, (.unwind fault, r) ∈ trace → ∃ loader now s,
    (.step loader now, s) ∈ trace ∧ step loader now s = .error fault r

/-- A closure without constants that asks for one fails. The guarded call catches the fault, and the
receive, which has bound a message but not removed it, has no deadline any more. -/
theorem not_abides :
    ¬ ∀ (config : ActorConfig) (loader : Loader) (now deadline : Time) (p p' q : Actor)
      (trace : List (Operation × Actor)), Reached config p →
      step loader now p = .ok (some (.block (some deadline))) p' → Run 0 p' trace q →
      Proper now trace → (∀ entry ∈ trace, ¬ Ends entry.2 entry.1) →
      q.receiveDeadline = some deadline := by
  intro hall
  have hreached : Reached {} (awaiting #[.constant 0] 1) :=
    reached_stepped (reached_started (by decide +kernel)) .standard 0 1
  have hrun : Run 0 (awaiting #[.constant 0] 2)
      (traced (awaiting #[.constant 0] 2)
        (.unwind (.badOperand "constant" 0) :: passingOver 6))
      (afterAll (awaiting #[.constant 0] 2)
        (.unwind (.badOperand "constant" 0) :: passingOver 6)) :=
    run_traced (by decide +kernel) (by decide +kernel)
  have hfault : step .standard 7 (afterAll (awaiting #[.constant 0] 2) (passingOver 5)) =
      .error (.badOperand "constant" 0) (afterAll (awaiting #[.constant 0] 2) (passingOver 6)) :=
    step_eq_error (by decide +kernel)
  have hproper : Proper 0 (traced (awaiting #[.constant 0] 2)
      (.unwind (.badOperand "constant" 0) :: passingOver 6)) := by
    refine ⟨by decide +kernel, fun fault r hmem => ?_⟩
    rw [traced, List.mem_cons] at hmem
    rcases hmem with hmem | hmem
    · -- What was unwound is the fault of the instruction right before.
      obtain ⟨hop, hr⟩ := Prod.mk.inj hmem
      refine ⟨.standard, 7, afterAll (awaiting #[.constant 0] 2) (passingOver 5), ?_, ?_⟩
      · rw [traced, traced_passingOver]
        exact .tail _ (.head _)
      · rw [hfault, hr, Operation.unwind.inj hop]
    · exact absurd hmem unwind_notMem_passingOver
  have hgoes : ∀ entry ∈ traced (awaiting #[.constant 0] 2)
      (.unwind (.badOperand "constant" 0) :: passingOver 6), goesOn entry = true := by
    decide +kernel
  -- The receive was not ended, so it should have kept its deadline, which is gone.
  have hdeadline := hall {} .standard 0 50 _ _ _ _ hreached (step_awaiting (by decide +kernel)) hrun
    hproper fun entry hentry => not_ends_of_goesOn (hgoes entry hentry)
  revert hdeadline
  decide +kernel

end ActorMachine.Machine
