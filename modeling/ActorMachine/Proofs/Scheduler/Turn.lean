import ActorMachine.Proofs.Machine.Protection
import ActorMachine.Scheduler.Run

/-!
# Turns of the actor being run

A turn is one instruction together with what the scheduler does about it.

* `Leads`: operations lead from one state of an actor to another, and it stays the same one.
* `Innermost`, `Uncaught`: where a fault is caught, and when nothing catches it.
* `turn_spec`: what a turn does to the actor and to the scheduler. Only a fault that nothing catches
  ends the actor with an error.
* `of_attend`: what every turn preserves, attending to the actor preserves.
-/

namespace ActorMachine

namespace Machine

open Actor (Recovered Same onStack)

variable {p q r : Actor} {fault fault' : Fault} {loader : Loader} {now : Time}
  {config : ActorConfig} {ip : Nat}

/-! ### What an actor leads to -/

theorem same_atIp (p : Actor) (ip : Nat) : Same p (p.atIp ip) := by
  rw [Actor.atIp]
  split
  next => exact .refl p
  next => exact .refl p

/-- An instruction concerns what the actor itself keeps. -/
theorem Effect.same {o : Option Outcome} (h : Effect loader p o q) : Same p q := by
  cases h with
  | idle => exact .refl p
  | stays ip _ hkeeps => exact hkeeps.same.trans (same_atIp p ip)
  | @calls _ _ f _ _ _ _ hinv =>
    cases hinv with
    | completed _ hkeeps => exact hkeeps.same.trans (same_atIp p (f.ip + 1))
    | entered _ _ hkeeps => exact hkeeps.same.trans (same_atIp p (f.ip + 1))
  | returns => exact ⟨rfl, rfl, rfl, rfl⟩
  | ends => exact ⟨rfl, rfl, rfl, rfl⟩

/-- Only the scheduler notes where an actor stands. -/
theorem same_after (hp : Steady p) (op : Operation) (hown : ∀ state wait, op ≠ .stand state wait) :
    Same p (op.after p) := by
  refine Operation.after_of_ensures ?_
  cases op with
  | step loader now =>
    refine Ensures.mono (step_spec hp loader now) (fun _ _ => Effect.same) ?_
    rintro _ q ⟨ip, hkeeps⟩
    exact hkeeps.same.trans (same_atIp p ip)
  | deliver payload =>
    rw [Operation.run, ensures_bind]
    refine Ensures.mono (Actor.deliver_spec hp.sound payload) ?_ ?_
    · rintro _ _ ⟨heap, v, rfl, -⟩
      exact .refl _
    · rintro _ _ ⟨heap, rfl, -⟩
      exact .refl _
  | unwind fault =>
    rw [Operation.run, ensures_bind]
    refine Ensures.mono (Actor.unwind_spec hp.sound hp.room_guarded fault) ?_ ?_
    · rintro _ _ ⟨_, _, _, -, -, -, heap, stack, d, rfl, -⟩
      exact .refl _
    · rintro _ _ ⟨-, rfl, -⟩
      exact .refl _
  | failProtectedCall fault =>
    rw [Operation.run, ensures_bind]
    refine Ensures.mono (Actor.failProtectedCall_spec hp.sound fault) ?_ ?_
    · rintro _ _ ⟨-, heap, stack, d, rfl, -⟩
      exact .refl _
    · rintro _ _ ⟨rfl, -⟩
      exact .refl _
  | collectGarbage => exact .refl _
  | answer child =>
    rw [Operation.run, ensures_bind, Actor.ensures_onStack]
    exact Ensures.mono (ensures_result _ _) (fun _ _ _ => .refl _) (fun _ _ _ => .refl _)
  | stand state wait => exact absurd rfl (hown state wait)

/-- Operations lead from one state of an actor to another. The scheduler notes nothing. -/
inductive Leads (p : Actor) : Actor → Prop
  /-- Nothing has happened. -/
  | refl : Leads p p
  /-- One more operation was done. -/
  | next {q : Actor} (op : Operation) (own : ∀ state wait, op ≠ .stand state wait)
      (before : Leads p q) : Leads p (op.after q)

namespace Leads

theorem trans (hqr : Leads q r) (hpq : Leads p q) : Leads p r := by
  induction hqr with
  | refl => exact hpq
  | next op hown _ ih => exact .next op hown ih

theorem reached (h : Leads p q) (hp : Reached config p) : Reached config q := by
  induction h with
  | refl => exact hp
  | next op _ _ ih => exact .next op ih

theorem steady (h : Leads p q) (hp : Steady p) : Steady q := by
  induction h with
  | refl => exact hp
  | next op _ _ ih => exact steady_after ih op

theorem same (h : Leads p q) (hp : Steady p) : Same p q := by
  induction h with
  | refl => exact .refl p
  | next op hown hbefore ih => exact (same_after (hbefore.steady hp) op hown).trans ih

/-- What an operation leaves, it leads to. -/
theorem of_ok (op : Operation) (hown : ∀ state wait, op ≠ .stand state wait) {o : Option Outcome}
    (h : op.run p = .ok o q) : Leads p q := by
  have hnext : Leads p (op.after p) := .next op hown .refl
  rwa [Operation.after, h] at hnext

/-- What an operation that fails leaves, it leads to as well. -/
theorem of_error (op : Operation) (hown : ∀ state wait, op ≠ .stand state wait)
    (h : op.run p = .error fault q) : Leads p q := by
  have hnext : Leads p (op.after p) := .next op hown .refl
  rwa [Operation.after, h] at hnext

end Leads

theorem leads_of_step {o : Option Outcome} (h : step loader now p = .ok o q) : Leads p q :=
  .of_ok (.step loader now) (fun _ _ => nofun) h

theorem leads_of_step_error (h : step loader now p = .error fault q) : Leads p q :=
  .of_error (.step loader now) (fun _ _ => nofun) h

/-- An action without a result leads where the operation that does it leads. -/
theorem run_eq_ok {act : Actor.Action Unit} (h : act p = .ok () q) :
    (do act; return none : Actor.Action (Option Outcome)) p = .ok none q := by
  simp only [bind, EStateM.bind, h, pure, EStateM.pure]

theorem run_eq_error {act : Actor.Action Unit} (h : act p = .error fault q) :
    (do act; return none : Actor.Action (Option Outcome)) p = .error fault q := by
  simp only [bind, EStateM.bind, h]

theorem leads_of_unwind (h : Actor.unwind fault p = .ok () q) : Leads p q :=
  .of_ok (.unwind fault) (fun _ _ => nofun) (run_eq_ok h)

theorem leads_of_failProtectedCall (h : Actor.failProtectedCall fault p = .ok () q) : Leads p q :=
  .of_ok (.failProtectedCall fault) (fun _ _ => nofun) (run_eq_ok h)

/-! ### Where a fault is caught -/

/-- A protected call is in progress, or the next instruction makes one. -/
def Protected (loader : Loader) (p : Actor) : Prop :=
  (∃ f ∈ p.frames, f.guarded = true) ∨ ∃ n r, Invokes loader p n true r

/-- The calls that were in progress when the innermost of the protected calls was executed, with the
innermost of them behind it. -/
inductive Innermost (config : ActorConfig) (loader : Loader) (p : Actor) : List Frame → Prop
  /-- The next instruction makes that call. -/
  | here {n ip : Nat} {r : Actor} (invokes : Invokes loader p n true r) (here : p.ip? = some ip) :
      Innermost config loader p (p.atIp (ip + 1)).frames
  /-- It is one of those in progress. -/
  | there {inner : List Frame} {f : Frame} {outer : List Frame}
      (none : ∀ n r, ¬ Invokes loader p n true r) (frames : p.frames = inner ++ f :: outer)
      (unguarded : ∀ g ∈ inner, g.guarded = false) (guarded : f.guarded = true)
      (guards : Guards config p f outer) : Innermost config loader p outer

/-- A fault that nothing catches. -/
inductive Uncaught (loader : Loader) (now : Time) (p : Actor) (fault : Fault) : Prop
  /-- It was raised by an instruction. -/
  | instruction {q : Actor} (fails : step loader now p = .error fault q)
      (unprotected : ¬ Protected loader p)
  /-- An actor was asked for that could not be started. -/
  | request {callee : Payload} {args : List Payload} {guarded : Bool} {q : Actor}
      {s s' : Scheduler} (asks : step loader now p = .ok (some (.newActor callee args guarded)) q)
      (fails : Scheduler.spawnCallable callee args s = .error fault s')
      (unprotected : ¬ Protected loader p)

/-- An instruction that makes a protected call leaves the calls as they are, behind it. -/
theorem Invokes.innermost (hp : Steady p) {n : Nat} (h : Invokes loader p n true r) :
    Innermost config loader p r.frames := by
  obtain ⟨⟨ip, hframes, hip⟩, -⟩ := h.spec hp
  rw [hframes]
  exact .here h hip

/-- Where the instruction pointer is does not matter to what is guarded. -/
theorem exists_guarded_atIp (p : Actor) (ip : Nat) :
    (∃ f ∈ (p.atIp ip).frames, f.guarded = true) ↔ ∃ f ∈ p.frames, f.guarded = true := by
  cases hframes : p.frames with
  | nil => simp only [Actor.atIp, hframes]
  | cons f outer => simp only [Actor.atIp, hframes, List.mem_cons, exists_eq_or_imp]

/-- A fault that is raised in or after an instruction that makes no protected call unwinds to the
innermost one in progress. -/
theorem unwind_innermost (h : Reached config p) (hq : Steady q)
    (hframes : q.frames = (p.atIp ip).frames) (hnone : ∀ n r, ¬ Invokes loader p n true r)
    (hprotected : Protected loader p) (fault : Fault) :
    ∃ frames below r, Innermost config loader p frames ∧ Actor.unwind fault q = .ok () r ∧
      Recovered fault frames below r := by
  have hguarded : ∃ f ∈ q.frames, f.guarded = true := by
    rw [hframes, exists_guarded_atIp]
    exact hprotected.resolve_right fun ⟨n, r, hinv⟩ => hnone n r hinv
  obtain ⟨inner, f, outer, r, hsplit, hinner, hf, hunwind, hrec⟩ := unwind_guarded hq hguarded fault
  rw [hframes] at hsplit
  obtain ⟨inner', f', hbefore, hsame, hmap⟩ := exists_frame_of_atIp hsplit
  have hf' : f'.guarded = true := (congrArg Frame.guarded hsame).trans hf
  -- The frame was made by a protected call before the instruction that has failed.
  have hguards := guarded_of_reached h hbefore hf'
  refine ⟨outer, _, r, .there hnone hbefore ?_ hf' hguards, hunwind, hrec⟩
  intro g hg
  have hmem : g.guarded ∈ inner.map Frame.guarded := hmap ▸ List.mem_map_of_mem hg
  obtain ⟨g', hg', heq⟩ := List.mem_map.1 hmem
  rw [← heq]
  exact hinner g' hg'

/-- Without a protected call a fault does not unwind. -/
theorem not_protected_of_unwind (hq : Steady q) (hframes : q.frames = (p.atIp ip).frames)
    (hnone : ∀ n r, ¬ Invokes loader p n true r) (h : Actor.unwind fault q = .error fault' r) :
    fault' = fault ∧ r = q ∧ ¬ Protected loader p := by
  obtain ⟨rfl, rfl, hunguarded⟩ := (Actor.unwind_spec hq.sound hq.room_guarded fault).of_error h
  refine ⟨rfl, rfl, ?_⟩
  rintro (hguarded | ⟨n, r, hinv⟩)
  · rw [← exists_guarded_atIp p ip, ← hframes] at hguarded
    obtain ⟨f, hf, hguarded⟩ := hguarded
    rw [hunguarded f hf] at hguarded
    cases hguarded
  · exact hnone n r hinv

/-- An instruction that fails makes no protected call and leaves the calls as they are. -/
theorem step_error_spec (hp : Steady p) (h : step loader now p = .error fault q) :
    Steady q ∧ (∃ ip, q.frames = (p.atIp ip).frames) ∧ ∀ n r, ¬ Invokes loader p n true r := by
  obtain ⟨ip, hkeeps⟩ := (step_spec hp loader now).of_error h
  exact ⟨(hp.atIp ip).of_keeps hkeeps, ⟨ip, hkeeps.frames⟩, fun _ _ => not_invokes_of_error hp h⟩

/-- What becomes of an instruction and of the fault that it may raise. -/
inductive Advances (loader : Loader) (now : Time) (p : Actor) : Option Outcome → Actor → Prop
  /-- It was executed. -/
  | executed {o : Option Outcome} {q : Actor} (step : step loader now p = .ok o q)
      (traps : ∀ fault, o ≠ some (.trap fault)) : Advances loader now p o q
  /-- It has failed, and its fault was caught. -/
  | unwound {fault : Fault} {q r : Actor} (fails : Machine.step loader now p = .error fault q)
      (unwinds : Actor.unwind fault q = .ok () r) : Advances loader now p none r
  /-- It has failed, and nothing has caught its fault. -/
  | trapped {fault : Fault} {q : Actor} (fails : Machine.step loader now p = .error fault q)
      (unprotected : ¬ Protected loader p) : Advances loader now p (some (.trap fault)) q

theorem advance_spec (hp : Steady p) (loader : Loader) (now : Time) :
    Advances loader now p (advance loader now p).1 (advance loader now p).2 := by
  rw [advance]
  cases hstep : step loader now p with
  | ok o q =>
    refine .executed hstep ?_
    rintro fault rfl
    exact step_ne_trap hp hstep
  | error fault q =>
    obtain ⟨hq, ⟨ip, hframes⟩, hnone⟩ := step_error_spec hp hstep
    cases hunwind : Actor.unwind fault q with
    | ok _ r =>
      simp only [hunwind]
      exact .unwound hstep hunwind
    | error fault' r =>
      simp only [hunwind]
      obtain ⟨rfl, rfl, hunprotected⟩ := not_protected_of_unwind hq hframes hnone hunwind
      exact .trapped hstep hunprotected

theorem Advances.leads {o : Option Outcome} (h : Advances loader now p o q) : Leads p q := by
  cases h with
  | executed hstep => exact leads_of_step hstep
  | unwound hfails hunwinds => exact (leads_of_unwind hunwinds).trans (leads_of_step_error hfails)
  | trapped hfails => exact leads_of_step_error hfails

end Machine

namespace Scheduler

open Actor (Recovered onStack)
open Machine

variable {p q r : Actor} {fault fault' : Fault} {loader : Loader} {config : ActorConfig}
  {s s' : Scheduler} {callee : Payload} {args : List Payload} {guarded : Bool} {child : Pid}

/-! ### Actors that are asked for -/

/-- A new actor is enrolled under the next pid and goes to the end of the ready queue. -/
theorem spawnCallable_eq_ok (h : spawnCallable callee args s = .ok child s') :
    child = s.registry.nextPid ∧
      ∃ p, Actor.start callee args (.create child s.config.actor) = .ok () p ∧
        s' = { s with registry := s.registry.enroll p, ready := s.ready ++ [child] }.notify
          (.started child) := by
  simp only [spawnCallable, bind, EStateM.bind, get, getThe, MonadStateOf.get, estateM_get] at h
  cases hstart : Actor.start callee args (.create s.registry.nextPid s.config.actor) with
  | ok _ p =>
    rw [hstart] at h
    obtain ⟨rfl, rfl⟩ := EStateM.Result.ok.inj h
    exact ⟨rfl, p, hstart, rfl⟩
  | error fault p =>
    rw [hstart] at h
    cases h

/-- If an actor cannot be started, nothing has happened. -/
theorem spawnCallable_eq_error (h : spawnCallable callee args s = .error fault s') : s' = s := by
  simp only [spawnCallable, bind, EStateM.bind, get, getThe, MonadStateOf.get, estateM_get] at h
  cases hstart : Actor.start callee args (.create s.registry.nextPid s.config.actor) with
  | ok _ p =>
    rw [hstart] at h
    cases h
  | error fault p =>
    rw [hstart] at h
    exact (EStateM.Result.error.inj h).2.symm

/-- An exported name is resolved first. What can be started then is a function. -/
theorem spawnExport_eq (s : Scheduler) (module name : String) (args : List Payload) :
    spawnExport module name args s =
      match s.loader.resolve module name with
      | .ok (.function routine) => spawn routine args s
      | .ok (.native _) => .error (.notCallable "native") s
      | .error fault => .error fault s := by
  simp only [spawnExport, bind, EStateM.bind, get, getThe, MonadStateOf.get, estateM_get]
  cases s.loader.resolve module name with
  | error fault => rfl
  | ok symbol => cases symbol <;> rfl

/-- An actor with another value in place of the top one. -/
def withTop (v : Value) (q : Actor) : Actor :=
  { q with stack := { q.stack with values := q.stack.values.setIfInBounds (q.stack.size - 1) v } }

/-- The top value is replaced if there is one. -/
theorem setTop_eq_ok (hsize : 0 < q.stack.size) (v : Value) :
    onStack (Stack.setAt (-1) v) q = .ok () (withTop v q) := by
  have hspec : Ensures (onStack (Stack.setAt (-1) v)) q (fun _ r => r = withTop v q)
      (fun _ _ => False) := by
    rw [Actor.ensures_onStack, Stack.ensures_setAt]
    refine ⟨fun n hn => ?_, fun fault hfault => ?_⟩
    · obtain ⟨-, rfl⟩ := Stack.slotOf_neg_one_eq_ok_iff.1 hn
      rw [Stack.ensures_setSlot]
      refine ⟨fun _ => rfl, ?_⟩
      omega
    · rw [Stack.slotOf_neg_one_eq_ok_iff.2 ⟨hsize, rfl⟩] at hfault
      cases hfault
  obtain ⟨_, r, hr, rfl⟩ := hspec.exists_ok
  exact hr

/-- The pid of the new actor is answered to the one that has asked for it. -/
theorem startRequested_of_ok (hsize : 0 < q.stack.size)
    (h : spawnCallable callee args s = .ok child s') :
    s.startRequested callee args guarded q = (s', withTop (.pid child) q, .resume) := by
  simp only [startRequested, h, setTop_eq_ok hsize]

theorem leads_withTop (hsize : 0 < q.stack.size) (child : Pid) :
    Leads q (withTop (.pid child) q) :=
  .of_ok (.answer child) (fun _ _ => nofun) (run_eq_ok (setTop_eq_ok hsize _))

/-- A new actor that cannot be started is a fault of the one that has asked for it. If that is
caught, the actor goes on. -/
theorem startRequested_of_caught (h : spawnCallable callee args s = .error fault s')
    (hcaught : (if guarded then Actor.failProtectedCall fault else Actor.unwind fault) q =
      .ok () r) :
    s.startRequested callee args guarded q = (s, r, .resume) := by
  obtain rfl := spawnCallable_eq_error h
  simp only [startRequested, h, hcaught]

/-- If it is not caught, the actor ends. -/
theorem startRequested_of_uncaught (h : spawnCallable callee args s = .error fault s')
    (huncaught : (if guarded then Actor.failProtectedCall fault else Actor.unwind fault) q =
      .error fault' r) :
    s.startRequested callee args guarded q = (s, r, .stop (.error fault')) := by
  obtain rfl := spawnCallable_eq_error h
  simp only [startRequested, h, huncaught]

/-- What is known when an actor was asked for: the calls are where they were, and the protected call
that has asked for it, if there is one, is over with its results on the stack. -/
theorem newActor_spec (hp : Steady p)
    (h : Machine.step loader now p = .ok (some (.newActor callee args guarded)) q) :
    Steady q ∧ resultSlots guarded ≤ q.stack.size ∧ (∃ ip, q.frames = (p.atIp ip).frames) ∧
      ((guarded = true ∧ ∃ n r, Invokes loader p n true r ∧ q.frames = r.frames) ∨
        (guarded = false ∧ ∀ n r, ¬ Invokes loader p n true r)) := by
  obtain ⟨hq, hsize, n, r, hinv, hframes⟩ := exists_invokes_of_newActor hp h
  obtain ⟨⟨ip, hr, -⟩, -⟩ := hinv.spec hp
  refine ⟨hq, hsize, ⟨ip + 1, hframes.trans hr⟩, ?_⟩
  cases guarded with
  | true => exact .inl ⟨rfl, n, r, hinv, hframes⟩
  | false =>
    refine .inr ⟨rfl, fun m r' hother => ?_⟩
    -- Otherwise the request would have been made under a protected call.
    have hminds := minds_of_invokes hp hother h
    cases hminds.newActor callee args false rfl

/-- Where a protected call is in progress or has asked for the actor, the failure to start it is
caught. -/
theorem startRequested_caught (h : Reached config p)
    (hasks : Machine.step loader now p = .ok (some (.newActor callee args guarded)) q)
    (hfails : spawnCallable callee args s = .error fault s') (hprotected : Protected loader p) :
    ∃ frames below r, Innermost config loader p frames ∧
      s.startRequested callee args guarded q = (s, r, .resume) ∧
      Recovered fault frames below r := by
  have hp := steady_of_reached h
  obtain ⟨hq, hsize, ⟨ip, hframes⟩, ⟨rfl, n, r, hinv, hr⟩ | ⟨rfl, hnone⟩⟩ := newActor_spec hp hasks
  -- The request was made under a protected call: its results are still on top of the stack.
  · have hspec := Actor.failProtectedCall_spec hq.sound fault
    cases hreport : Actor.failProtectedCall fault q with
    | ok _ q' =>
      obtain ⟨-, hreports⟩ := hspec.of_ok hreport
      have hrec : Recovered fault q.frames _ q' := hreports.recovered hq.request
      rw [hr] at hrec
      exact ⟨_, _, q', hinv.innermost hp, startRequested_of_caught hfails hreport, hrec⟩
    | error fault' q' =>
      obtain ⟨-, hshort⟩ := hspec.of_error hreport
      exact absurd hsize (Nat.not_le.2 hshort)
  -- It was not, so there is a guarded frame, and the fault unwinds to it.
  · obtain ⟨frames, below, r, hinnermost, hunwind, hrec⟩ :=
      unwind_innermost h hq hframes hnone hprotected fault
    exact ⟨frames, below, r, hinnermost, startRequested_of_caught hfails hunwind, hrec⟩

/-- In every case the actor that has asked for another goes on, or nothing catches its fault. -/
theorem startRequested_spec (hp : Steady p)
    (hasks : Machine.step loader now p = .ok (some (.newActor callee args guarded)) q)
    (s : Scheduler) :
    (∃ child s', spawnCallable callee args s = .ok child s' ∧
      s.startRequested callee args guarded q = (s', withTop (.pid child) q, .resume) ∧
      Leads q (withTop (.pid child) q)) ∨
    ∃ fault s', spawnCallable callee args s = .error fault s' ∧
      ((∃ r, s.startRequested callee args guarded q = (s, r, .resume) ∧ Leads q r) ∨
        (s.startRequested callee args guarded q = (s, q, .stop (.error fault)) ∧
          ¬ Protected loader p)) := by
  obtain ⟨hq, hsize, ⟨ip, hframes⟩, hcases⟩ := newActor_spec hp hasks
  cases hspawn : spawnCallable callee args s with
  | ok child s' =>
    -- The call has left its results, so there is a slot on top to answer in.
    have hpos : 0 < q.stack.size := by
      cases guarded <;> exact Nat.lt_of_lt_of_le (by decide) hsize
    exact .inl ⟨child, s', rfl, startRequested_of_ok hpos hspawn, leads_withTop hpos child⟩
  | error fault s' =>
    refine .inr ⟨fault, s', rfl, ?_⟩
    rcases hcases with ⟨rfl, -⟩ | ⟨rfl, hnone⟩
    · -- A protected call has room for the report, so the fault is always caught there.
      cases hreport : Actor.failProtectedCall fault q with
      | ok _ r =>
        exact .inl ⟨r, startRequested_of_caught hspawn hreport, leads_of_failProtectedCall hreport⟩
      | error fault' r =>
        obtain ⟨-, hshort⟩ := (Actor.failProtectedCall_spec hq.sound fault).of_error hreport
        exact absurd hsize (Nat.not_le.2 hshort)
    · cases hunwind : Actor.unwind fault q with
      | ok _ r =>
        exact .inl ⟨r, startRequested_of_caught hspawn hunwind, leads_of_unwind hunwind⟩
      | error fault' r =>
        obtain ⟨rfl, rfl, hunprotected⟩ := not_protected_of_unwind hq hframes hnone hunwind
        exact .inr ⟨startRequested_of_uncaught hspawn hunwind, hunprotected⟩

/-! ### Turns -/

/-- What a scheduler does for an actor that goes on. -/
inductive Answers (pid : Pid) (s : Scheduler) : Scheduler → Prop
  /-- Nothing that would concern others. -/
  | nothing : Answers pid s s
  /-- It delivers a message to another actor. -/
  | delivery (receiver : Pid) (payload : Payload) (other : receiver ≠ pid) :
      Answers pid s (s.deliver receiver payload)
  /-- It starts a new actor. -/
  | newActor {callee : Payload} {args : List Payload} {child : Pid} {s' : Scheduler}
      (spawned : spawnCallable callee args s = .ok child s') : Answers pid s s'
  /-- It tells the observers of a breakpoint. -/
  | notice (event : Event) : Answers pid s (s.notify event)

/-- What a turn of an actor does. -/
inductive Turn (s : Scheduler) (p : Actor) : Scheduler → Actor → Verdict → Prop
  /-- The actor goes on. -/
  | resumes {s' : Scheduler} {q : Actor} (leads : Leads p q)
      (answers : Answers p.pid { s with clock := s.clock.tick } s') : Turn s p s' q .resume
  /-- The actor gives way. -/
  | givesWay {q : Actor} (leads : Leads p q) :
      Turn s p { s with clock := s.clock.tick } { q with state := .ready } .suspend
  /-- The actor waits. -/
  | waits {q : Actor} (leads : Leads p q) (wait : Wait) :
      Turn s p { s with clock := s.clock.tick } { q with state := .blocked, wait := some wait }
        .suspend
  /-- The first function of the actor has returned. -/
  | ends {q : Actor} (leads : Leads p q) (result : Payload) :
      Turn s p { s with clock := s.clock.tick } q (.stop (.normal result))
  /-- A fault ends the actor, and nothing has caught it. -/
  | fails {q : Actor} {fault : Fault} (leads : Leads p q)
      (uncaught : Uncaught s.loader s.clock.now p fault) :
      Turn s p { s with clock := s.clock.tick } q (.stop (.error fault))

/-- One instruction, and what the scheduler does about it. -/
def turn (s : Scheduler) (p : Actor) : Scheduler × Actor × Verdict :=
  match Machine.advance s.loader s.clock.now p with
  | (none, p) => ({ s with clock := s.clock.tick }, p, .resume)
  | (some outcome, p) => settle outcome { s with clock := s.clock.tick } p

/-- What an actor asks for is done. -/
theorem settle_spec (hp : Steady p) {o : Outcome}
    (hstep : Machine.step s.loader s.clock.now p = .ok (some o) q) {t : Scheduler × Actor × Verdict}
    (ht : settle o { s with clock := s.clock.tick } q = t) : Turn s p t.1 t.2.1 t.2.2 := by
  have hleads := leads_of_step hstep
  have hpid := (hleads.same hp).1
  subst ht
  cases o with
  | send receiver payload =>
    rw [settle]
    split
    next =>
      -- A message of an actor to itself goes straight into its mailbox.
      cases hdeliver : Actor.deliver payload q with
      | ok _ r =>
        have hown : Leads q r := .of_ok (.deliver payload) (fun _ _ => nofun) (run_eq_ok hdeliver)
        exact .resumes (hown.trans hleads) .nothing
      | error fault r =>
        have hown : Leads q r :=
          .of_error (.deliver payload) (fun _ _ => nofun) (run_eq_error hdeliver)
        exact .resumes (hown.trans hleads) .nothing
    next hother => exact .resumes hleads (.delivery receiver payload (hpid ▸ hother))
  | newActor callee args guarded =>
    show Turn s p (startRequested _ _ _ _ _).1 (startRequested _ _ _ _ _).2.1
      (startRequested _ _ _ _ _).2.2
    rcases startRequested_spec hp hstep { s with clock := s.clock.tick } with
      ⟨child, s', hspawn, hr, hown⟩ | ⟨fault, s', hspawn, ⟨r, hr, hown⟩ | ⟨hr, hfree⟩⟩
    · rw [hr]
      exact .resumes (hown.trans hleads) (.newActor hspawn)
    · rw [hr]
      exact .resumes (hown.trans hleads) .nothing
    · rw [hr]
      exact .fails hleads (.request hstep hspawn hfree)
  | breakpoint ip => exact .resumes hleads (.notice _)
  | giveWay => exact .givesWay hleads
  | block deadline => exact .waits hleads _
  | sleep deadline => exact .waits hleads _
  | exit result =>
    -- The result can always be captured, so this end is never an error.
    obtain ⟨hq, hresult⟩ := backs_exit hp hstep
    obtain ⟨payload, hcapture⟩ := Payload.exists_capture hq.heap hresult
    rw [settle, hcapture]
    exact .ends hleads payload
  | trap fault => exact absurd hstep (step_ne_trap hp)

/-- Every turn does one of the things that turns do. -/
theorem turn_spec (hp : Steady p) {v : Verdict} (h : s.turn p = (s', q, v)) : Turn s p s' q v := by
  have hadvance := advance_spec hp s.loader s.clock.now
  rw [turn] at h
  generalize Machine.advance s.loader s.clock.now p = a at hadvance h
  obtain ⟨o, r⟩ := a
  cases hadvance with
  | executed hstep htraps =>
    cases o with
    | none =>
      obtain ⟨rfl, rfl, rfl⟩ : _ ∧ _ ∧ _ := by simpa using h
      exact .resumes (leads_of_step hstep) .nothing
    | some o => exact settle_spec hp hstep h
  | unwound hfails hunwinds =>
    obtain ⟨rfl, rfl, rfl⟩ : _ ∧ _ ∧ _ := by simpa using h
    exact .resumes ((leads_of_unwind hunwinds).trans (leads_of_step_error hfails)) .nothing
  | trapped hfails hunprotected =>
    obtain ⟨rfl, rfl, rfl⟩ : _ ∧ _ ∧ _ := by simpa [settle] using h
    exact .fails (leads_of_step_error hfails) (.instruction hfails hunprotected)

theorem attend_succ (budget : Nat) (s : Scheduler) (p : Actor) :
    attend (budget + 1) s p =
      match s.turn p with
      | (s, p, .resume) => attend budget s p
      | (s, p, .suspend) => some (s, p, none)
      | (s, p, .stop reason) => some (s, p, some reason) := by
  rw [attend, turn]
  dsimp only
  cases Machine.advance s.loader s.clock.now p with
  | mk o q => cases o <;> rfl

/-- Attending to an actor ends with a turn in which it does not go on. What every turn preserves in
which it does holds before that. -/
theorem of_attend {inv : Scheduler → Actor → Prop} {budget : Nat} {reason : Option ExitReason}
    (hturn : ∀ s p s' q, inv s p → s.turn p = (s', q, .resume) → inv s' q) (h : inv s p)
    (hattend : attend budget s p = some (s', q, reason)) :
    ∃ s₁ p₁, inv s₁ p₁ ∧ ((reason = none ∧ s₁.turn p₁ = (s', q, .suspend)) ∨
      ∃ r, reason = some r ∧ s₁.turn p₁ = (s', q, .stop r)) := by
  induction budget generalizing s p with
  | zero => cases hattend
  | succ budget ih =>
    rw [attend_succ] at hattend
    split at hattend
    next s₁ p₁ heq => exact ih (hturn s p s₁ p₁ h heq) hattend
    next s₁ p₁ heq =>
      obtain ⟨rfl, rfl, rfl⟩ : _ ∧ _ ∧ _ := by simpa using hattend
      exact ⟨s, p, h, .inl ⟨rfl, heq⟩⟩
    next s₁ p₁ r heq =>
      obtain ⟨rfl, rfl, rfl⟩ : _ ∧ _ ∧ _ := by simpa using hattend
      exact ⟨s, p, h, .inr ⟨r, rfl, heq⟩⟩

/-! ### Dispatches -/

/-- An actor whose turn comes is noted to be running, and its garbage may be collected. -/
theorem leads_prepared (p : Actor) : Leads { p with state := .running } (prepared p) := by
  rw [prepared]
  dsimp only
  split
  next => exact .next .collectGarbage (fun _ _ => nofun) .refl
  next => exact .refl

theorem reached_prepared (h : Reached config p) : Reached config (prepared p) := by
  have hrunning : Reached config { p with state := .running } :=
    .next (.stand .running p.wait) h
  exact (leads_prepared p).reached hrunning

/-- A dispatch attends to the actor. Then its end is recorded, or it is taken back. -/
theorem dispatch_eq_some {budget : Nat} (h : dispatch budget p s = some s') :
    ∃ s₁ q reason, attend budget s (prepared p) = some (s₁, q, reason) ∧
      ((reason = none ∧ s' = s₁.park q) ∨
        ∃ r, reason = some r ∧ s' = (s₁.finish p.pid r).collectModules.2) := by
  simp only [dispatch, bind, Option.bind_eq_some_iff, Prod.exists] at h
  obtain ⟨s₁, q, reason, hattend, hrest⟩ := h
  refine ⟨s₁, q, reason, hattend, ?_⟩
  cases reason with
  | none => exact .inl ⟨rfl, (Option.some.inj hrest).symm⟩
  | some r => exact .inr ⟨r, rfl, (Option.some.inj hrest).symm⟩

end Scheduler

end ActorMachine
