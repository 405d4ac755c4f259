import ActorMachine.Proofs.Actor.Starting
import ActorMachine.Proofs.Scheduler.Tables
import ActorMachine.Proofs.Scheduler.Turn

/-!
# Starting an actor, or not

An actor that cannot be started leaves no trace, whoever wants it started and whatever it fails for.
One that can be started has what it was given, and everything else is as it was.

* `Callee`: the ways in which an embedding program says what a new actor is to call.
* `Starts`: what there is after an actor was started.
* `spawnsCleanly`: there is that or nothing, also when a running actor has asked for it.
-/

namespace ActorMachine.Scheduler

open Machine (Reached Intact Protected localSlot)

variable {s s' : Scheduler} {p q : Actor} {callee : Payload} {args : List Payload} {child : Pid}
  {guarded : Bool} {config : ActorConfig}

/-! ### What is called -/

/-- What a new actor is to call. -/
inductive Callee
  /-- The code of a routine. -/
  | routine (entry : Routine)
  /-- A function that a module exports. -/
  | exported (module name : String)
  /-- A payload, which ought to be a closure. -/
  | callable (callee : Payload)

namespace Callee

/-- Starts an actor that calls it. -/
def spawn : Callee → List Payload → Action Pid
  | routine entry => Scheduler.spawn entry
  | exported module name => spawnExport module name
  | callable callee => spawnCallable callee

/-- The payload that is called, or why there is none. -/
def target (s : Scheduler) : Callee → Except Fault Payload
  | routine entry => .ok (.closure entry [])
  | exported module name =>
    match s.loader.resolve module name with
    | .ok (.function entry) => .ok (.closure entry [])
    | .ok (.native _) => .error (.notCallable "native")
    | .error fault => .error fault
  | callable callee => .ok callee

/-- Whatever is called, the actor is started in the same way. -/
theorem spawn_eq (e : Callee) (args : List Payload) (s : Scheduler) : e.spawn args s =
    match e.target s with
    | .ok callee => spawnCallable callee args s
    | .error fault => .error fault s := by
  cases e with
  | routine | callable => rfl
  | exported module name =>
    rw [spawn, spawnExport_eq, target]
    cases s.loader.resolve module name with
    | error fault => rfl
    | ok symbol => cases symbol <;> rfl

end Callee

/-! ### What there is afterwards -/

/-- A new actor, as it waits for its first turn. -/
structure Newcomer (callee : Payload) (args : List Payload) (child : Pid) (config : ActorConfig)
    (p : Actor) : Prop where
  /-- It was made of the payloads alone. -/
  made : Actor.start callee args (.create child config) = .ok () p
  /-- It has the pid that was given out. -/
  pid : p.pid = child
  /-- It is ready. -/
  state : p.state = .ready
  /-- It is about to execute the first instruction of the callee. -/
  call : ∃ routine captured, callee = .closure routine captured ∧
    args.length = routine.prototype.arguments.toNat ∧ p.frames = [⟨routine, 0, 0, false⟩]
  /-- Its local variables begin with the arguments: each is a value that stands for the payload. -/
  locals : ∀ f ∈ p.frames, ∀ (index : UInt32) (hindex : index.toNat < args.length), ∃ slot v,
    localSlot f index = .ok slot ∧ p.stack.slot slot = .ok v ∧
      Payload.capture p.heap v = .ok args[index.toNat]
  /-- All that it can refer to is in its own heap. -/
  intact : Intact p

/-- An actor was started. -/
structure Starts (callee : Payload) (args : List Payload) (child : Pid) (s s' : Scheduler) :
    Prop where
  /-- It has got the pid that was next. -/
  next : child = s.registry.nextPid
  /-- It is there, ready and with its arguments. -/
  newcomer : ∃ p, s'.actor? child = some p ∧ Newcomer callee args child s.config.actor p
  /-- It comes last in the queue. -/
  ready : s'.ready = s.ready ++ [child]
  /-- All other actors are as they were. -/
  others : ∀ other, other ≠ child → s'.actor? other = s.actor? other
  /-- The observers are told of it and of nothing else, and everything else is as it was. -/
  rest : ∃ registry, s' = { s with registry, ready := s'.ready }.notify (.started child) ∧
    registry.exits = s.registry.exits ∧ registry.nextPid = ⟨child.number + 1⟩

/-- The arguments are above the callee. -/
theorem local_of_launched (h : Actor.Launched callee args p) {f : Frame} (hf : f ∈ p.frames)
    (index : UInt32) (hindex : index.toNat < args.length) : ∃ slot v,
      localSlot f index = .ok slot ∧ p.stack.slot slot = .ok v ∧
        Payload.capture p.heap v = .ok args[index.toNat] := by
  obtain ⟨routine, captured, -, harguments, hframes⟩ := h.call
  obtain ⟨values, locals, hstack, hstand⟩ := h.stack
  rw [hframes, List.mem_singleton] at hf
  subst hf
  have hsize : index.toNat < routine.prototype.frameSize := by
    rw [Prototype.frameSize]
    omega
  -- The callee has the lowest slot, so the argument of an index is one slot above that index.
  obtain ⟨hlength, hget⟩ := List.forall₂_iff_get.1 hstand
  have hvalue : 1 + index.toNat < values.length := by
    rw [hlength, List.length_cons]
    omega
  have hstands := hget (1 + index.toNat) hvalue (by rw [← hlength]; exact hvalue)
  refine ⟨1 + index.toNat, values[1 + index.toNat], ?_, ?_, ?_⟩
  · rw [localSlot, if_pos hsize]
    rfl
  · rw [Stack.slot_eq_ok_iff, ← Array.getElem?_toList]
    change p.stack.toList[1 + index.toNat]? = _
    rw [hstack, List.getElem?_append_left hvalue, List.getElem?_eq_getElem hvalue]
  · simpa [Nat.add_comm 1] using hstands

/-- An actor that was started waits for its first turn. -/
theorem newcomer_of_start (hstart : Actor.start callee args (.create child config) = .ok () p) :
    Newcomer callee args child config p := by
  obtain ⟨hlaunched, hmade⟩ := Actor.start_holds hstart
  refine ⟨hstart, ?_, ?_, hlaunched.call, fun f hf => local_of_launched hlaunched hf, ?_⟩
  · rw [hmade]
    rfl
  · rw [hmade]
    rfl
  · exact Machine.intact_of_reached (.start hstart)

theorem starts_of_spawnCallable (hspawn : spawnCallable callee args s = .ok child s') :
    Starts callee args child s s' := by
  obtain ⟨rfl, p, hstart, rfl⟩ := spawnCallable_eq_ok hspawn
  obtain ⟨monitor, journal, htold⟩ := notify_spec (.started s.registry.nextPid)
    { s with registry := s.registry.enroll p, ready := s.ready ++ [s.registry.nextPid] }
  have hactor : ∀ pid, (notify (.started s.registry.nextPid)
      { s with registry := s.registry.enroll p, ready := s.ready ++ [s.registry.nextPid] }).actor?
        pid = if pid = s.registry.nextPid then some p else s.actor? pid := by
    intro pid
    rw [htold]
    exact Registry.actor?_enroll p s.registry pid
  refine ⟨rfl, ⟨p, ?_, newcomer_of_start hstart⟩, ?_, fun other hother => ?_, ?_⟩
  · rw [hactor, if_pos rfl]
  · rw [htold]
  · rw [hactor, if_neg hother]
  · exact ⟨s.registry.enroll p, by simp only [htold], rfl, rfl⟩

/-! ### All ways of starting -/

/-- What becomes of every attempt to start an actor. -/
structure SpawnsCleanly (s : Scheduler) : Prop where
  /-- An attempt from outside that fails leaves no trace. -/
  failed : ∀ (e : Callee) (args : List Payload) (fault : Fault) (s' : Scheduler),
    e.spawn args s = .error fault s' → s' = s
  /-- After one that succeeds the actor is there. -/
  started : ∀ (e : Callee) (args : List Payload) (child : Pid) (s' : Scheduler),
    e.spawn args s = .ok child s' →
    ∃ callee, e.target s = .ok callee ∧ Starts callee args child s s'
  /-- It is the same when a running actor has asked for the other one. It is answered the pid, and
  nothing else happens to it; or the attempt has failed, which is a fault of its own, and no trace
  is left among the others. -/
  requested : ∀ config loader now p callee args guarded q, Reached config p →
    Machine.step loader now p = .ok (some (.newActor callee args guarded)) q →
    (∃ child s', Starts callee args child s s' ∧
      s.settle (.newActor callee args guarded) q = (s', withTop (.pid child) q, .resume)) ∨
    ∃ fault, spawnCallable callee args s = .error fault s ∧
      ((∃ r, s.settle (.newActor callee args guarded) q = (s, r, .resume)) ∨
        (s.settle (.newActor callee args guarded) q = (s, q, .stop (.error fault)) ∧
          ¬ Protected loader p))

/-- In every state of a scheduler, starting an actor fails and leaves no trace, or succeeds: then
the new actor has the next pid, comes last in the queue and has the arguments as its first locals,
which were rebuilt in a heap of its own, while all others are as they were. -/
theorem spawnsCleanly (s : Scheduler) : SpawnsCleanly s where
  failed e args fault s' h := by
    rw [Callee.spawn_eq] at h
    cases htarget : e.target s with
    | ok callee =>
      rw [htarget] at h
      exact spawnCallable_eq_error h
    | error fault =>
      rw [htarget] at h
      cases h
      rfl
  started e args child s' h := by
    rw [Callee.spawn_eq] at h
    cases htarget : e.target s with
    | ok callee =>
      rw [htarget] at h
      exact ⟨callee, rfl, starts_of_spawnCallable h⟩
    | error fault =>
      rw [htarget] at h
      cases h
  requested config loader now p callee args guarded q hreached hasks := by
    rw [show s.settle (.newActor callee args guarded) q = s.startRequested callee args guarded q
      from rfl]
    rcases startRequested_spec (Machine.steady_of_reached hreached) hasks s with
      ⟨child, s', hspawn, hr, -⟩ | ⟨fault, s', hspawn, hcases⟩
    · exact .inl ⟨child, s', starts_of_spawnCallable hspawn, hr⟩
    · -- The fault is raised in the one who asked, or it becomes the result of a protected call.
      obtain rfl := spawnCallable_eq_error hspawn
      refine .inr ⟨fault, hspawn, ?_⟩
      rcases hcases with ⟨r, hr, -⟩ | hends
      · exact .inl ⟨r, hr⟩
      · exact .inr hends

/-- A function that passes its argument on to an actor that it starts, and returns the pid. -/
def parent : Routine :=
  .loose
    { Prototype.blank with
      arguments := 1
      code := #[.importSymbol 0, .makeClosure 0, .loadLocal 0, .call 2, .ret]
      imports := #[{ module := "std-process", name := "spawn" }]
      nested := [{ Prototype.blank with arguments := 1, code := #[.loadLocal 0, .ret] }] }

/-- Nil cannot be started, nor can the parent without an argument. With one it can, and once it has
executed three instructions it asks for an actor that can be started as well. -/
theorem spawnsCleanly_parent :
    let s := create {} .standard .standing
    let p := Machine.stepped .standard 0 (Machine.started {} (.closure parent []) [.int 5]) 3
    SpawnsCleanly s ∧ (∃ fault, (Callee.callable .nil).spawn [] s = .error fault s) ∧
      (∃ fault, (Callee.routine parent).spawn [] s = .error fault s) ∧
      (∃ s', (Callee.routine parent).spawn [.int 5] s = .ok ⟨1⟩ s' ∧
        Starts (.closure parent []) [.int 5] ⟨1⟩ s s') ∧
      ∃ callee v q s', Machine.step .standard 0 p = .ok (some (.newActor callee [v] false)) q ∧
        Starts callee [v] ⟨1⟩ s s' ∧
        s.settle (.newActor callee [v] false) q = (s', withTop (.pid ⟨1⟩) q, .resume) := by
  intro s p
  have hspawns := spawnsCleanly s
  -- A start that fails leaves the scheduler as it is, so it is enough to know that it fails.
  have hfails : ∀ (e : Callee) (args : List Payload),
      (match e.spawn args s with | .ok .. => false | .error .. => true) = true →
      ∃ fault, e.spawn args s = .error fault s := by
    intro e args h
    cases hrun : e.spawn args s with
    | ok child s' => simp [hrun] at h
    | error fault s' => exact ⟨fault, by rw [hspawns.failed e args fault s' hrun]⟩
  refine ⟨hspawns, hfails _ _ (by decide +kernel), hfails _ _ (by decide +kernel), ?_, ?_⟩
  · have hok : (match (Callee.routine parent).spawn [.int 5] s with
        | .ok .. => true | .error .. => false) = true := by decide +kernel
    cases hrun : (Callee.routine parent).spawn [.int 5] s with
    | ok child s' =>
      obtain ⟨callee, htarget, hstarts⟩ := hspawns.started _ _ _ _ hrun
      obtain rfl := Except.ok.inj htarget
      obtain rfl : child = ⟨1⟩ := hstarts.next
      exact ⟨s', rfl, hstarts⟩
    | error fault s' => simp [hrun] at hok
  · have hreached : Reached {} p :=
      Machine.reached_stepped (Machine.reached_started (by decide +kernel)) .standard 0 3
    have hasks : (match Machine.step .standard 0 p with
        | .ok (some (.newActor callee args guarded)) _ =>
          !guarded && args.length == 1 &&
            match spawnCallable callee args s with | .ok .. => true | .error .. => false
        | .ok (some (.send ..)) _ | .ok (some (.breakpoint _)) _ | .ok (some .giveWay) _
        | .ok (some (.block _)) _ | .ok (some (.sleep _)) _ | .ok (some (.exit _)) _
        | .ok (some (.trap _)) _ | .ok none _ | .error .. => false) = true := by decide +kernel
    split at hasks
    next callee args guarded q hstep =>
      simp only [Bool.and_eq_true, Bool.not_eq_true', beq_iff_eq] at hasks
      obtain ⟨⟨rfl, hlength⟩, hspawn⟩ := hasks
      obtain ⟨v, rfl⟩ := List.length_eq_one_iff.1 hlength
      rcases hspawns.requested {} .standard 0 p callee [v] false q hreached hstep with
        ⟨child, s', hstarts, hsettle⟩ | ⟨fault, hfault, -⟩
      · obtain rfl : child = ⟨1⟩ := hstarts.next
        exact ⟨callee, v, q, s', hstep, hstarts, hsettle⟩
      · simp [hfault] at hspawn
    all_goals cases hasks

end ActorMachine.Scheduler
