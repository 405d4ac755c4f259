import ActorMachine.Proofs.Machine.Routines
import ActorMachine.Proofs.Scheduler.Bookkeeping

/-!
# The code that a scheduler keeps

Code goes from actor to actor by messages and by the arguments of new actors, and what an actor
leaves behind when it ends keeps the code of its result.

* `Knows`: the code of all actors and of all exits is among what is known.
* `Minds`: what happens between two exits, as far as code is concerned. It leaves the loader and the
  exits alone.
* `step_ends`: so does a step, unless an actor ends in it. Then modules are collected right after.
-/

namespace ActorMachine.Scheduler

variable {known : Set Routine} {s s' s'' t : Scheduler} {pid : Pid} {p q : Actor} {budget : Nat}

/-- The code of all actors that live and of all exits is known. -/
structure Knows (known : Set Routine) (s : Scheduler) : Prop where
  /-- The code of the actors that live. -/
  living : ∀ pid p, s.actor? pid = some p → p.Knows known
  /-- The code of the reasons why the others have ended. -/
  exits : ∀ pid reason, s.exitReason? pid = some reason → reason.Knows known

/-- Nobody ends, the loader stays as it is, and the code of the actors stays known. -/
structure Minds (known : Set Routine) (s s' : Scheduler) : Prop where
  /-- The loader is the same. -/
  loader : s'.loader = s.loader
  /-- So are the exits. -/
  exits : s'.registry.exits = s.registry.exits
  /-- The code of the actors stays known. -/
  living : (∀ pid p, s.actor? pid = some p → p.Knows known) →
    ∀ pid p, s'.actor? pid = some p → p.Knows known

theorem Minds.of_registry (hloader : s'.loader = s.loader) (hregistry : s'.registry = s.registry) :
    Minds known s s' where
  loader := hloader
  exits := congrArg _ hregistry
  living hs pid p hp := hs pid p (by rwa [actor?, hregistry] at hp)

theorem Minds.refl (s : Scheduler) : Minds known s s :=
  .of_registry rfl rfl

theorem Minds.trans (h : Minds known s s') (h' : Minds known s' s'') : Minds known s s'' where
  loader := h'.loader.trans h.loader
  exits := h'.exits.trans h.exits
  living hs := h'.living (h.living hs)

theorem Minds.knows (h : Minds known s s') (hs : s.Knows known) : s'.Knows known where
  living := h.living hs.living
  exits pid reason hreason := hs.exits pid reason (by
    rwa [exitReason?, Registry.exitReason?, h.exits] at hreason)

theorem minds_notify (event : Event) (s : Scheduler) : Minds known s (s.notify event) := by
  obtain ⟨monitor, journal, hnotify⟩ := notify_spec event s
  rw [hnotify]
  exact .of_registry rfl rfl

theorem minds_put (hp : p.Knows known) (s : Scheduler) :
    Minds known s { s with registry := s.registry.put p } where
  loader := rfl
  exits := rfl
  living hs pid q hq := by
    rw [actor?, Registry.actor?, Registry.put, Table.find?_insert] at hq
    split at hq
    next =>
      obtain rfl := Option.some.inj hq
      exact hp
    next => exact hs pid q hq

theorem minds_lend (pid : Pid) (s : Scheduler) :
    Minds known s { s with registry := s.registry.lend pid } where
  loader := rfl
  exits := rfl
  living hs other q hq := by
    rw [actor?, Registry.actor?, Registry.lend, Table.find?_erase] at hq
    split at hq
    next => cases hq
    next => exact hs other q hq

/-- Lists of pids have nothing to do with code. -/
theorem Minds.relist (h : Minds known s s') (ready blocked : List Pid) :
    Minds known s { s' with ready, blocked } :=
  h.trans (.of_registry rfl rfl)

/-- A new actor keeps what it was given. -/
theorem minds_spawnCallable {callee : Payload} {args : List Payload} (hcallee : callee.Knows known)
    (hargs : ∀ payload ∈ args, payload.Knows known) (s : Scheduler) :
    Minds known s (after (spawnCallable callee args) s) := by
  rw [after]
  cases hspawn : spawnCallable callee args s with
  | error fault t =>
    obtain rfl := spawnCallable_eq_error hspawn
    exact .refl _
  | ok child t =>
    obtain ⟨rfl, p, hstart, rfl⟩ := spawnCallable_eq_ok hspawn
    have hp := ((Actor.upholds_start hcallee hargs).of_ok (Actor.knows_create _ _) hstart).1
    have henrolled : Minds known s { s with
        registry := s.registry.enroll p, ready := s.ready ++ [s.registry.nextPid] } :=
      { loader := rfl
        exits := rfl
        living := fun hs pid q hq => by
          rw [actor?, Registry.actor?_enroll] at hq
          split at hq
          next =>
            obtain rfl := Option.some.inj hq
            exact hp
          next => exact hs pid q hq }
    exact henrolled.trans (minds_notify _ _)

theorem minds_makeReady (s : Scheduler) (pid : Pid) : Minds known s (s.makeReady pid) := by
  rw [makeReady]
  split
  next =>
    dsimp only
    split
    next p hp =>
      -- The woken actor is one of those that live.
      refine ⟨rfl, rfl, fun hs => ?_⟩
      have hwoken : Actor.Knows known { p with wait := none, state := .ready } :=
        let h := hs pid p hp
        ⟨h.heap, h.frames, h.request⟩
      exact ((minds_put hwoken s).relist _ _).living hs
    next => exact .of_registry rfl rfl
  next => exact .refl s

/-- A message brings its own code. -/
theorem minds_deliver {payload : Payload} (hpayload : payload.Knows known) (receiver : Pid)
    (s : Scheduler) : Minds known s (s.deliver receiver payload) := by
  rw [deliver]
  split
  next => exact .refl s
  next p hp =>
    have hput (q : Actor) (hq : p.Knows known → q.Knows known) :
        Minds known s { s with registry := (s.registry.lend receiver).put q } := by
      refine ⟨rfl, rfl, fun hs => ?_⟩
      exact ((minds_lend receiver s).trans (minds_put (hq (hs receiver p hp)) _)).living hs
    have hdeliver := Actor.upholds_deliver hpayload
    cases hrun : Actor.deliver payload p with
    | error fault q => exact hput q fun hp => hdeliver.of_error hp hrun
    | ok _ q =>
      have hdelivered := hput q fun hp => (hdeliver.of_ok hp hrun).1
      dsimp only
      split
      next => exact hdelivered.trans (minds_makeReady _ receiver)
      next => exact hdelivered

theorem minds_wakeExpired (now : Time) (s : Scheduler) :
    Minds known s (s.wakeExpired now) := by
  rw [wakeExpired]
  generalize s.blocked.filter _ = pids
  induction pids generalizing s with
  | nil => exact .refl s
  | cons pid pids ih => exact (minds_makeReady s pid).trans (ih _)

/-! ### Turns -/

/-- If the new actor cannot be had, the fault is all that is handed on. -/
theorem minds_failure {s t : Scheduler} {q : Actor} (ht : Minds known s t) (hq : q.Knows known)
    (fault : Fault) (guarded : Bool) :
    let r := (match (if guarded then Actor.failProtectedCall fault else Actor.unwind fault) q with
      | .ok _ q => (t, q, Verdict.resume)
      | .error fault q => (t, q, Verdict.stop (.error fault)))
    Minds known s r.1 ∧ r.2.1.Knows known ∧
      ∀ reason, r.2.2 = .stop reason → reason.Knows known := by
  have hrecovery : Upholds (Actor.Knows known)
      (if guarded then Actor.failProtectedCall fault else Actor.unwind fault) fun _ => True := by
    cases guarded with
    | true => exact Actor.upholds_failProtectedCall fault
    | false => exact Actor.upholds_unwind fault
  cases hrun : (if guarded then Actor.failProtectedCall fault else Actor.unwind fault) q with
  | ok _ r => exact ⟨ht, (hrecovery.of_ok hq hrun).1, by rintro _ ⟨⟩⟩
  | error fault' r =>
    refine ⟨ht, hrecovery.of_error hq hrun, ?_⟩
    rintro _ ⟨⟩
    exact List.forall_mem_nil _

theorem minds_startRequested {callee : Payload} {args : List Payload}
    (hcallee : callee.Knows known) (hargs : ∀ payload ∈ args, payload.Knows known)
    (guarded : Bool) (s : Scheduler) (hp : p.Knows known) :
    Minds known s (s.startRequested callee args guarded p).1 ∧
      (s.startRequested callee args guarded p).2.1.Knows known ∧
      ∀ reason, (s.startRequested callee args guarded p).2.2 = .stop reason →
        reason.Knows known := by
  have hspawned := minds_spawnCallable hcallee hargs s
  rw [startRequested]
  rw [after] at hspawned
  cases hspawn : spawnCallable callee args s with
  | error fault t =>
    rw [hspawn] at hspawned
    exact minds_failure hspawned hp fault guarded
  | ok child t =>
    rw [hspawn] at hspawned
    -- Answering with the pid of the new actor brings no code in, whether it succeeds or not.
    have hset : Upholds (Actor.Knows known) (Actor.onStack (Stack.setAt (-1) (.pid child)))
        fun _ => True := Actor.upholds_onStack _
    cases hrun : Actor.onStack (Stack.setAt (-1) (.pid child)) p with
    | ok _ q =>
      simp only [hrun]
      exact ⟨hspawned, (hset.of_ok hp hrun).1, by rintro _ ⟨⟩⟩
    | error fault q =>
      simp only [hrun]
      exact minds_failure hspawned (hset.of_error hp hrun) fault guarded

/-- Doing what an outcome asks for brings no new code in, nor does the result of an actor. -/
theorem minds_settle {outcome : Outcome} (houtcome : outcome.Knows known) (s : Scheduler)
    (hp : p.Knows known) :
    Minds known s (s.settle outcome p).1 ∧ (s.settle outcome p).2.1.Knows known ∧
      ∀ reason, (s.settle outcome p).2.2 = .stop reason → reason.Knows known := by
  -- Of an actor that goes on no reason is asked for.
  have hresume (r : Actor) (hr : r.Knows known) (t : Scheduler) (ht : Minds known s t) :
      Minds known s t ∧ r.Knows known ∧
        ∀ reason, Verdict.resume = .stop reason → reason.Knows known :=
    ⟨ht, hr, by rintro _ ⟨⟩⟩
  cases outcome with
  | send receiver payload =>
    rw [settle]
    split
    next =>
      have hdeliver : Upholds (Actor.Knows known) (Actor.deliver payload) fun _ => True :=
        Actor.upholds_deliver houtcome
      cases hrun : Actor.deliver payload p with
      | ok _ q => exact hresume q (hdeliver.of_ok hp hrun).1 s (.refl s)
      | error fault q => exact hresume q (hdeliver.of_error hp hrun) s (.refl s)
    next => exact hresume p hp _ (minds_deliver houtcome receiver s)
  | newActor callee args guarded =>
    exact minds_startRequested houtcome.1 houtcome.2 guarded s hp
  | breakpoint ip => exact hresume p hp _ (minds_notify _ s)
  | giveWay | block | sleep => exact ⟨.refl s, ⟨hp.heap, hp.frames, hp.request⟩, by rintro _ ⟨⟩⟩
  | exit result =>
    rw [settle]
    cases hcapture : Payload.capture p.heap result with
    | ok payload =>
      refine ⟨.refl s, hp, ?_⟩
      rintro _ ⟨⟩
      exact Payload.knows_of_capture hp.heap hcapture
    | error fault =>
      refine ⟨.refl s, hp, ?_⟩
      rintro _ ⟨⟩
      exact List.forall_mem_nil _
  | trap fault =>
    refine ⟨.refl s, hp, ?_⟩
    rintro _ ⟨⟩
    exact List.forall_mem_nil _

theorem minds_turn (hloader : s.loader.Furnishes known) (hp : p.Knows known) {v : Verdict}
    (h : s.turn p = (s', q, v)) :
    Minds known s s' ∧ q.Knows known ∧ ∀ reason, v = .stop reason → reason.Knows known := by
  have hadvance := Machine.knows_advance hloader s.clock.now hp
  have htick : Minds known s { s with clock := s.clock.tick } := .of_registry rfl rfl
  rw [turn] at h
  generalize Machine.advance s.loader s.clock.now p = a at hadvance h
  obtain ⟨o, r⟩ := a
  obtain ⟨hr, ho⟩ := hadvance
  cases o with
  | none =>
    obtain ⟨rfl, rfl, rfl⟩ : _ ∧ _ ∧ _ := by simpa using h
    exact ⟨htick, hr, by rintro _ ⟨⟩⟩
  | some outcome =>
    have hsettle := minds_settle (ho outcome rfl) { s with clock := s.clock.tick } hr
    dsimp only at h
    rw [h] at hsettle
    exact ⟨htick.trans hsettle.1, hsettle.2⟩

/-! ### Steps -/

theorem knows_prepared (hp : p.Knows known) : (prepared p).Knows known := by
  have hrunning : Actor.Knows known { p with state := .running } :=
    ⟨hp.heap, hp.frames, hp.request⟩
  rw [prepared]
  split
  next =>
    cases hrun : Actor.collectGarbage { p with state := .running } with
    | ok _ q => exact (Actor.upholds_collectGarbage.of_ok hrunning hrun).1
    | error fault q => exact Actor.upholds_collectGarbage.of_error hrunning hrun
  next => exact hrunning

theorem minds_park (hp : p.Knows known) (s : Scheduler) : Minds known s (s.park p) := by
  rw [park]
  split
  next => exact (minds_put hp s).trans (.of_registry rfl rfl)
  next => exact (minds_put hp s).trans (.of_registry rfl rfl)

/-- Something happens that leaves loader and exits alone, and then perhaps an actor ends and modules
are collected. -/
inductive Ends (known : Set Routine) (s : Scheduler) : Scheduler → Prop
  /-- Nobody ends. -/
  | none {s' : Scheduler} (minds : Minds known s s') : Ends known s s'
  /-- An actor ends. -/
  | one {t : Scheduler} (minds : Minds known s t) (pid : Pid) (reason : ExitReason)
      (knows : reason.Knows known) : Ends known s (t.finish pid reason).collectModules.2

theorem Minds.ends (h : Minds known s s') (h' : Ends known s' s'') : Ends known s s'' := by
  cases h' with
  | none minds => exact .none (h.trans minds)
  | one minds pid reason knows => exact .one (h.trans minds) pid reason knows

theorem dispatch_ends (hloader : s.loader.Furnishes known) (hp : p.Knows known)
    (hdispatch : dispatch budget p s = some s') : Ends known s s' := by
  obtain ⟨t, q, reason, hattend, hend⟩ := dispatch_eq_some hdispatch
  -- As long as the actor goes on, its code stays known, and so does that of the others.
  have hturn : ∀ u r u' r', (Minds known s u ∧ r.Knows known) → u.turn r = (u', r', .resume) →
      Minds known s u' ∧ r'.Knows known := by
    rintro u r u' r' ⟨hminds, hr⟩ hturn
    obtain ⟨hnext, hr', -⟩ := minds_turn (hminds.loader ▸ hloader) hr hturn
    exact ⟨hminds.trans hnext, hr'⟩
  obtain ⟨u, r, ⟨hminds, hr⟩, hlast⟩ := of_attend hturn ⟨.refl s, knows_prepared hp⟩ hattend
  have hfurnishes : u.loader.Furnishes known := hminds.loader ▸ hloader
  rcases hend with ⟨rfl, rfl⟩ | ⟨reason, rfl, rfl⟩
  · rcases hlast with ⟨-, hlast⟩ | ⟨_, hreason, -⟩
    · obtain ⟨hnext, hq, -⟩ := minds_turn hfurnishes hr hlast
      exact .none ((hminds.trans hnext).trans (minds_park hq t))
    · cases hreason
  · rcases hlast with ⟨hnone, -⟩ | ⟨_, hreason, hlast⟩
    · cases hnone
    · obtain rfl := Option.some.inj hreason
      obtain ⟨hnext, -, hknows⟩ := minds_turn hfurnishes hr hlast
      exact .one (hminds.trans hnext) p.pid reason (hknows reason rfl)

theorem step_ends (hloader : s.loader.Furnishes known)
    (hliving : ∀ pid p, s.actor? pid = some p → p.Knows known) {outcome : StepOutcome}
    (hstep : s.step budget = some (outcome, s')) : Ends known s s' := by
  have hawake : Minds known s s.awake :=
    (minds_wakeExpired s.clock.now s).trans (.of_registry rfl rfl)
  have hconsult : Minds known s s.awake.consult.2 := by
    obtain ⟨monitor, journal, observers, hconsult⟩ := consult_spec s.awake
    rw [hconsult]
    exact hawake.trans (.of_registry rfl rfl)
  cases step_cases hstep with
  | nothing => exact .none hawake
  | heldUp _ hasked =>
    rw [hasked] at hconsult
    exact .none hconsult
  | missing _ hasked =>
    rw [hasked] at hconsult
    exact .none (hconsult.trans (.of_registry rfl rfl))
  | @ran pid rest t _ p _ hasked hlive hdispatch =>
    rw [hasked] at hconsult
    -- The actor is out of the table now, but it still knows its code.
    have hlent : Minds known s { t with ready := rest, registry := t.registry.lend pid } :=
      (hconsult.trans (minds_lend pid t)).trans (.of_registry rfl rfl)
    have hp := hconsult.living hliving pid p hlive
    exact hlent.ends (dispatch_ends (hlent.loader ▸ hloader) hp hdispatch)

end ActorMachine.Scheduler
