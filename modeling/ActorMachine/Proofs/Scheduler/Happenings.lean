import ActorMachine.Proofs.Machine.Outcomes
import ActorMachine.Proofs.Scheduler.History

/-!
# What happens in a scheduler

Moves leave open what becomes of the observers, the journal and the monitor. Here every move says
what happens in it, as far as observers are concerned: who is started, who has executed a breakpoint
and who has ended, and which observers come and go. That is read off the programs and the tables and
not off what anybody is told.

* `Happens`, `Chronicle`: a move with what happens in it, and moves one after the other.
* `Happens.valid`: what holds at every moment still does.
* `Deed`, `recounted_carryOutAll`: all that can be done to a scheduler has a chronicle.
-/

namespace ActorMachine.Scheduler

open Machine

variable {s s' t : Scheduler} {pid : Pid} {p q : Actor} {budget : Nat} {m m' m'' : Moment}

/-- Something that happens in a scheduler. -/
inductive Happening
  /-- An actor was started. -/
  | started (pid : Pid)
  /-- An actor has executed a breakpoint. -/
  | broke (pid : Pid) (ip : Nat)
  /-- An actor has ended. -/
  | ended (pid : Pid) (reason : ExitReason)
  /-- The observers were asked for a dispatch. -/
  | asked
  /-- An observer was attached. -/
  | attached (o : Observer)
  /-- An observer was detached. -/
  | detached (id : ObserverId)
  /-- The journal was handed over. -/
  | handedOver (journal : Array (ObserverId × Event))

variable {hs hs' : List Happening}

/-- What happens when an actor is to be started. Nothing does if that fails. -/
def starts (callee : Payload) (args : List Payload) (s : Scheduler) : List Happening :=
  match spawnCallable callee args s with
  | .ok child _ => [.started child]
  | _ => []

/-- What happens when an actor is to be killed. -/
def kills (pid : Pid) (s : Scheduler) : List Happening :=
  if (s.actor? pid).isSome then [.ended pid .killed] else []

/-- What happens in a turn, apart from the end of the actor. -/
def inTurn (s : Scheduler) (p : Actor) : List Happening :=
  match breaksAt? p with
  | some ip => [.broke p.pid ip]
  | none =>
    match (advance s.loader s.clock.now p).1 with
    | some (.newActor callee args _) => starts callee args { s with clock := s.clock.tick }
    | _ => []

/-- What leads from one moment to the next, with what happens in between. The monitor is read,
paused and resumed from outside, also while an actor is being run. -/
inductive Happens : Moment → List Happening → Moment → Prop
  /-- An actor is to be started from outside. -/
  | spawn (s : Scheduler) (callee : Payload) (args : List Payload) :
      Happens ⟨s, none⟩ (starts callee args s) ⟨after (spawnCallable callee args) s, none⟩
  /-- A message is sent from outside. -/
  | send (s : Scheduler) (receiver : Pid) (payload : Payload) :
      Happens ⟨s, none⟩ [] ⟨s.send receiver payload, none⟩
  /-- An actor is to be killed. -/
  | kill (s : Scheduler) (pid : Pid) : Happens ⟨s, none⟩ (kills pid s) ⟨(s.kill pid).2, none⟩
  /-- The actors whose time has come are woken. -/
  | wake (s : Scheduler) (now : Time) : Happens ⟨s, none⟩ [] ⟨s.wakeExpired now, none⟩
  /-- Time goes by, and modules are loaded. -/
  | provide (s : Scheduler) (loader : Loader) (clock : Clock) :
      Happens ⟨s, none⟩ [] ⟨{ s with loader, clock }, none⟩
  /-- Modules are linked. -/
  | link (s : Scheduler) : Happens ⟨s, none⟩ [] ⟨after Scheduler.link s, none⟩
  /-- An observer is attached. -/
  | attach (s : Scheduler) (role : ObserverRole) :
      Happens ⟨s, none⟩ [.attached ⟨(s.attach role).1, role⟩] ⟨(s.attach role).2, none⟩
  /-- An observer is detached. -/
  | detach (s : Scheduler) (id : ObserverId) :
      Happens ⟨s, none⟩ [.detached id] ⟨(s.detach id).2, none⟩
  /-- The journal is handed over. -/
  | takeJournal (s : Scheduler) :
      Happens ⟨s, none⟩ [.handedOver s.takeJournal.1] ⟨s.takeJournal.2, none⟩
  /-- The observers are asked for a dispatch. -/
  | consult (s : Scheduler) : Happens ⟨s, none⟩ [.asked] ⟨s.consult.2, none⟩
  /-- The run loop is paused, or no longer so. -/
  | pause (s : Scheduler) (hand : Option Actor) (paused : Bool) :
      Happens ⟨s, hand⟩ [] ⟨{ s with monitor := { s.monitor with paused } }, hand⟩
  /-- The counters are read. -/
  | read (s : Scheduler) (hand : Option Actor) :
      Happens ⟨s, hand⟩ [] ⟨{ s with monitor := s.monitor.read.2 }, hand⟩
  /-- The first of the ready actors gets its turn. -/
  | begin {s : Scheduler} {pid : Pid} {ready : List Pid} {p : Actor} (first : s.ready = pid :: ready)
      (live : s.actor? pid = some p) :
      Happens ⟨s, none⟩ [] ⟨{ s with ready, registry := s.registry.lend pid }, some (prepared p)⟩
  /-- The actor being run has executed an instruction and goes on. -/
  | resume {s s' : Scheduler} {p q : Actor} (turn : s.turn p = (s', q, .resume)) :
      Happens ⟨s, some p⟩ (inTurn s p) ⟨s', some q⟩
  /-- It gives way or waits. -/
  | suspend {s s' : Scheduler} {p q : Actor} (turn : s.turn p = (s', q, .suspend)) :
      Happens ⟨s, some p⟩ (inTurn s p) ⟨s'.park q, none⟩
  /-- It has ended. -/
  | stop {s s' : Scheduler} {p q : Actor} {reason : ExitReason}
      (turn : s.turn p = (s', q, .stop reason)) :
      Happens ⟨s, some p⟩ (inTurn s p ++ [.ended p.pid reason])
        ⟨(s'.finish p.pid reason).collectModules.2, none⟩

/-- Moves one after the other, with what happens in them. -/
inductive Chronicle : Moment → List Happening → Moment → Prop
  /-- There was none. -/
  | nil (m : Moment) : Chronicle m [] m
  /-- A move comes first. -/
  | cons {m m' m'' : Moment} {hs hs' : List Happening} (first : Happens m hs m')
      (rest : Chronicle m' hs' m'') : Chronicle m (hs ++ hs') m''

theorem Happens.chronicle (h : Happens m hs m') : Chronicle m hs m' :=
  hs.append_nil ▸ .cons h (.nil m')

theorem Chronicle.trans (h : Chronicle m hs m') (h' : Chronicle m' hs' m'') :
    Chronicle m (hs ++ hs') m'' := by
  induction h with
  | nil => exact h'
  | cons hfirst _ ih =>
    rw [List.append_assoc]
    exact .cons hfirst (ih h')

/-! ### What holds at every moment -/

/-- What only observers and the monitor know of does not matter. -/
theorem Valid.watched {hand : Option Actor} (h : Valid ⟨s, hand⟩) (observers : List Observer)
    (nextObserver : Nat) (monitor : Monitor) (journal : Array (ObserverId × Event)) :
    Valid ⟨{ s with observers, nextObserver, monitor, journal }, hand⟩ := by
  have hkeep : Follows s (hand.map Actor.pid)
      { s with observers, nextObserver, monitor, journal } := h.booked.keep rfl rfl rfl rfl
  exact ⟨hkeep.booked, h.running, h.allRead⟩

/-- What is done with the loader concerns the loader. -/
theorem ensures_onLoader {α : Type} {ok : α → Scheduler → Prop} {fail : Fault → Scheduler → Prop}
    (act : Loader.Action α) (s : Scheduler) :
    Ensures (onLoader act) s ok fail ↔
      Ensures act s.loader (fun a loader => ok a { s with loader })
        (fun fault loader => fail fault { s with loader }) := by
  rw [Ensures, Ensures, onLoader]
  cases act s.loader <;> rfl

/-- Those that listen to the loader are told of a link. The monitor is one of them as often as it
listens. -/
theorem ensures_tellListeners (listeners : List (Listener × LinkReport)) (s : Scheduler) :
    Ensures (listeners.forM fun (listener, _) =>
        match listener with
        | .monitor => modify fun s : Scheduler => { s with monitor := s.monitor.record .linked }
        | .numbered _ => (pure () : Action Unit)) s
      (fun _ t => ∃ n, t = { s with
        monitor := { s.monitor with
          queue := s.monitor.queue ++ List.replicate n Occurrence.linked } })
      fun _ _ => False := by
  induction listeners generalizing s with
  | nil => exact ⟨0, by simp⟩
  | cons first listeners ih =>
    obtain ⟨listener, report⟩ := first
    rw [List.forM, ensures_bind]
    -- Only the monitor keeps what it is told.
    cases listener with
    | monitor =>
      refine (ih _).mono ?_ fun _ _ => id
      rintro _ t ⟨n, rfl⟩
      exact ⟨n + 1, by simp [Monitor.record, List.replicate_succ]⟩
    | numbered => exact ih s

/-- A link concerns the modules, and the monitor is told of it as often as it listens. -/
theorem after_link (s : Scheduler) : ∃ loader n,
    Ensures Loader.link s.loader (fun _ l => l = loader) (fun _ l => l = loader) ∧
      after Scheduler.link s =
        { s with
          loader
          monitor :=
            { s.monitor with queue := s.monitor.queue ++ List.replicate n .linked } } := by
  have hspec : Ensures Scheduler.link s
      (fun _ t => ∃ n linking loader, Loader.link s.loader = .ok linking loader ∧ t = { s with
        loader
        monitor := { s.monitor with queue := s.monitor.queue ++ List.replicate n .linked } })
      (fun fault t => ∃ loader, Loader.link s.loader = .error fault loader ∧
        t = { s with loader }) := by
    rw [Scheduler.link, ensures_bind, ensures_onLoader]
    refine (ensures_result Loader.link s.loader).mono (fun linking loader hloader => ?_)
      fun fault loader hloader => ⟨loader, hloader, rfl⟩
    rw [ensures_bind]
    refine (ensures_tellListeners linking.told _).mono ?_ fun _ _ => False.elim
    rintro _ _ ⟨n, rfl⟩
    exact ⟨n, linking, loader, hloader, rfl⟩
  rw [after]
  cases hlink : Scheduler.link s with
  | ok report t =>
    obtain ⟨n, linking, loader, hloader, rfl⟩ := hspec.of_ok hlink
    exact ⟨loader, n, by rw [Ensures, hloader], rfl⟩
  | error fault t =>
    -- A link that fails is told to nobody.
    obtain ⟨loader, hloader, rfl⟩ := hspec.of_error hlink
    exact ⟨loader, 0, by rw [Ensures, hloader], by simp⟩

/-- Whatever happens, what holds at every moment still does. -/
theorem Happens.valid (hhappens : Happens m hs m') (h : Valid m) : Valid m' := by
  cases hhappens with
  | spawn s callee args => exact (passed_spawnCallable s callee args).valid h
  | send s receiver payload => exact (Move.send s receiver payload).valid h
  | kill s pid => exact (Move.kill s pid).valid h
  | wake s now => exact (Move.wake s now).valid h
  | provide s loader clock =>
    exact (Move.manage s loader s.observers s.nextObserver s.monitor clock s.journal).valid h
  | link s =>
    obtain ⟨loader, n, -, hlink⟩ := after_link s
    rw [hlink]
    exact (Move.manage s loader s.observers s.nextObserver _ s.clock s.journal).valid h
  | attach s role => exact h.watched _ _ s.monitor s.journal
  | detach s id => exact h.watched _ s.nextObserver s.monitor s.journal
  | takeJournal s => exact h.watched s.observers s.nextObserver s.monitor _
  | consult s =>
    rw [consult_eq]
    exact h.watched _ s.nextObserver _ _
  | pause s hand paused => exact h.watched s.observers s.nextObserver _ s.journal
  | read s hand => exact h.watched s.observers s.nextObserver _ s.journal
  | begin hfirst hlive => exact (Move.begin hfirst hlive).valid h
  | resume hturn => exact (Move.resume hturn).valid h
  | suspend hturn => exact (Move.suspend hturn).valid h
  | stop hturn => exact (Move.stop hturn).valid h

theorem Chronicle.valid (h : Chronicle m hs m') (hm : Valid m) : Valid m' := by
  induction h with
  | nil => exact hm
  | cons hfirst _ ih => exact ih (hfirst.valid hm)

/-! ### All that is done has a chronicle -/

/-- A command says what becomes of the journal and of the monitor. -/
def Command.LeavesWatch : Command → Prop
  | elsewhere .. => False
  | _ => True

/-- What can be done to a scheduler from outside, observers and monitor included. -/
inductive Deed
  /-- A command is carried out that leaves the journal and the monitor to the scheduler. -/
  | command (command : Command) (leaves : command.LeavesWatch)
  /-- Time goes by, and modules are loaded. -/
  | provide (loader : Loader) (clock : Clock)
  /-- Modules are linked. -/
  | link
  /-- The journal is handed over. -/
  | takeJournal
  /-- The run loop is paused, or no longer so. -/
  | pause (paused : Bool)
  /-- The counters are read. -/
  | read

/-- What a deed makes of a scheduler. There is no answer if its budget was too small. -/
def Deed.carryOut : Deed → Scheduler → Option Scheduler
  | command c _, s => c.carryOut s
  | provide loader clock, s => some { s with loader, clock }
  | link, s => some (after Scheduler.link s)
  | takeJournal, s => some s.takeJournal.2
  | pause paused, s => some { s with monitor := { s.monitor with paused } }
  | read, s => some { s with monitor := s.monitor.read.2 }

/-- What several deeds make of it, one after the other. -/
def Deed.carryOutAll : List Deed → Scheduler → Option Scheduler
  | [], s => some s
  | deed :: deeds, s => (deed.carryOut s).bind (carryOutAll deeds)

/-- Observers are attached and detached only by deeds. -/
def Happening.By (deeds : List Deed) : Happening → Prop
  | attached o => .command (.attach o.role) trivial ∈ deeds
  | detached id => .command (.detach id) trivial ∈ deeds
  | _ => True

/-- A chronicle leads from one state to another, and no actor is being run in either. -/
def Recounted (s : Scheduler) (deeds : List Deed) (s' : Scheduler) : Prop :=
  ∃ hs, Chronicle ⟨s, none⟩ hs ⟨s', none⟩ ∧ ∀ h ∈ hs, h.By deeds

variable {deeds deeds' : List Deed}

theorem Happening.By.mono {h : Happening} (hby : h.By deeds) (hsub : ∀ d ∈ deeds, d ∈ deeds') :
    h.By deeds' := by
  cases h with
  | attached o => exact hsub _ hby
  | detached id => exact hsub _ hby
  | _ => trivial

theorem Recounted.refl (s : Scheduler) : Recounted s deeds s :=
  ⟨[], .nil _, fun _ => nofun⟩

theorem Recounted.trans (h : Recounted s deeds s') (h' : Recounted s' deeds' t) :
    Recounted s (deeds ++ deeds') t := by
  obtain ⟨hs, hchronicle, hby⟩ := h
  obtain ⟨hs', hchronicle', hby'⟩ := h'
  refine ⟨hs ++ hs', hchronicle.trans hchronicle', fun h hmem => ?_⟩
  rcases List.mem_append.1 hmem with hleft | hright
  · exact (hby h hleft).mono fun _ => List.mem_append_left _
  · exact (hby' h hright).mono fun _ => List.mem_append_right _

theorem Recounted.valid (h : Recounted s deeds s') (hs : Valid ⟨s, none⟩) : Valid ⟨s', none⟩ := by
  obtain ⟨hs', hchronicle, -⟩ := h
  exact hchronicle.valid hs

theorem Happens.recounted (h : Happens ⟨s, none⟩ hs ⟨s', none⟩) (hby : ∀ h ∈ hs, h.By deeds) :
    Recounted s deeds s' :=
  ⟨hs, h.chronicle, hby⟩

/-- A start brings no observer. -/
theorem by_starts (callee : Payload) (args : List Payload) (s : Scheduler) :
    ∀ h ∈ starts callee args s, h.By deeds := by
  rw [starts]
  cases spawnCallable callee args s with
  | ok child _ => exact List.forall_mem_singleton.2 trivial
  | error => exact fun _ => nofun

theorem by_inTurn (s : Scheduler) (p : Actor) : ∀ h ∈ inTurn s p, h.By deeds := by
  rw [inTurn]
  split
  next => exact List.forall_mem_singleton.2 trivial
  next =>
    split
    next => exact by_starts _ _ _
    next => exact fun _ => nofun

/-- A dispatch is a chronicle of turns. -/
theorem recounted_dispatch (h : Booked (some p.pid) s) (hreached : Reached s.config.actor p)
    (hwait : p.wait = none) (hdispatch : dispatch budget p s = some s') :
    ∃ hs, Chronicle ⟨s, some (prepared p)⟩ hs ⟨s', none⟩ ∧ ∀ h ∈ hs, h.By [] := by
  obtain ⟨s₁, q, reason, hattend, hend⟩ := dispatch_eq_some hdispatch
  -- What happens in the turns in which the actor goes on adds up.
  let Turns (t : Scheduler) (r : Actor) : Prop := InHand s p.pid t r ∧ ∃ hs,
    Chronicle ⟨s, some (prepared p)⟩ hs ⟨t, some r⟩ ∧ ∀ h ∈ hs, h.By []
  have hsnoc : ∀ {t r hs' m}, Turns t r → Happens ⟨t, some r⟩ hs' m → (∀ h ∈ hs', h.By []) →
      ∃ hs, Chronicle ⟨s, some (prepared p)⟩ hs m ∧ ∀ h ∈ hs, h.By [] := by
    rintro t r hs' m ⟨-, hs, hchronicle, hby⟩ hhappens hby'
    exact ⟨_, hchronicle.trans hhappens.chronicle, List.forall_mem_append.2 ⟨hby, hby'⟩⟩
  have hturn : ∀ t r t' r', Turns t r → t.turn r = (t', r', .resume) → Turns t' r' := by
    intro t r t' r' hturns hresume
    exact ⟨hturns.1.resume hresume, hsnoc hturns (.resume hresume) (by_inTurn t r)⟩
  obtain ⟨t, r, hturns, hlast⟩ :=
    of_attend hturn ⟨h.inHand hreached hwait, [], .nil _, fun _ => nofun⟩ hattend
  rcases hlast with ⟨rfl, hlast⟩ | ⟨reason, rfl, hlast⟩
  · obtain rfl : s' = s₁.park q := by simpa using hend
    exact hsnoc hturns (.suspend hlast) (by_inTurn t r)
  · obtain rfl : s' = (s₁.finish p.pid reason).collectModules.2 := by simpa using hend
    have hstopped := hsnoc hturns (.stop hlast)
      (List.forall_mem_append.2 ⟨by_inTurn t r, List.forall_mem_singleton.2 trivial⟩)
    rwa [hturns.1.own] at hstopped

theorem recounted_atClock (s : Scheduler) (clock : Clock) : Recounted s [] { s with clock } :=
  (Happens.provide s s.loader clock).recounted fun _ => nofun

theorem recounted_step (h : Valid ⟨s, none⟩) {outcome : StepOutcome}
    (hstep : s.step budget = some (outcome, s')) : Recounted s [] s' := by
  have hwoken : Recounted s [] (s.wakeExpired s.clock.now) :=
    (Happens.wake s s.clock.now).recounted fun _ => nofun
  refine @of_step _ _ _ (Recounted s []) _ (hwoken.trans (recounted_atClock _ s.clock.tick))
    (fun {t} ht => ht.trans ((Happens.consult t).recounted (List.forall_mem_singleton.2 trivial)))
    (fun ht hmem => (ht.valid h).booked.exists_live (.inl hmem))
    (fun {t t' pid ready p} ht hready hlive hdispatch => ?_) hstep
  -- The dispatch is what is left to recount of the step.
  have hmem : pid ∈ t.ready := hready ▸ List.mem_cons_self
  obtain ⟨q, hq, -, rfl, hreached, -, hwait, -⟩ := (ht.valid h).booked.of_mem_ready hmem
  obtain rfl := Option.some.inj (hq.symm.trans hlive)
  have hlent := ((ht.valid h).booked.lend hready).booked
  obtain ⟨hs, hchronicle, hby⟩ := recounted_dispatch hlent hreached hwait hdispatch
  exact ht.trans ⟨_, .cons (.begin hready hlive) hchronicle, hby⟩

theorem recounted_run (h : Valid ⟨s, none⟩) {outcome : RunOutcome}
    (hrun : run budget s = some (outcome, s')) : Recounted s [] s' :=
  @of_run _ _ _ (Recounted s []) _ (fun ht hstep => ht.trans (recounted_step (ht.valid h) hstep))
    (fun clock ht => ht.trans (recounted_atClock _ clock)) (.refl s) hrun

/-- A command has a chronicle. -/
theorem recounted_command (h : Valid ⟨s, none⟩) {command : Command} (hleaves : command.LeavesWatch)
    (hrun : command.carryOut s = some s') : Recounted s [.command command hleaves] s' := by
  have hspawn : ∀ callee args,
      Recounted s [.command command hleaves] (after (spawnCallable callee args) s) :=
    fun callee args => (Happens.spawn s callee args).recounted (by_starts callee args s)
  have hself : Deed.command command hleaves ∈ [Deed.command command hleaves] :=
    List.mem_singleton_self _
  cases command with
  | spawn entry args =>
    obtain rfl := Option.some.inj hrun
    exact hspawn (.closure entry []) args
  | spawnExport module name args =>
    obtain rfl := Option.some.inj hrun
    -- A function that is not found is not started.
    rcases after_spawnExport s module name args with hsame | ⟨routine, -, hstarted⟩
    · rw [hsame]
      exact .refl s
    · rw [hstarted]
      exact hspawn (.closure routine []) args
  | spawnCallable callee args =>
    obtain rfl := Option.some.inj hrun
    exact hspawn callee args
  | send receiver payload =>
    obtain rfl := Option.some.inj hrun
    exact (Happens.send s receiver payload).recounted fun _ => nofun
  | kill pid =>
    obtain rfl := Option.some.inj hrun
    refine (Happens.kill s pid).recounted ?_
    rw [kills]
    split
    next => exact List.forall_mem_singleton.2 trivial
    next => exact fun _ => nofun
  | attach role =>
    obtain rfl := Option.some.inj hrun
    exact (Happens.attach s role).recounted (List.forall_mem_singleton.2 hself)
  | detach id =>
    obtain rfl := Option.some.inj hrun
    exact (Happens.detach s id).recounted (List.forall_mem_singleton.2 hself)
  | step budget =>
    obtain ⟨⟨outcome, t⟩, hstep, rfl⟩ := Option.map_eq_some_iff.1 hrun
    exact (recounted_step h hstep).trans (.refl t)
  | run budget =>
    obtain ⟨⟨outcome, t⟩, hruns, rfl⟩ := Option.map_eq_some_iff.1 hrun
    exact (recounted_run h hruns).trans (.refl t)
  | elsewhere => exact hleaves.elim

/-- Every deed has one. -/
theorem recounted_carryOut (h : Valid ⟨s, none⟩) {deed : Deed} (hrun : deed.carryOut s = some s') :
    Recounted s [deed] s' := by
  cases deed with
  | command command hleaves => exact recounted_command h hleaves hrun
  | provide loader clock =>
    obtain rfl := Option.some.inj hrun
    exact (Happens.provide s loader clock).recounted fun _ => nofun
  | link =>
    obtain rfl := Option.some.inj hrun
    exact (Happens.link s).recounted fun _ => nofun
  | takeJournal =>
    obtain rfl := Option.some.inj hrun
    exact (Happens.takeJournal s).recounted (List.forall_mem_singleton.2 trivial)
  | pause paused =>
    obtain rfl := Option.some.inj hrun
    exact (Happens.pause s none paused).recounted fun _ => nofun
  | read =>
    obtain rfl := Option.some.inj hrun
    exact (Happens.read s none).recounted fun _ => nofun

/-- So do several, one after the other. -/
theorem recounted_carryOutAll (h : Valid ⟨s, none⟩)
    (hall : Deed.carryOutAll deeds s = some s') : Recounted s deeds s' := by
  induction deeds generalizing s with
  | nil =>
    obtain rfl := Option.some.inj hall
    exact .refl s
  | cons deed deeds ih =>
    obtain ⟨t, hfirst, hrest⟩ := Option.bind_eq_some_iff.1 hall
    have hrecounted := recounted_carryOut h hfirst
    exact hrecounted.trans (ih (hrecounted.valid h) hrest)

end ActorMachine.Scheduler
