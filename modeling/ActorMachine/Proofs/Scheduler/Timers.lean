import ActorMachine.Proofs.Machine.Receives
import ActorMachine.Proofs.Scheduler.Courses
import ActorMachine.Proofs.Scheduler.Isolation

/-!
# Deadlines

An actor that waits does so until its time has come, unless it is killed or, in a receive, gets a
message.

* `Performs.spares`: what an act may do to an actor that is not dispatched in it. It may wake it
  when its time has come, and then nothing else than messages comes to it.
* `Deadlines`: an actor that waits for a message until a deadline stands at a receive that has got
  this deadline.
* `keepsTimers_of_reaches`: nobody is woken too early, and who was woken by a deadline does not wait
  again in the same receive.
-/

namespace ActorMachine.Scheduler

open Machine

variable {s s' t : Scheduler} {pid other : Pid} {p q r : Actor} {now deadline : Time} {act : Act}
  {m m' : Moment} {letter : Option Letter} {record : Record} {entries : List Entry}
  {records : List Record} {sent : List Payload}

/-! ### Waking those whose time has come -/

/-- The time at which an actor stops waiting by itself. -/
def dueAt? (p : Actor) : Option Time :=
  p.wait.bind Wait.deadline?

theorem deadlineOf?_eq (hp : s.actor? pid = some p) : s.deadlineOf? pid = dueAt? p := by
  rw [deadlineOf?, hp, dueAt?]
  rfl

theorem actor?_makeReady_of_ne (h : Booked none s) (hne : other ≠ pid) :
    (s.makeReady pid).actor? other = s.actor? other := by
  rw [makeReady]
  split
  next hmem =>
    obtain ⟨p, hlive, -, rfl, -⟩ := h.of_mem_blocked hmem
    have hactor : actor? { s with blocked := s.blocked.filter (· ≠ p.pid) } p.pid = some p := hlive
    simp only [hactor]
    exact (actor?_put _ s other).trans (if_neg hne)
  next => rfl

/-- An actor whose time has not come yet is not woken. -/
theorem actor?_wakeExpired (now : Time) (h : Booked none s) (hp : s.actor? pid = some p)
    (hearly : ∀ deadline, dueAt? p = some deadline → now < deadline) :
    (s.wakeExpired now).actor? pid = some p := by
  have hnot : pid ∉ s.blocked.filter fun pid => (s.deadlineOf? pid).any (· ≤ now) := by
    intro hmem
    have hdue := (List.mem_filter.1 hmem).2
    rw [deadlineOf?_eq hp, Option.any_eq_true] at hdue
    obtain ⟨deadline, hdeadline, hle⟩ := hdue
    exact absurd (of_decide_eq_true hle) (Nat.not_le.2 (hearly deadline hdeadline))
  rw [wakeExpired]
  generalize (s.blocked.filter fun pid => (s.deadlineOf? pid).any (· ≤ now)) = pids at hnot
  induction pids generalizing s with
  | nil => exact hp
  | cons first pids ih =>
    obtain ⟨hfirst, hrest⟩ := not_or.1 fun h => hnot (List.mem_cons.2 h)
    rw [List.foldl_cons]
    refine ih (h.makeReady first).booked ?_ hrest
    rw [actor?_makeReady_of_ne h hfirst, hp]

/-! ### What an act does to an actor that is not dispatched in it -/

theorem accepted_of_silent (h : ∀ record ∈ records, record.Silent) (pid : Pid) :
    records.filterMap (Record.accepted · pid) = [] := by
  refine List.filterMap_eq_nil_iff.2 fun record hrecord => ?_
  rw [Record.accepted, (h record hrecord).1]
  rfl

/-- A command from outside brings one message at most, unless it kills the actor. -/
theorem meets_carryOut {command : Command} (hfrom : command.FromOutside) (hs : Valid ⟨s, none⟩)
    (h : command.carryOut s = some s') (hp : s.actor? pid = some p) (hkill : command ≠ .kill pid) :
    ∃ q, s'.actor? pid = some q ∧ Meets p (letterTo command.sent pid) q := by
  cases Command.does hfrom h with
  | starts hsilent hspawn =>
    rw [hsilent]
    exact (passes_spawnCallable hs.booked hspawn).meets hp
  | sends receiver payload => exact (passes_deliver hs.booked receiver payload).meets hp
  | kills other =>
    refine ⟨p, ?_, .nothing⟩
    rw [actor?_kill, if_neg fun heq => hkill (by rw [heq])]
    exact hp
  | manages hsilent =>
    rw [hsilent]
    exact ⟨p, hp, .nothing⟩

/-- A command from outside spares an actor that it does not kill. -/
theorem spares_outside {command : Command} (hfrom : command.FromOutside) (hs : Valid ⟨s, none⟩)
    (hdone : command.carryOut s = some s') (hp : s.actor? pid = some p)
    (hkill : command ≠ .kill pid) :
    ∃ q records, History ⟨s, none⟩ records ⟨s', none⟩ ∧
      records.filterMap Record.dispatched = [] ∧ s'.actor? pid = some q ∧
      Spared p (records.filterMap (Record.accepted · pid)) q := by
  have hmove := move_carryOut hfrom hdone
  obtain ⟨q, hq, hmeets⟩ := meets_carryOut hfrom hs hdone hp hkill
  have hspared := hmeets.spared (hs.booked.live_sound hp).1
    ((hmove.valid hs).booked.live_sound hq).1
  refine ⟨q, _, hmove.history, rfl, hq, ?_⟩
  -- What is accepted is what was sent to the actor, if there is room for it.
  have haccepted : (⟨⟨s, none⟩, command.sent, ⟨s', none⟩⟩ : Record).accepted pid =
      (letterTo command.sent pid).filter fun payload => decide (p.HasRoom payload) := by
    have hexecuted : (⟨s, none⟩ : Moment).executed.actor? pid = some p := hp
    rw [Record.accepted, hexecuted]
    rfl
  rw [List.filterMap_eq_flatMap_toList, List.flatMap_singleton, haccepted]
  exact hspared

/-- At the beginning of a step an actor may be woken, but not before its time. -/
theorem rouses_awake (h : Booked none s) (hp : s.actor? pid = some p) :
    ∃ r, s.awake.actor? pid = some r ∧ Rouses p r ∧
      ((∀ deadline, dueAt? p = some deadline → s.clock.now < deadline) → r = p) := by
  have hrouses := rouses_wakeExpired h s.clock.now pid
  have hsame := actor?_wakeExpired s.clock.now h hp
  have hawake : s.awake.actor? pid = (s.wakeExpired s.clock.now).actor? pid := rfl
  rw [hp] at hrouses
  rw [hawake]
  generalize (s.wakeExpired s.clock.now).actor? pid = a at hrouses hsame
  cases hrouses with
  | some hpr => exact ⟨_, rfl, hpr, fun hearly => Option.some.inj (hsame hearly)⟩

/-- From then on, a step spares an actor that is not dispatched in it. -/
theorem spares_step {outcome : StepOutcome} (hstep : s.step budget = some (outcome, s'))
    (hs : Valid ⟨s, none⟩) (hp : s.awake.actor? pid = some p)
    (hdispatched : (Act.step budget outcome).dispatched ≠ some pid) :
    ∃ q records, History ⟨s, none⟩ records ⟨s', none⟩ ∧
      records.filterMap Record.dispatched = (Act.step budget outcome).dispatched.toList ∧
      s'.actor? pid = some q ∧ Spared p (records.filterMap (Record.accepted · pid)) q := by
  have hasked : ∀ {t : Scheduler} {agreed : Bool}, s.awake.consult = (agreed, t) →
      t.actor? pid = some p := fun hconsult => by
    rw [actor?, (same_of_consult hconsult).2.2.1]
    exact hp
  have hsilently : ∀ {t : Scheduler} {records : List Record},
      History ⟨s, none⟩ records ⟨t, none⟩ → (∀ record ∈ records, record.Silent) →
      t.actor? pid = some p → ∃ q records, History ⟨s, none⟩ records ⟨t, none⟩ ∧
        records.filterMap Record.dispatched = [] ∧ t.actor? pid = some q ∧
        Spared p (records.filterMap (Record.accepted · pid)) q := by
    intro t records hrecords hsilent ht
    refine ⟨p, records, hrecords, dispatched_of_silent hsilent, ht, ?_⟩
    rw [accepted_of_silent hsilent]
    exact .refl p
  cases step_cases hstep with
  | nothing =>
    obtain ⟨waking, hwaking, hsilent⟩ := history_awake s
    exact hsilently hwaking hsilent hp
  | heldUp _ hconsult =>
    obtain ⟨asking, hasking, hsilent⟩ := history_consult hconsult
    exact hsilently hasking hsilent (hasked hconsult)
  | @ran first rest t _ u hready hconsult hlive hdispatch =>
    obtain ⟨asking, turns, begun, hbegin, rfl, hasking, hsilent, hturns, hhand, hrecords⟩ :=
      history_ran hs hconsult ((same_of_consult hconsult).1.trans hready) hlive hdispatch
    have hne : pid ≠ first := fun heq => hdispatched (congrArg some heq.symm)
    -- The actor is there when the other one is in hand, and the turns of that one spare it.
    have hlent : actor? { t with ready := rest, registry := t.registry.lend first } pid =
        some p :=
      ((Table.find?_erase _ _ _).trans (if_neg hne)).trans (hasked hconsult)
    obtain ⟨-, hspared⟩ := hturns.spared (hbegin.valid (hasking.valid hs)) hhand
    obtain ⟨q, hq, hpq⟩ := hspared pid p hne hlent
    refine ⟨q, _, hasking.trans (.cons hbegin hturns), hrecords, hq, ?_⟩
    rw [List.filterMap_append, accepted_of_silent hsilent]
    exact hpq
  | missing hready hconsult hgone =>
    obtain ⟨asking, hasking, -⟩ := history_consult hconsult
    obtain ⟨u, hu⟩ :=
      (hasking.valid hs).live_of_ready ((same_of_consult hconsult).1.trans hready)
    cases hgone.symm.trans hu

/-- In an act an actor is spared that is neither killed nor dispatched. At the beginning of a step
it may be woken, but not before its time. -/
theorem Performs.spares (h : Performs s act s') (hs : Valid ⟨s, none⟩) (hp : s.actor? pid = some p)
    (hkill : act ≠ .outside (.kill pid)) (hdispatched : act.dispatched ≠ some pid) :
    ∃ r q records, Rouses p r ∧
      ((∀ budget outcome, act = .step budget outcome →
        ∀ deadline, dueAt? p = some deadline → s.clock.now < deadline) → r = p) ∧
      History ⟨s, none⟩ records ⟨s', none⟩ ∧
      records.filterMap Record.dispatched = act.dispatched.toList ∧ s'.actor? pid = some q ∧
      Spared r (records.filterMap (Record.accepted · pid)) q := by
  cases h with
  | outside hfrom hdone =>
    obtain ⟨q, records, hspared⟩ :=
      spares_outside hfrom hs hdone hp fun heq => hkill (by rw [heq])
    exact ⟨p, q, records, .same, fun _ => rfl, hspared⟩
  | @step budget outcome _ hstep =>
    obtain ⟨r, hr, hrouses, hearly⟩ := rouses_awake hs.booked hp
    obtain ⟨q, records, hspared⟩ := spares_step hstep hs hr hdispatched
    exact ⟨r, q, records, hrouses, fun h => hearly (h budget outcome rfl), hspared⟩

/-! ### The two copies of a deadline -/

/-- An actor stands at a receive that has this deadline. -/
def StandsUntil (p : Actor) (deadline : Time) : Prop :=
  ∃ f outer below target, AwaitsUntil p f outer below target deadline

theorem StandsUntil.congr (h : StandsUntil p deadline) (hframes : q.frames = p.frames)
    (hstack : q.stack = p.stack) (hdeadline : q.receiveDeadline = p.receiveDeadline) :
    StandsUntil q deadline := by
  obtain ⟨f, outer, below, target, hawaits⟩ := h
  exact ⟨f, outer, below, target, hawaits.congr hframes hstack hdeadline⟩

/-- To be woken does not move an actor. -/
theorem StandsUntil.rouses (h : StandsUntil p deadline) (hpq : Rouses p q) :
    StandsUntil q deadline := by
  cases hpq with
  | same => exact h
  | woken => exact h.congr rfl rfl rfl

/-- The deadline until which an actor waits for a message is that of the receive it stands at. -/
def Deadlines (s : Scheduler) : Prop :=
  ∀ pid p deadline, s.actor? pid = some p → p.wait = some (.message (some deadline)) →
    StandsUntil p deadline

/-- A message does not move anybody, and those that can run wait for nothing. -/
theorem lasting_deadlines :
    Lasting fun p => ∀ deadline, p.wait = some (.message (some deadline)) →
      StandsUntil p deadline where
  ready p _ hnone deadline hwait := by cases hnone.symm.trans hwait
  meets hmeets hp deadline hwait := by
    cases hmeets with
    | nothing => exact hp deadline hwait
    | dropped | taken => exact (hp deadline hwait).congr rfl rfl rfl
    | woken => cases hwait

/-- An actor that suspends itself to wait for a message has executed a receive. -/
theorem block_of_turn {due : Option Time} (hp : Steady p) (hnone : p.wait = none)
    (hturn : s.turn p = (s', q, .suspend)) (hwait : q.wait = some (.message due)) :
    ∃ r, Machine.step s.loader s.clock.now p = .ok (some (.block due)) r ∧
      q = { r with wait := some (.message due), state := .blocked } := by
  have hadvance := advance_spec hp s.loader s.clock.now
  rw [turn] at hturn
  generalize advance s.loader s.clock.now p = a at hadvance hturn
  obtain ⟨o, r⟩ := a
  obtain ⟨-, -, -, hkept⟩ := hadvance.leads.same hp
  cases o with
  | none => cases hturn
  | some o =>
    -- All outcomes but a block leave no wait for a message or do not suspend the actor.
    cases o with
    | block due' =>
      obtain ⟨-, rfl⟩ : _ ∧ _ := by simpa [settle] using hturn
      obtain rfl : due' = due := by simpa using hwait
      cases hadvance with
      | executed hstep => exact ⟨r, hstep, rfl⟩
    | giveWay =>
      obtain ⟨-, rfl⟩ : _ ∧ _ := by simpa [settle] using hturn
      cases (hkept.trans hnone).symm.trans hwait
    | sleep wakesAt =>
      obtain ⟨-, rfl⟩ : _ ∧ _ := by simpa [settle] using hturn
      cases hwait
    | newActor callee args guarded =>
      cases hadvance with
      | executed hstep =>
        change startRequested _ _ _ _ _ = _ at hturn
        rcases startRequested_spec hp hstep { s with clock := s.clock.tick } with
          ⟨_, _, -, hresumes, -⟩ | ⟨_, _, -, ⟨_, hresumes, -⟩ | ⟨hstops, -⟩⟩
        · cases hresumes.symm.trans hturn
        · cases hresumes.symm.trans hturn
        · cases hstops.symm.trans hturn
    | send receiver payload =>
      simp only [settle] at hturn
      split at hturn
      next => split at hturn <;> cases hturn
      next => cases hturn
    | exit result =>
      simp only [settle] at hturn
      split at hturn <;> cases hturn
    | breakpoint | trap => cases hturn

/-- It stands at the receive if it waits until a deadline. -/
theorem standsUntil_of_turn (hp : Steady p) (hnone : p.wait = none)
    (hturn : s.turn p = (s', q, .suspend)) (hwait : q.wait = some (.message (some deadline))) :
    StandsUntil q deadline := by
  obtain ⟨r, hstep, rfl⟩ := block_of_turn hp hnone hturn hwait
  obtain ⟨f, outer, below, target, hawaits⟩ := awaitsUntil_of_block hstep
  exact ⟨f, outer, below, target, hawaits.congr rfl rfl rfl⟩

/-- Every move preserves this. -/
theorem Move.deadlines (hmove : Move m letter m') (h : Valid m) (hm : Deadlines m.scheduler) :
    Deadlines m'.scheduler := by
  have hall := hmove.everyone h lasting_deadlines (fun pid p hp deadline => hm pid p deadline hp) ?_
  · exact fun pid p deadline hp => hall pid p hp deadline
  -- Only an actor that suspends itself begins to wait.
  · rintro s p s' q rfl hturn deadline
    obtain ⟨hreached, hnone⟩ := h.running p rfl
    exact standsUntil_of_turn (steady_of_reached hreached) hnone hturn

theorem History.deadlines (h : History m records m') (hm : Valid m) (hd : Deadlines m.scheduler) :
    Deadlines m'.scheduler := by
  induction h with
  | nil => exact hd
  | cons hmove _ ih => exact ih (hmove.valid hm) (hmove.deadlines hm hd)

/-! ### Waiting along a course -/

/-- If a step is taken, it is before a point in time. -/
def Entry.Early (deadline : Time) (entry : Entry) : Prop :=
  ∀ budget outcome, entry.act = .step budget outcome → entry.before.clock.now < deadline

/-- The clock does not go backwards, neither on its own nor in an act. -/
def Entry.Forward (entry : Entry) : Prop :=
  Monotone entry.before.clock.drift ∧ entry.before.clock.now ≤ entry.after.clock.now

theorem Course.now_le (h : Course s entries s') (hforward : ∀ entry ∈ entries, entry.Forward) :
    s.clock.now ≤ s'.clock.now := by
  induction h with
  | nil => exact Nat.le_refl _
  | cons _ _ ih =>
    obtain ⟨hfirst, hrest⟩ := List.forall_mem_cons.1 hforward
    exact hfirst.2.trans (ih hrest)

/-- An actor that waits for something is blocked. -/
theorem Booked.blocked_of_wait {hand : Option Pid} (h : Booked hand s) (hp : s.actor? pid = some p)
    {wait : Wait} (hwait : p.wait = some wait) : p.state = .blocked ∧ pid ∈ s.blocked := by
  obtain ⟨-, -, -, ⟨-, hnone, -⟩ | ⟨hblocked, -, hlisted⟩⟩ := h.of_live hp
  · cases hnone.symm.trans hwait
  · exact ⟨hblocked, hlisted.blocked.2 trivial⟩

/-- An actor that waits is not dispatched before its time. -/
theorem Performs.not_dispatched (h : Performs s act s') (hs : Valid ⟨s, none⟩)
    (hp : s.actor? pid = some p) {wait : Wait} (hwait : p.wait = some wait)
    (hearly : ∀ budget outcome, act = .step budget outcome →
      ∀ deadline, dueAt? p = some deadline → s.clock.now < deadline) :
    act.dispatched ≠ some pid := by
  cases h with
  | outside => nofun
  | @step budget outcome _ hstep =>
    have hstill : s.awake.actor? pid = some p :=
      actor?_wakeExpired s.clock.now hs.booked hp (hearly budget outcome rfl)
    -- Who waits is in no ready queue, and only the first of that queue is dispatched.
    have hnot : pid ∉ s.awake.ready := by
      intro hmem
      obtain ⟨q, hq, -, -, -, -, hnone, -⟩ := hs.awake.booked.of_mem_ready hmem
      obtain rfl := Option.some.inj (hq.symm.trans hstill)
      cases hnone.symm.trans hwait
    rintro hdispatched
    cases step_cases hstep with
    | nothing | heldUp => cases hdispatched
    | ran hready | missing hready =>
      obtain rfl := Option.some.inj hdispatched
      exact hnot (hready ▸ List.mem_cons_self)

/-- As long as an actor waits, nothing else than messages comes to it. In a receive the first one
ends the waiting. -/
theorem Course.waits (h : Course s entries s') (hs : Valid ⟨s, none⟩) (hp : s.actor? pid = some p)
    {wait : Wait} (hwait : p.wait = some wait)
    (hkept : ∀ entry ∈ entries, entry.act ≠ .outside (.kill pid) ∧
      ∀ deadline, wait.deadline? = some deadline → entry.Early deadline) :
    ∃ records, History ⟨s, none⟩ records ⟨s', none⟩ ∧
      records.filterMap Record.dispatched = entries.filterMap (·.act.dispatched) ∧
      ((∃ q, s'.actor? pid = some q ∧ q.wait = some wait ∧
          Spared p (records.filterMap (Record.accepted · pid)) q) ∨
        (Receiving p ∧ records.filterMap (Record.accepted · pid) ≠ [])) := by
  induction h generalizing p with
  | nil s => exact ⟨[], .nil _, rfl, .inl ⟨p, hp, hwait, .refl p⟩⟩
  | @cons s t u act entries hfirst hrest ih =>
    obtain ⟨⟨hkill, hearly⟩, hlater⟩ := List.forall_mem_cons.1 hkept
    have hbefore : ∀ budget outcome, act = .step budget outcome →
        ∀ deadline, dueAt? p = some deadline → s.clock.now < deadline := by
      intro budget outcome hact deadline hdue
      rw [dueAt?, hwait] at hdue
      exact hearly deadline hdue budget outcome hact
    obtain ⟨r, q, records, -, hsame, hrecords, hdispatched, hq, hspared⟩ :=
      hfirst.spares hs hp hkill (hfirst.not_dispatched hs hp hwait hbefore)
    obtain rfl := hsame hbefore
    have hboth : ∀ {records' : List Record},
        records'.filterMap Record.dispatched = entries.filterMap (·.act.dispatched) →
        (records ++ records').filterMap Record.dispatched =
          ((⟨s, act, t⟩ : Entry) :: entries).filterMap (·.act.dispatched) := by
      intro records' hrest
      rw [List.filterMap_append, hdispatched, hrest, List.filterMap_cons]
      cases act.dispatched <;> rfl
    rcases hspared.stands with ⟨hstate, hstill⟩ | ⟨hreceiving, hsent, -⟩
    · obtain ⟨records', hrecords', hdispatched', hcases⟩ :=
        ih (hfirst.valid hs) hq (hstill.trans hwait) hlater
      refine ⟨_, hrecords.trans hrecords', hboth hdispatched', ?_⟩
      rw [List.filterMap_append]
      rcases hcases with ⟨v, hv, hstays, hspared'⟩ | ⟨⟨hblocked, due, hmessage⟩, hsent⟩
      · exact .inl ⟨v, hv, hstays, hspared.trans hspared'⟩
      · exact .inr ⟨⟨hstate ▸ hblocked, due, hstill ▸ hmessage⟩,
          fun hnil => hsent (List.append_eq_nil_iff.1 hnil).2⟩
    -- Woken by a message, it may go on in any way.
    · obtain ⟨records', hrecords', hdispatched'⟩ := hrest.history (hfirst.valid hs)
      refine ⟨_, hrecords.trans hrecords', hboth hdispatched', .inr ⟨hreceiving, ?_⟩⟩
      rw [List.filterMap_append]
      exact fun hnil => hsent (List.append_eq_nil_iff.1 hnil).1

/-- Until its next dispatch an actor stands where it is. -/
theorem Course.standsUntil (h : Course s entries s') (hs : Valid ⟨s, none⟩)
    (hp : s.actor? pid = some p) (hstands : StandsUntil p deadline)
    (halone : ∀ entry ∈ entries, entry.act ≠ .outside (.kill pid) ∧
      entry.act.dispatched ≠ some pid) :
    ∃ q, s'.actor? pid = some q ∧ StandsUntil q deadline := by
  induction h generalizing p with
  | nil s => exact ⟨p, hp, hstands⟩
  | cons hfirst _ ih =>
    obtain ⟨⟨hkill, hdispatched⟩, hlater⟩ := List.forall_mem_cons.1 halone
    obtain ⟨r, q, records, hrouses, -, -, -, hq, hspared⟩ :=
      hfirst.spares hs hp hkill hdispatched
    refine ih (hfirst.valid hs) hq ?_ hlater
    refine (hstands.rouses hrouses).congr ?_ ?_ ?_
    all_goals rw [hspared.same]

/-! ### Deadlines are kept -/

/-- What it means for those that wait that the clock is minded. -/
structure KeepsTimers (s : Scheduler) : Prop where
  /-- An actor that sleeps goes on sleeping until it is killed or a step is taken when its time has
  come. Until then the messages to it are queued. -/
  sleeps : ∀ entries s' pid p deadline, Course s entries s' → s.actor? pid = some p →
    p.wait = some (.timer deadline) →
    (∀ entry ∈ entries, entry.act ≠ .outside (.kill pid) ∧ entry.Early deadline) →
    pid ∈ s'.blocked ∧ ∃ q records, s'.actor? pid = some q ∧ q.state = .blocked ∧
      q.wait = some (.timer deadline) ∧ History ⟨s, none⟩ records ⟨s', none⟩ ∧
      records.filterMap Record.dispatched = entries.filterMap (·.act.dispatched) ∧
      Spared p (records.filterMap (Record.accepted · pid)) q
  /-- An actor that waits for a message until a deadline goes on waiting until it gets one, is
  killed or a step is taken when its time has come. -/
  receives : ∀ entries s' pid p deadline, Course s entries s' → s.actor? pid = some p →
    p.wait = some (.message (some deadline)) →
    (∀ entry ∈ entries, entry.act ≠ .outside (.kill pid) ∧ entry.Early deadline) →
    ∃ records, History ⟨s, none⟩ records ⟨s', none⟩ ∧
      records.filterMap Record.dispatched = entries.filterMap (·.act.dispatched) ∧
      (records.filterMap (Record.accepted · pid) = [] →
        pid ∈ s'.blocked ∧ ∃ q, s'.actor? pid = some q ∧ q.state = .blocked ∧
          q.wait = some (.message (some deadline)) ∧ Spared p [] q)
  /-- When the deadline has come, the next dispatch of the actor begins with the end of the receive:
  the message at the cursor is bound, or there is none and the jump is taken. -/
  resumes : ∀ entries t pid p deadline budget s', s.actor? pid = some p →
    p.wait = some (.message (some deadline)) → deadline ≤ s.clock.now → Course s entries t →
    (∀ entry ∈ entries, entry.Forward ∧ entry.act ≠ .outside (.kill pid) ∧
      entry.act.dispatched ≠ some pid) →
    Monotone t.clock.drift → t.step budget = some (.ran pid, s') →
    ∃ asked rest u q f outer below target, t.awake.consult = (true, asked) ∧
      asked.ready = pid :: rest ∧ asked.actor? pid = some u ∧
      dispatch budget u { asked with ready := rest, registry := asked.registry.lend pid } =
        some s' ∧
      AwaitsUntil u f outer below target deadline ∧
      advance asked.loader asked.clock.now (prepared u) = (none, q) ∧
      EndsReceive (prepared u) f outer below target q
  /-- A message that is bound leaves the deadline fixed. As long as it is, no receive with a timeout
  waits again. -/
  retries : ∀ records m p f outer below target deadline, History ⟨s, none⟩ records m →
    m.hand = some p → AwaitsUntil p f outer below target deadline →
    deadline ≤ m.scheduler.clock.now →
    ∃ q, advance m.scheduler.loader m.scheduler.clock.now p = (none, q) ∧
      EndsReceive p f outer below target q

/-- A collection does not touch what is on the stack. -/
theorem prepared_same (p : Actor) :
    (prepared p).frames = p.frames ∧ (prepared p).stack = p.stack ∧
      (prepared p).receiveDeadline = p.receiveDeadline := by
  rw [prepared]
  dsimp only
  split
  next => exact ⟨rfl, rfl, rfl⟩
  next => exact ⟨rfl, rfl, rfl⟩

/-- An actor that stands at a receive whose deadline has come ends it when it is dispatched. -/
theorem StandsUntil.resumes (h : StandsUntil p deadline) (hs : Valid ⟨s, none⟩)
    (hp : s.actor? pid = some p) (hdue : deadline ≤ s.clock.tick.now)
    (hstep : s.step budget = some (.ran pid, s')) :
    ∃ asked rest u q f outer below target, s.awake.consult = (true, asked) ∧
      asked.ready = pid :: rest ∧ asked.actor? pid = some u ∧
      dispatch budget u { asked with ready := rest, registry := asked.registry.lend pid } =
        some s' ∧
      AwaitsUntil u f outer below target deadline ∧
      advance asked.loader asked.clock.now (prepared u) = (none, q) ∧
      EndsReceive (prepared u) f outer below target q := by
  -- It may have been woken just now.
  obtain ⟨r, hr, hrouses, -⟩ := rouses_awake hs.booked hp
  cases step_cases hstep with
  | @ran _ rest asked _ u hready hconsult hlive hdispatch =>
    obtain ⟨hsameReady, -, hregistry, hsameClock⟩ := same_of_consult hconsult
    have hqueue : asked.ready = pid :: rest := hsameReady.trans hready
    obtain rfl : u = r := by
      have hthere : asked.actor? pid = some r := by
        rw [actor?, hregistry]
        exact hr
      exact Option.some.inj (hlive.symm.trans hthere)
    obtain ⟨f, outer, below, target, hawaits⟩ := h.rouses hrouses
    obtain ⟨asking, hasking, -⟩ := history_consult hconsult
    have hbegun := (Move.begin hqueue hlive).valid (hasking.valid hs)
    have hsteady := (hbegun.steady (Moment.actor?_self _ _)).1
    obtain ⟨hframes, hstack, hfixed⟩ := prepared_same u
    have hnow : deadline ≤ asked.clock.now := by
      rw [hsameClock]
      exact hdue
    obtain ⟨v, hadvance, hends⟩ := @advance_of_awaitsUntil _ asked.loader _ _ _ _ _ _
      (hawaits.congr hframes hstack hfixed) hsteady.sound hnow
    exact ⟨asked, rest, u, v, f, outer, below, target, hconsult, hqueue, hlive, hdispatch,
      hawaits, hadvance, hends⟩
  | missing hready hconsult hgone =>
    rw [actor?, (same_of_consult hconsult).2.2.1] at hgone
    cases hr.symm.trans hgone

theorem Valid.keepsTimers (hs : Valid ⟨s, none⟩) (hdeadlines : Deadlines s) : KeepsTimers s where
  sleeps := by
    intro entries s' pid p deadline hcourse hp hwait hkept
    obtain ⟨records, hrecords, hdispatched, hcases⟩ := hcourse.waits hs hp hwait
      fun entry hentry => ⟨(hkept entry hentry).1, fun due hdue => by
        obtain rfl := Option.some.inj hdue
        exact (hkept entry hentry).2⟩
    rcases hcases with ⟨q, hq, hstill, hspared⟩ | ⟨⟨-, due, hmessage⟩, -⟩
    · obtain ⟨hblocked, hmem⟩ := (hcourse.valid hs).booked.blocked_of_wait hq hstill
      exact ⟨hmem, q, records, hq, hblocked, hstill, hrecords, hdispatched, hspared⟩
    · cases hwait.symm.trans hmessage
  receives := by
    intro entries s' pid p deadline hcourse hp hwait hkept
    obtain ⟨records, hrecords, hdispatched, hcases⟩ := hcourse.waits hs hp hwait
      fun entry hentry => ⟨(hkept entry hentry).1, fun due hdue => by
        obtain rfl := Option.some.inj hdue
        exact (hkept entry hentry).2⟩
    refine ⟨records, hrecords, hdispatched, fun hnothing => ?_⟩
    rcases hcases with ⟨q, hq, hstill, hspared⟩ | ⟨-, hsent⟩
    · obtain ⟨hblocked, hmem⟩ := (hcourse.valid hs).booked.blocked_of_wait hq hstill
      exact ⟨hmem, q, hq, hblocked, hstill, hnothing ▸ hspared⟩
    · exact absurd hnothing hsent
  resumes := by
    intro entries t pid p deadline budget s' hp hwait hdue hcourse hkept hclock hstep
    obtain ⟨q, hq, hstands⟩ := hcourse.standsUntil hs hp (hdeadlines pid p deadline hp hwait)
      fun entry hentry => (hkept entry hentry).2
    have hlate : deadline ≤ t.clock.now :=
      hdue.trans (hcourse.now_le fun entry hentry => (hkept entry hentry).1)
    -- The clock goes on by one look until the dispatch.
    have htick : t.clock.now ≤ t.clock.tick.now := Nat.add_le_add_right (hclock (Nat.le_succ _)) _
    exact hstands.resumes (hcourse.valid hs) hq (hlate.trans htick) hstep
  retries := by
    intro records m p f outer below target deadline hrecords hp hawaits hdue
    obtain ⟨hreached, -⟩ := (hrecords.valid hs).running p hp
    exact advance_of_awaitsUntil hawaits (steady_of_reached hreached).sound hdue

/-- Whatever was done to a scheduler, nobody that waits is woken too early, and who was woken by a
deadline does not wait again in the same receive. -/
theorem keepsTimers_of_reaches {config : SchedulerConfig} {loader : Loader} {clock : Clock}
    (h : Reaches (create config loader clock) s) : KeepsTimers s := by
  obtain ⟨commands, hall⟩ := h
  have hcreate := valid_create config loader clock
  obtain ⟨records, hrecords, -⟩ := passed_carryOutAll hcreate hall
  exact (hrecords.valid hcreate).keepsTimers (hrecords.deadlines hcreate fun _ _ _ => nofun)

/-- A function that waits for a message for five milliseconds, and returns nil if it gets none. -/
def patient : Routine :=
  .loose { Prototype.blank with code := #[.int 5, .receive 2, .ret, .nil, .ret] }

/-- After these five milliseconds its next dispatch begins with the end of the receive. -/
theorem keepsTimers_patient :
    ∃ (s : Scheduler) (p u q : Actor) (f : Frame) (outer : List Frame) (below : List Value)
      (target : Nat), s.actor? ⟨1⟩ = some p ∧ p.wait = some (.message (some 5)) ∧
      s.clock.now = 5 ∧ AwaitsUntil u f outer below target 5 ∧
      EndsReceive (prepared u) f outer below target q := by
  have hfacts : ((Command.carryOutAll [.spawn patient [], .step 5,
        .elsewhere { Clock.standing with slept := 5 } .standard {} #[]]
        (create {} .standard .standing)).any fun s =>
      ((s.actor? ⟨1⟩).any fun p => p.wait == some (.message (some 5))) &&
        (s.step 9).any fun answer => answer.1 == .ran ⟨1⟩) = true := by
    decide +kernel
  simp only [Option.any_eq_true, Bool.and_eq_true, beq_iff_eq] at hfacts
  obtain ⟨s, hs, ⟨p, hp, hwait⟩, ⟨_, s'⟩, hstep, rfl⟩ := hfacts
  have hclock : s.clock = { Clock.standing with slept := 5 } := by
    obtain ⟨t, -, hs⟩ := Option.bind_eq_some_iff.1 hs
    obtain ⟨u, -, hs⟩ := Option.bind_eq_some_iff.1 hs
    obtain rfl := Option.some.inj hs
    rfl
  have hnow : s.clock.now = 5 := by
    rw [hclock]
    rfl
  have hdrift : Monotone s.clock.drift := by
    rw [hclock]
    exact fun _ _ _ => Nat.le_refl 0
  obtain ⟨_, _, u, q, f, outer, below, target, -, -, -, -, hawaits, -, hends⟩ :=
    (keepsTimers_of_reaches ⟨_, hs⟩).resumes [] s ⟨1⟩ p 5 9 s' hp hwait (hnow ▸ Nat.le_refl 5)
      (.nil s) (fun _ => nofun) hdrift hstep
  exact ⟨s, p, u, q, f, outer, below, target, hp, hwait, hnow, hawaits, hends⟩

end ActorMachine.Scheduler
