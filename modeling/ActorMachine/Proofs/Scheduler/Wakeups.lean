import ActorMachine.Proofs.Scheduler.History

/-!
# No wakeup is lost

An actor that is blocked in a receive has looked at all its messages. A message that is delivered to
it puts it into the ready queue, once; one that is dropped leaves it where it is. This holds whoever
sends the message, be it another actor in the course of its dispatch or somebody outside.
-/

namespace ActorMachine.Scheduler

open Machine

variable {s s' : Scheduler} {pid : Pid} {p q : Actor} {m m' : Moment} {letter : Letter}

/-- An actor is blocked in a receive, until a deadline if there is one. -/
def Receiving (p : Actor) : Prop :=
  p.state = .blocked ∧ ∃ deadline, p.wait = some (.message deadline)

theorem awaitsMessage_iff (p : Actor) : p.awaitsMessage = true ↔ Receiving p := by
  rw [Actor.awaitsMessage, Receiving]
  cases p.state with
  | blocked =>
    cases p.wait with
    | none => simp
    | some wait => cases wait <;> simp
  | _ => simp

/-- A pid comes from those that wait into the ready queue. -/
structure Woken (s : Scheduler) (pid : Pid) (s' : Scheduler) : Prop where
  /-- It was not in the ready queue. -/
  before : s.ready.count pid = 0
  /-- It is there once. -/
  ready : s'.ready.count pid = 1
  /-- It is no more among those that wait. -/
  blocked : s'.blocked.count pid = 0
  /-- Its actor can run and waits for nothing. -/
  actor : ∃ q, s'.actor? pid = some q ∧ q.state = .ready ∧ q.wait = none

/-- The actor `p` goes on waiting, and has not got anything. -/
structure StillWaits (p : Actor) (pid : Pid) (s' : Scheduler) : Prop where
  /-- It is not in the ready queue. -/
  ready : s'.ready.count pid = 0
  /-- It is among those that wait. -/
  blocked : s'.blocked.count pid = 1
  /-- It waits for the same, and its mailbox is the same. -/
  actor : ∃ q, s'.actor? pid = some q ∧ q.state = .blocked ∧ q.wait = p.wait ∧
    q.mailbox = p.mailbox

/-- What is sent meets its receiver, if that is not the one that sends it. -/
theorem Move.meets (hmove : Move m (some letter) m') (h : Valid m)
    (hp : m.scheduler.actor? letter.receiver = some p) :
    ∃ q, m'.scheduler.actor? letter.receiver = some q ∧ Meets p (some letter.payload) q := by
  have hself : letterTo (some letter) letter.receiver = some letter.payload :=
    letterTo_self letter.receiver letter.payload
  obtain ⟨s, hand⟩ := m
  cases hand with
  | none =>
    -- With no actor in hand, the message comes from outside.
    generalize hsent : some letter = letter? at hmove
    cases hmove with
    | send s receiver payload =>
      obtain rfl := Option.some.inj hsent
      obtain ⟨q, hq, hmeets⟩ := (passes_deliver h.booked receiver payload).meets hp
      exact ⟨q, hq, hself ▸ hmeets⟩
    | _ => cases hsent
  | some sender =>
    obtain ⟨q, hq, hmeets⟩ := (hmove.passes h rfl).meets hp
    exact ⟨q, hq, hself ▸ hmeets⟩

/-- Every message wakes the actor that waits for it, unless it is dropped, and then there is no room
for it. -/
theorem Move.wakes (hmove : Move m (some letter) m') (h : Valid m)
    (hp : m.scheduler.actor? letter.receiver = some p) (hwaits : Receiving p) :
    (∀ q, Actor.deliver letter.payload p = .ok () q →
      Woken m.scheduler letter.receiver m'.scheduler) ∧
    ∀ fault q, Actor.deliver letter.payload p = .error fault q →
      ¬ p.HasRoom letter.payload ∧ StillWaits p letter.receiver m'.scheduler := by
  have h' := hmove.valid h
  obtain ⟨q, hq, hmeets⟩ := hmove.meets h hp
  obtain ⟨hsound, hfits⟩ := h.booked.live_sound hp
  have htakes := Actor.deliver_takes hsound hfits letter.payload
  have hlisted := h'.booked.of_live hq
  refine ⟨fun r hrun => ?_, fun fault r hrun => ?_⟩
  · have hroom := (htakes.of_ok hrun).1
    obtain ⟨-, -, -, ⟨-, hnone, -⟩ | ⟨-, -, hold⟩⟩ := h.booked.of_live hp
    -- An actor that can run waits for nothing, so it is blocked.
    · obtain ⟨-, deadline, hwait⟩ := hwaits
      cases hnone.symm.trans hwait
    -- There is room, so it has got the message, and it was waiting for one.
    · cases hmeets with
      | dropped hfull => exact absurd hroom hfull
      | taken _ _ _ _ hbusy => exact absurd ((awaitsMessage_iff p).2 hwaits) (by simp [hbusy])
      | woken =>
        obtain ⟨-, -, -, ⟨-, -, hnew⟩ | ⟨hstate, -⟩⟩ := hlisted
        · refine ⟨List.count_eq_zero.2 hold.ready.1, ?_, List.count_eq_zero.2 hnew.blocked.1,
            _, hq, rfl, rfl⟩
          exact List.count_eq_one_of_mem h'.booked.ready (hnew.ready.2 trivial)
        -- The actor that was woken is not blocked.
        · cases hstate
  · have hfull := (htakes.of_error hrun).1
    refine ⟨hfull, ?_⟩
    cases hmeets with
    | dropped =>
      obtain ⟨hstate, deadline, hwait⟩ := hwaits
      obtain ⟨-, -, -, ⟨hready, -⟩ | ⟨-, -, hnew⟩⟩ := hlisted
      · cases hstate.symm.trans hready
      · exact ⟨List.count_eq_zero.2 hnew.ready.1,
          List.count_eq_one_of_mem h'.booked.blocked (hnew.blocked.2 trivial),
          _, hq, hstate, rfl, rfl⟩
    | taken hroom => exact absurd hroom hfull
    | woken hroom => exact absurd hroom hfull

/-- Whatever was done to a scheduler and whatever happens next, nobody is blocked in a receive while
there is a message left to look at. A message that is delivered to an actor that is blocked so wakes
it, and one that is dropped leaves it blocked. -/
theorem wakeups_of_reaches {config : SchedulerConfig} {loader : Loader} {clock : Clock}
    (h : Reaches (create config loader clock) s) :
    (∀ pid p, s.actor? pid = some p → Receiving p → p.mailbox.rest = []) ∧
      (∀ commands s', Command.carryOutAll commands s = some s' →
        Passed s (commands.filterMap Command.sent) s') ∧
      ∀ records m, History ⟨s, none⟩ records m →
        (∀ pid p, m.scheduler.actor? pid = some p → Receiving p → p.mailbox.rest = []) ∧
        ∀ record ∈ records, ∀ letter p, record.letter = some letter →
          record.before.scheduler.actor? letter.receiver = some p → Receiving p →
          (∀ q, Actor.deliver letter.payload p = .ok () q →
            Woken record.before.scheduler letter.receiver record.after.scheduler) ∧
          ∀ fault q, Actor.deliver letter.payload p = .error fault q →
            ¬ p.HasRoom letter.payload ∧ StillWaits p letter.receiver record.after.scheduler := by
  have hvalid := h.valid
  -- That nobody is blocked with a message to look at is part of what is valid.
  have hread : ∀ {m : Moment}, Valid m → ∀ pid p, m.scheduler.actor? pid = some p → Receiving p →
      p.mailbox.rest = [] := fun hm pid p hp hwaits =>
    hm.allRead pid p hp ((awaitsMessage_iff p).2 hwaits)
  refine ⟨hread hvalid, fun _ _ => passed_carryOutAll hvalid, fun records m hhistory => ?_⟩
  refine ⟨hread (hhistory.valid hvalid), fun record hrecord letter p hletter hp hwaits => ?_⟩
  obtain ⟨hbefore, hmove⟩ := hhistory.of_mem hvalid hrecord
  rw [hletter] at hmove
  exact hmove.wakes hbefore hp hwaits

/-- Whether a message can be delivered to an actor. -/
def takesMessage (payload : Payload) (p : Actor) : Bool :=
  match Actor.deliver payload p with
  | .ok _ _ => true
  | .error _ _ => false

theorem exists_deliver_of_takesMessage {payload : Payload} {p : Actor}
    (h : takesMessage payload p = true) : ∃ q, Actor.deliver payload p = .ok () q := by
  rw [takesMessage] at h
  cases hrun : Actor.deliver payload p with
  | ok _ q => exact ⟨q, rfl⟩
  | error fault q =>
    rw [hrun] at h
    cases h

/-- An actor that waits for its first message is woken by it. -/
theorem wakeups_waiter :
    ∃ (s : Scheduler) (p : Actor), s.actor? ⟨1⟩ = some p ∧ Receiving p ∧ p.mailbox.rest = [] ∧
      Woken s ⟨1⟩ (s.send ⟨1⟩ .nil) := by
  have hfacts : (Command.carryOutAll [.spawn waiter [], .step 3]
        (create {} .standard .standing)).map (fun s : Scheduler => (s.actor? ⟨1⟩).any fun p =>
          p.awaitsMessage && takesMessage .nil p) = some true := by
    decide +kernel
  obtain ⟨s, hs, hany⟩ := Option.map_eq_some_iff.1 hfacts
  obtain ⟨p, hp, hboth⟩ := (Option.any_eq_true _ _).1 hany
  obtain ⟨hwaits, hdelivered⟩ := Bool.and_eq_true_iff.1 hboth
  have hreceiving := (awaitsMessage_iff p).1 hwaits
  obtain ⟨hread, -, hhistory⟩ := wakeups_of_reaches ⟨_, hs⟩
  refine ⟨s, p, hp, hreceiving, hread ⟨1⟩ p hp hreceiving, ?_⟩
  obtain ⟨-, hrecord⟩ := hhistory _ _ (Move.send s ⟨1⟩ .nil).history
  obtain ⟨q, hrun⟩ := exists_deliver_of_takesMessage hdelivered
  exact (hrecord _ List.mem_cons_self ⟨⟨1⟩, .nil⟩ p rfl hp hreceiving).1 q hrun

end ActorMachine.Scheduler
