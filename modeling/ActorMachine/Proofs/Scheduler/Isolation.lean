import ActorMachine.Proofs.Scheduler.Messages
import ActorMachine.Proofs.Scheduler.Wakeups

/-!
# Actors do not get at each other

* `Spared`: all that may become of an actor while another one is being run: messages come behind
  those that it has, and if it has waited for one it is woken.
* `Move.spared`, `History.spared`: one turn of another actor, and all turns of a dispatch.
* `spared_of_dispatch`: a dispatch, however it ends, means nothing else to the others.
-/

namespace ActorMachine.Scheduler

open Machine

variable {s s' s'' : Scheduler} {pid other : Pid} {p q r : Actor} {sent sent' : List Payload}
  {m m' : Moment} {record : Record} {records : List Record}

/-! ### What becomes of an actor that is not being run -/

/-- An actor has got messages, and nothing else has happened to it unless they have woken it. -/
structure Spared (q : Actor) (sent : List Payload) (r : Actor) : Prop where
  /-- Its pid, its frames, its stack, its deadline and its settings are the same. -/
  same : r = { q with heap := r.heap, mailbox := r.mailbox, state := r.state, wait := r.wait }
  /-- Its messages are where they were, and behind them are those that were sent. -/
  mailbox : ∃ vs : Array Value,
    r.mailbox = { q.mailbox with messages := q.mailbox.messages ++ vs } ∧
    List.Forall₂ (fun v payload => Payload.capture r.heap v = .ok payload) vs.toList sent
  /-- What is on its stack or in its mailbox stands for what it did. -/
  content : ∀ v ∈ q.roots, Payload.capture r.heap v = Payload.capture q.heap v
  /-- It is where it was, unless it was woken from a receive. -/
  stands : (r.state = q.state ∧ r.wait = q.wait) ∨
    (Receiving q ∧ sent ≠ [] ∧ r.state = .ready ∧ r.wait = none)

theorem Spared.refl (q : Actor) : Spared q [] q where
  same := rfl
  mailbox := ⟨#[], by rw [Array.append_empty], .nil⟩
  content _ _ := rfl
  stands := .inl ⟨rfl, rfl⟩

/-- The stack is the same, and no message is lost. -/
theorem Spared.mem_roots (h : Spared q sent r) {v : Value} (hv : v ∈ q.roots) : v ∈ r.roots := by
  obtain ⟨vs, hmailbox, -⟩ := h.mailbox
  have hstack : r.stack = q.stack := by rw [h.same]
  rw [Actor.roots, hstack, List.mem_append]
  rcases List.mem_append.1 hv with hv | hv
  · exact .inl hv
  · right
    rw [hmailbox, Mailbox.toList, Array.toList_append, List.mem_append]
    exact .inl hv

theorem Spared.trans (hqr : Spared q sent r) (hrp : Spared r sent' p) :
    Spared q (sent ++ sent') p := by
  obtain ⟨vs, hmailbox, hvs⟩ := hqr.mailbox
  obtain ⟨vs', hmailbox', hvs'⟩ := hrp.mailbox
  refine ⟨?_, ⟨vs ++ vs', ?_, ?_⟩, fun v hv => ?_, ?_⟩
  · rw [hrp.same, hqr.same]
  · rw [hmailbox', hmailbox, Array.append_assoc]
  · -- What has come first is in the mailbox when the rest comes.
    have hroots : ∀ v ∈ vs.toList, v ∈ r.roots := by
      intro v hv
      rw [Actor.roots, hmailbox, Mailbox.toList, Array.toList_append]
      exact List.mem_append_right _ (List.mem_append_right _ hv)
    have hfirst : List.Forall₂ (fun v payload => v ∈ r.roots ∧
        Payload.capture r.heap v = .ok payload) vs.toList sent :=
      (List.forall₂_and_left _ _).2 ⟨hroots, hvs⟩
    rw [Array.toList_append]
    refine List.rel_append (hfirst.imp fun v payload hv => ?_) hvs'
    exact (hrp.content v hv.1).trans hv.2
  · exact (hrp.content v (hqr.mem_roots hv)).trans (hqr.content v hv)
  -- It is woken by the first messages or by the later ones, and not by both.
  · rcases hqr.stands with ⟨hstate, hwait⟩ | ⟨hwaits, hne, hstate, hwait⟩
    · rcases hrp.stands with ⟨hstate', hwait'⟩ | ⟨⟨hblocked, deadline, hmessage⟩, hne, hready⟩
      · exact .inl ⟨hstate'.trans hstate, hwait'.trans hwait⟩
      · refine .inr ⟨⟨hstate ▸ hblocked, deadline, hwait ▸ hmessage⟩, ?_, hready⟩
        exact fun hnil => hne (List.append_eq_nil_iff.1 hnil).2
    · rcases hrp.stands with ⟨hstate', hwait'⟩ | ⟨⟨hblocked, -⟩, -⟩
      · refine .inr ⟨hwaits, ?_, hstate'.trans hstate, hwait'.trans hwait⟩
        exact fun hnil => hne (List.append_eq_nil_iff.1 hnil).1
      -- Once it is woken it waits no more.
      · cases hstate.symm.trans hblocked

/-- An actor is spared by all that a message to it does. -/
theorem Meets.spared {payload? : Option Payload} (h : Meets q payload? r) (hq : q.Sound)
    (hr : r.Sound) :
    Spared q (payload?.filter fun payload => decide (q.HasRoom payload)).toList r := by
  -- Whatever comes into the heap, what the actor could reach before is as it was.
  have hcontent : ∀ {heap : Heap}, r.heap = heap → r.stack = q.stack →
      (∀ v ∈ q.mailbox.toList, v ∈ r.mailbox.toList) → Heap.Ages 1 ∅ q.heap heap →
      ∀ v ∈ q.roots, Payload.capture r.heap v = Payload.capture q.heap v := by
    rintro _ rfl hstack hmailbox hages v hv
    have hv' : v ∈ r.roots := by
      rw [Actor.roots, hstack]
      rcases List.mem_append.1 hv with hv | hv
      · exact List.mem_append_left _ hv
      · exact List.mem_append_right _ (hmailbox v hv)
    exact Payload.capture_eq_of_ages hq.heap hr.heap hages (by decide) (hq.roots v hv)
      (hr.roots v hv') fun _ _ => id
  have hpush : ∀ {v w : Value}, v ∈ q.mailbox.toList → v ∈ (q.mailbox.push w).toList := by
    intro v w hv
    rw [Mailbox.toList_push]
    exact List.mem_append_left _ hv
  cases h with
  | nothing => exact .refl q
  | dropped hfull hages =>
    rw [Option.filter_some, decide_eq_false hfull]
    exact ⟨rfl, ⟨#[], by rw [Array.append_empty], .nil⟩, hcontent rfl rfl (fun _ => id) hages,
      .inl ⟨rfl, rfl⟩⟩
  | @taken payload heap v hroom hages _ hcaptured =>
    rw [Option.filter_some, decide_eq_true hroom]
    exact ⟨rfl, ⟨#[v], by rw [Mailbox.push, Array.push_eq_append], .cons hcaptured .nil⟩,
      hcontent rfl rfl (fun _ => hpush) hages, .inl ⟨rfl, rfl⟩⟩
  | @woken payload heap v hroom hages _ hcaptured hwaits =>
    rw [Option.filter_some, decide_eq_true hroom]
    exact ⟨rfl, ⟨#[v], by rw [Mailbox.push, Array.push_eq_append], .cons hcaptured .nil⟩,
      hcontent rfl rfl (fun _ => hpush) hages,
      .inr ⟨(awaitsMessage_iff q).1 hwaits, List.cons_ne_nil _ _, rfl, rfl⟩⟩

/-- In a turn of one actor any other is spared. -/
theorem Move.spared (hmove : Move record.before record.letter record.after)
    (h : Valid record.before) (hhand : record.before.hand.map Actor.pid = some pid)
    (hother : other ≠ pid) (hq : record.before.scheduler.actor? other = some q) :
    ∃ r, record.after.scheduler.actor? other = some r ∧
      Spared q (record.accepted other).toList r := by
  obtain ⟨p, hp, rfl⟩ := Option.map_eq_some_iff.1 hhand
  obtain ⟨r, hr, hmeets⟩ := (hmove.passes h hp).meets hq
  have hsound := (h.booked.live_sound hq).1
  have hsound' := ((hmove.valid h).booked.live_sound hr).1
  have hexecuted : record.before.executed.actor? other = some q := by
    rw [← hq]
    obtain ⟨⟨s, hand⟩, letter, after⟩ := record
    obtain rfl : hand = some p := hp
    exact if_neg (by rw [h.pid_advance]; exact Ne.symm hother)
  refine ⟨r, hr, ?_⟩
  rw [Record.accepted, hexecuted]
  exact hmeets.spared hsound hsound'

/-! ### The queues -/

/-- Those in the queues are where they were, but for those that were woken, who are behind the
others. -/
structure InLine (s s' : Scheduler) : Prop where
  /-- Those that could run are in front of the ready queue. -/
  ready : s.ready <+: s'.ready
  /-- Those that go on waiting are in front of the others that do. -/
  blocked : s.blocked.filter (fun pid => decide (pid ∉ s'.ready)) <+: s'.blocked

theorem Booked.inLine {hand : Option Pid} (h : Booked hand s) : InLine s s where
  ready := List.prefix_refl _
  blocked := (passes_of_eq rfl rfl rfl h).blocked

theorem InLine.trans (h : InLine s s') (h' : InLine s' s'') : InLine s s'' where
  ready := h.ready.trans h'.ready
  blocked := by
    -- Who was woken before is still awake.
    have hfilter : s.blocked.filter (fun pid => decide (pid ∉ s''.ready)) =
        (s.blocked.filter fun pid => decide (pid ∉ s'.ready)).filter
          fun pid => decide (pid ∉ s''.ready) := by
      rw [List.filter_filter]
      refine List.filter_congr fun pid _ => ?_
      by_cases hmem : pid ∈ s'.ready
      · simp [hmem, h'.ready.subset hmem]
      · simp [hmem]
    rw [hfilter]
    exact (h.blocked.filter _).trans h'.blocked

/-- As long as one actor has its turns, any other is spared, and so are the queues. -/
theorem History.spared (h : History m records m') (hm : Valid m)
    (hhand : ∀ record ∈ records, record.before.hand.map Actor.pid = some pid) :
    InLine m.scheduler m'.scheduler ∧
      ∀ other q, other ≠ pid → m.scheduler.actor? other = some q →
        ∃ r, m'.scheduler.actor? other = some r ∧
          Spared q (records.filterMap (Record.accepted · other)) r := by
  induction h with
  | nil => exact ⟨hm.booked.inLine, fun other q _ hq => ⟨q, hq, .refl q⟩⟩
  | @cons m m' m'' letter records hmove hrest ih =>
    have hfirst := hhand _ List.mem_cons_self
    obtain ⟨p, hp, -⟩ := Option.map_eq_some_iff.1 hfirst
    have hpasses := hmove.passes hm hp
    obtain ⟨hline, hlater⟩ := ih (hmove.valid hm) fun record hrecord =>
      hhand record (List.mem_cons_of_mem _ hrecord)
    refine ⟨InLine.trans ⟨hpasses.ready, hpasses.blocked⟩ hline, fun other q hother hq => ?_⟩
    obtain ⟨r, hr, hqr⟩ :=
      @Move.spared pid other q ⟨m, letter, m'⟩ hmove hm hfirst hother hq
    obtain ⟨u, hu, hru⟩ := hlater other r hother hr
    refine ⟨u, hu, ?_⟩
    have hall := hqr.trans hru
    rw [List.filterMap_eq_flatMap_toList] at hall ⊢
    exact hall

/-- An actor is listed as it was, or it was woken from a receive. -/
inductive Listing (s : Scheduler) (q : Actor) (sent : List Payload) (other : Pid)
    (s' : Scheduler) (r : Actor) : Prop
  /-- It is in the queue where it was. -/
  | same (state : r.state = q.state) (wait : r.wait = q.wait)
      (ready : other ∈ s'.ready ↔ other ∈ s.ready)
      (blocked : other ∈ s'.blocked ↔ other ∈ s.blocked) : Listing s q sent other s' r
  /-- It has waited for a message, and has got one. -/
  | woken (receiving : Receiving q) (message : sent ≠ []) (woken : Woken s other s') :
      Listing s q sent other s' r

/-- Where the books are in order, they say where an actor is that was spared. -/
theorem Spared.listing (h : Spared q sent r) (hs : Booked none s) (hs' : Booked none s')
    (hq : s.actor? other = some q) (hr : s'.actor? other = some r) :
    Listing s q sent other s' r := by
  obtain ⟨-, -, -, hq'⟩ := hs.of_live hq
  obtain ⟨-, -, -, hr'⟩ := hs'.of_live hr
  -- Either it stands where it stood, or it has been woken. The books say in which list it is then.
  rcases h.stands with ⟨hstate, hwait⟩ | ⟨hreceiving, hmessage, hstate, hwait⟩
  · rcases hq' with ⟨hready, -, hold⟩ | ⟨hblocked, -, hold⟩
    · rcases hr' with ⟨-, -, hnew⟩ | ⟨hblocked', -⟩
      · exact .same hstate hwait (hnew.ready.trans hold.ready.symm)
          (hnew.blocked.trans hold.blocked.symm)
      · cases (hstate.trans hready).symm.trans hblocked'
    · rcases hr' with ⟨hready', -⟩ | ⟨-, -, hnew⟩
      · cases (hstate.trans hblocked).symm.trans hready'
      · exact .same hstate hwait (hnew.ready.trans hold.ready.symm)
          (hnew.blocked.trans hold.blocked.symm)
  · rcases hq' with ⟨hready, -⟩ | ⟨-, -, hold⟩
    · cases hready.symm.trans hreceiving.1
    · rcases hr' with ⟨-, -, hnew⟩ | ⟨hblocked', -⟩
      · refine .woken hreceiving hmessage ⟨List.count_eq_zero.2 hold.ready.1, ?_,
          List.count_eq_zero.2 hnew.blocked.1, r, hr, hstate, hwait⟩
        exact List.count_eq_one_of_mem hs'.ready (hnew.ready.2 trivial)
      · cases hstate.symm.trans hblocked'

/-! ### Dispatches -/

/-- A dispatch of an actor consists of turns of it, however it ends. Any other actor lives on and is
spared: it gets the messages sent to it in these turns, which may wake it, and nothing else. Those
in the queues keep their places. -/
theorem spared_of_dispatch {config : SchedulerConfig} {loader : Loader} {clock : Clock}
    {earlier : List Record} {ready : List Pid} {budget : Nat}
    (h : History ⟨create config loader clock, none⟩ earlier ⟨s, none⟩)
    (hready : s.ready = pid :: ready) (hp : s.actor? pid = some p)
    (hdispatch : dispatch budget p { s with ready, registry := s.registry.lend pid } = some s') :
    ∃ turns,
      History ⟨{ s with ready, registry := s.registry.lend pid }, some (prepared p)⟩ turns
        ⟨s', none⟩ ∧
      (∀ record ∈ turns, record.before.hand.map Actor.pid = some pid) ∧
      ready <+: s'.ready ∧
      s.blocked.filter (fun other => decide (other ∉ s'.ready)) <+: s'.blocked ∧
      ∀ other q, other ≠ pid → s.actor? other = some q →
        ∃ r, s'.actor? other = some r ∧
          Spared q (turns.filterMap (Record.accepted · other)) r ∧
          Listing s q (turns.filterMap (Record.accepted · other)) other s' r := by
  have hvalid := h.valid (valid_create config loader clock)
  have hbegun := (Move.begin hready hp).valid hvalid
  have hmem : pid ∈ s.ready := hready ▸ List.mem_cons_self
  obtain ⟨q, hq, -, hown, hreached, -, hwait, -⟩ := hvalid.booked.of_mem_ready hmem
  obtain rfl := Option.some.inj (hq.symm.trans hp)
  subst hown
  -- The dispatch is cut into turns, and each of these spares the others.
  obtain ⟨turns, hturns, hhand⟩ :=
    exists_history_of_dispatch (hvalid.booked.lend hready).booked hreached hwait hdispatch
  have hended := hturns.valid hbegun
  obtain ⟨hline, hspared⟩ := hturns.spared hbegun hhand
  refine ⟨turns, hturns, hhand, hline.ready, hline.blocked, fun other u hother hu => ?_⟩
  have hlent : actor? { s with ready, registry := s.registry.lend q.pid } other = some u :=
    ((Table.find?_erase _ _ _).trans (if_neg hother)).trans hu
  obtain ⟨r, hr, hur⟩ := hspared other u hother hlent
  exact ⟨r, hr, hur, hur.listing hvalid.booked hended.booked hu hr⟩

/-- A function that sends a message to its argument and then fails, for it has nothing to return. -/
def sender : Routine :=
  .loose { Prototype.blank with arguments := 1, code := #[.loadLocal 0, .bool true, .send, .call 7] }

/-- An actor that waits is woken by another one, which ends with a fault. -/
theorem spared_waiter :
    ∃ (s s' : Scheduler) (q r : Actor) (sent : List Payload),
      s.actor? ⟨1⟩ = some q ∧ s'.actor? ⟨1⟩ = some r ∧ s'.ready = [⟨1⟩] ∧
      (∃ fault, s'.exitReason? ⟨2⟩ = some (.error fault)) ∧
      Spared q sent r ∧ Listing s q sent ⟨1⟩ s' r := by
  have hfacts : ((Command.carryOutAll [.spawn waiter [], .step 3, .spawn sender [.pid ⟨1⟩]]
        (create {} .standard .standing)).map fun s : Scheduler =>
          s.ready == [⟨2⟩] && (s.actor? ⟨1⟩).isSome && (s.actor? ⟨2⟩).any fun p =>
            (dispatch 5 p { s with ready := [], registry := s.registry.lend ⟨2⟩ }).any fun s' =>
              s'.ready == [⟨1⟩] && exitedWithFault (s'.exitReason? ⟨2⟩)) = some true := by
    decide +kernel
  obtain ⟨s, hs, hall⟩ := Option.map_eq_some_iff.1 hfacts
  simp only [Bool.and_eq_true, Option.any_eq_true, beq_iff_eq] at hall
  obtain ⟨⟨hready, hwaits⟩, p, hp, s', hdispatch, hready', hended⟩ := hall
  obtain ⟨q, hq⟩ := Option.isSome_iff_exists.1 hwaits
  obtain ⟨earlier, hearlier, -⟩ := passed_carryOutAll (valid_create _ _ _) hs
  obtain ⟨turns, -, -, -, -, hothers⟩ := spared_of_dispatch hearlier hready hp hdispatch
  obtain ⟨r, hr, hspared, hlisting⟩ := hothers ⟨1⟩ q (by decide) hq
  exact ⟨s, s', q, r, _, hq, hr, hready', exists_fault_of_exitedWithFault hended, hspared,
    hlisting⟩

end ActorMachine.Scheduler
