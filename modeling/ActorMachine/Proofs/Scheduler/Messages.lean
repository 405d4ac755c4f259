import ActorMachine.Proofs.Scheduler.History

/-!
# Messages arrive in order and unchanged

* `arrivals`: all that was ever appended to the mailbox of an actor in the course of a history.
* `Record.accepted`: what was sent to the actor while it was alive and had room for it.
* `Arrival.Conveys`: a value stands for what was sent, from its arrival on until a part of it is
  written to or it is gone from the heap.
* `faithful_of_history`: the two sequences belong together, one by one and in order. What is sent to
  nobody changes nothing, and who sends goes on.
-/

namespace ActorMachine.Scheduler

open Machine

variable {s s' : Scheduler} {pid : Pid} {p q r : Actor} {v : Value} {payload : Payload}
  {m m' : Moment} {letter : Letter} {record : Record} {records : List Record}

/-! ### What is sent and what arrives -/

/-- The messages of an actor, oldest first. -/
def Moment.messages (m : Moment) (pid : Pid) : List Value :=
  ((m.actor? pid).map fun p => p.mailbox.toList).getD []

/-- What was appended to the mailbox of an actor: all that is there behind what the instruction that
it may have executed has left. -/
def Record.arrived (record : Record) (pid : Pid) : List Value :=
  (record.after.messages pid).drop (record.before.executed.messages pid).length

/-- What was sent to an actor that is alive and has room for it after a collection. -/
def Record.accepted (record : Record) (pid : Pid) : Option Payload :=
  (letterTo record.letter pid).filter fun payload =>
    (record.before.executed.actor? pid).any fun p => decide (p.HasRoom payload)

/-- A value that was appended to the mailbox of an actor. -/
structure Arrival where
  /-- The value. -/
  value : Value
  /-- The moment after the move in which it was. -/
  moment : Moment
  /-- The moves after that one. -/
  later : List Record

/-- All that was appended to the mailbox of an actor, in this order. -/
def arrivals (pid : Pid) : List Record → List Arrival
  | [] => []
  | record :: later =>
    (record.arrived pid).map (fun v => ⟨v, record.after, later⟩) ++ arrivals pid later

/-- In a move the value outlives, and no part of it was written to. -/
def Record.Spares (record : Record) (pid : Pid) (v : Value) : Prop :=
  ∃ p q, record.before.actor? pid = some p ∧ record.after.actor? pid = some q ∧ q.heap.Backs v ∧
    ∀ r, p.heap.Part v (.ref r) → r.handle ∉ record.before.writes pid

/-- From its arrival on, as long as it is there and was not written to, the value captures to what
was sent. -/
def Arrival.Conveys (pid : Pid) (arrival : Arrival) (payload : Payload) : Prop :=
  ∀ early late m, arrival.later = early ++ late → History arrival.moment early m →
    (∀ record ∈ early, record.Spares pid arrival.value) →
    ∃ q, m.actor? pid = some q ∧ Payload.capture q.heap arrival.value = .ok payload

/-- There never was an actor of this pid, or it has ended. -/
def Gone (s : Scheduler) (pid : Pid) : Prop :=
  ¬ s.registry.Issued pid ∨ (s.exitReason? pid).isSome

/-- What holds of the messages in the course of a history. -/
structure Faithful (records : List Record) : Prop where
  /-- What arrives at an actor is what was sent to it and had room, in the same order. -/
  inOrder : ∀ pid, List.Forall₂ (Arrival.Conveys pid) (arrivals pid records)
    (records.filterMap (Record.accepted · pid))
  /-- The mailbox consists of messages that were left in it and of those that have arrived since. -/
  mailbox : ∀ record ∈ records, ∀ pid q, record.after.actor? pid = some q →
    ∃ kept : List Value, kept.Sublist (record.before.messages pid) ∧
      q.mailbox.toList = kept ++ record.arrived pid
  /-- What is on the stack or in the mailbox is there in the heap. -/
  held : ∀ record ∈ records, ∀ pid q, record.after.actor? pid = some q →
    ∀ v ∈ q.roots, q.heap.Backs v
  /-- What is sent from outside to nobody changes nothing. -/
  lost : ∀ record ∈ records, ∀ letter, record.letter = some letter →
    Gone record.before.scheduler letter.receiver → record.before.hand = none →
    record.after = record.before
  /-- What an actor sends to nobody changes nothing: it has executed its instruction. -/
  lostInTurn : ∀ record ∈ records, ∀ letter p, record.letter = some letter →
    Gone record.before.scheduler letter.receiver → record.before.hand = some p →
    record.after = { record.before.executed with
      scheduler := { record.before.scheduler with clock := record.before.scheduler.clock.tick } }
  /-- What an actor sends was captured from the value on top of its stack, and the pid is below. -/
  captured : ∀ record ∈ records, ∀ letter p, record.letter = some letter →
    record.before.hand = some p → ∃ below message,
      p.stack.toList = below ++ [.pid letter.receiver, message] ∧
      Payload.capture p.heap message = .ok letter.payload
  /-- An actor that has sent something goes on as it is, but for what it has sent to itself. -/
  sender : ∀ record ∈ records, ∀ letter p, record.letter = some letter →
    record.before.hand = some p → ∃ r q, record.before.executed.hand = some r ∧
      record.after.hand = some q ∧ q = { r with heap := q.heap, mailbox := q.mailbox } ∧
      (letter.receiver ≠ p.pid → q = r)

/-! ### Single moves -/

theorem Moment.messages_of_some (hp : m.actor? pid = some p) :
    m.messages pid = p.mailbox.toList := by
  rw [messages, hp]
  rfl

theorem Moment.messages_of_none (hnone : m.actor? pid = none) : m.messages pid = [] := by
  rw [messages, hnone]
  rfl

/-- A move appends to the mailbox what was accepted, and nothing else. -/
theorem Move.delivers (hmove : Move record.before record.letter record.after)
    (h : Valid record.before) (pid : Pid) :
    List.Forall₂ (fun v payload => ∃ q, record.after.actor? pid = some q ∧ q.heap.Backs v ∧
        Payload.capture q.heap v = .ok payload)
      (record.arrived pid) (record.accepted pid).toList := by
  rw [Record.arrived, Record.accepted]
  cases hp : record.before.actor? pid with
  | none =>
    -- Nobody was there to accept anything, and who comes has an empty mailbox.
    have hnothing : record.after.messages pid = [] := by
      cases hq : record.after.actor? pid with
      | none => exact Moment.messages_of_none hq
      | some q => exact (Moment.messages_of_some hq).trans (hmove.newcomer h hp hq)
    rw [hnothing, List.drop_nil, h.executed_eq_none hp]
    cases letterTo record.letter pid <;> exact .nil
  | some p =>
    obtain ⟨r, hr, -, ⟨q, hq, htakes⟩ | ⟨hnone, hletter⟩⟩ := hmove.takes h hp
    · rw [Moment.messages_of_some hq, Moment.messages_of_some hr, hr]
      generalize letterTo record.letter pid = payload? at htakes ⊢
      cases htakes with
      | nothing _ hmailbox =>
        rw [hmailbox, List.drop_length]
        exact .nil
      | dropped hfull _ hmailbox =>
        rw [hmailbox, List.drop_length, Option.filter_some, Option.any_some, decide_eq_false hfull]
        exact .nil
      | @taken q payload v hroom _ hmailbox hbacks hcaptured =>
        rw [hmailbox, Mailbox.toList_push, List.drop_left, Option.filter_some, Option.any_some,
          decide_eq_true hroom]
        exact .cons ⟨q, hq, hbacks, hcaptured⟩ .nil
    · rw [Moment.messages_of_none hnone, List.drop_nil, hletter]
      exact .nil

/-- What is left of the mailbox stays in front of what arrives. -/
theorem Move.keeps_messages (hmove : Move record.before record.letter record.after)
    (h : Valid record.before) (hq : record.after.actor? pid = some q) :
    ∃ kept : List Value, kept.Sublist (record.before.messages pid) ∧
      q.mailbox.toList = kept ++ record.arrived pid := by
  rw [Record.arrived, Moment.messages_of_some hq]
  cases hp : record.before.actor? pid with
  | none =>
    rw [hmove.newcomer h hp hq, List.drop_nil]
    exact ⟨[], List.nil_sublist _, rfl⟩
  | some p =>
    obtain ⟨r, hr, hages, ⟨u, hu, htakes⟩ | ⟨hnone, -⟩⟩ := hmove.takes h hp
    · obtain rfl := Option.some.inj (hu.symm.trans hq)
      rw [Moment.messages_of_some hr, Moment.messages_of_some hp]
      refine ⟨r.mailbox.toList, hages.mailbox, ?_⟩
      generalize letterTo record.letter pid = payload? at htakes
      -- After the instruction of the actor itself at most one message is put behind the others.
      cases htakes with
      | nothing _ hmailbox => rw [hmailbox, List.drop_length, List.append_nil]
      | dropped _ _ hmailbox => rw [hmailbox, List.drop_length, List.append_nil]
      | taken _ _ hmailbox => rw [hmailbox, Mailbox.toList_push, List.drop_left]
    · cases hnone.symm.trans hq

/-- A value that a move spares captures to the same payload after it. -/
theorem Move.capture_eq (hmove : Move record.before record.letter record.after)
    (h : Valid record.before) (hspares : record.Spares pid v) (hp : record.before.actor? pid = some p)
    (hv : p.heap.Backs v) :
    ∃ q, record.after.actor? pid = some q ∧ q.heap.Backs v ∧
      Payload.capture q.heap v = Payload.capture p.heap v := by
  obtain ⟨p', q, hp', hq, hbacks, hparts⟩ := hspares
  obtain rfl := Option.some.inj (hp'.symm.trans hp)
  refine ⟨q, hq, hbacks, ?_⟩
  obtain ⟨r, -, hpr, ⟨u, hu, htakes⟩ | ⟨hnone, -⟩⟩ := hmove.takes h hp
  -- Executing an instruction and taking a message age the heap, at most by what is written to.
  · obtain rfl := Option.some.inj (hu.symm.trans hq)
    have hages := (htakes.ages.mono (Nat.le_refl 1) (Set.empty_subset _)).trans hpr.heap
    have hsound := (h.steady hp).1.sound.heap
    have hsound' := ((hmove.valid h).steady hq).1.sound.heap
    exact Payload.capture_eq_of_ages hsound hsound' hages (by decide) hv hbacks hparts
  · cases hnone.symm.trans hq

/-- Of a pid that nobody has there is no actor. -/
theorem Gone.actor?_eq_none {hand : Option Pid} (hgone : Gone s pid) (h : Booked hand s) :
    s.actor? pid = none ∧ hand ≠ some pid := by
  have hplaced := h.placed pid
  have hclash : ∀ {ready blocked running : Prop}, s.Listed hand pid ready blocked running True →
      s.exitReason? pid = none → False := by
    intro ready blocked running hlisted hexit
    rcases hgone with hnew | hended
    · exact hnew (hlisted.issued.2 trivial)
    · rw [hexit] at hended
      cases hended
  generalize hlive : s.actor? pid = live at hplaced
  generalize hexit : s.exitReason? pid = ended at hplaced
  cases hplaced with
  | ready _ _ _ _ hlisted => exact (hclash hlisted hexit).elim
  | blocked _ _ _ _ hlisted => exact (hclash hlisted hexit).elim
  | running hlisted => exact (hclash hlisted hexit).elim
  | exited _ hlisted => exact ⟨rfl, hlisted.running.1⟩
  | unknown hlisted => exact ⟨rfl, hlisted.running.1⟩

/-- What is sent from outside to nobody changes nothing. -/
theorem Move.lost (hmove : Move m (some letter) m') (h : Valid m)
    (hgone : Gone m.scheduler letter.receiver) (hidle : m.hand = none) : m' = m := by
  obtain ⟨hnone, -⟩ := hgone.actor?_eq_none h.booked
  generalize hsent : some letter = letter? at hmove
  cases hmove with
  | send s receiver payload =>
    obtain rfl := Option.some.inj hsent
    have hsame : s.send receiver payload = s := by
      rw [Scheduler.send, deliver, hnone]
    rw [hsame]
  | spawn | kill | wake | manage | begin => cases hsent
  | resume | suspend | stop => cases hidle

/-- An actor that sends goes on. -/
theorem Move.sends (hmove : Move m (some letter) m') (h : Valid m) (hp : m.hand = some p) :
    ∃ s' q, m' = ⟨s', some q⟩ ∧ letterOf m.scheduler p = some letter ∧
      Settles (some letter) { m.scheduler with clock := m.scheduler.clock.tick }
        (advance m.scheduler.loader m.scheduler.clock.now p).2 s' q .resume := by
  -- A turn in which something is sent is one in which the actor goes on.
  have hnever : ∀ {s s' : Scheduler} {p q : Actor} {v : Verdict}, Valid ⟨s, some p⟩ →
      s.turn p = (s', q, v) → some letter = letterOf s p → v = .resume := by
    intro s s' p q v hvalid hturn hsent
    exact ((hvalid.turn hturn).1.sender letter hsent.symm).1
  generalize hsent : some letter = letter? at hmove
  cases hmove with
  | @resume s s' p₀ q hresume =>
    obtain rfl := Option.some.inj hp
    exact ⟨s', q, rfl, rfl, (h.turn hresume).1⟩
  | suspend hsuspend => cases hnever h hsuspend hsent
  | stop hstop => cases hnever h hstop hsent
  | spawn | send | kill | wake | manage | begin => cases hp

/-- What an actor sends to nobody changes nothing. -/
theorem Move.lostInTurn (hmove : Move m (some letter) m') (h : Valid m)
    (hgone : Gone m.scheduler letter.receiver) (hp : m.hand = some p) :
    m' = { m.executed with
      scheduler := { m.scheduler with clock := m.scheduler.clock.tick } } := by
  obtain ⟨hnone, hhand⟩ := hgone.actor?_eq_none h.booked
  obtain ⟨s', q, rfl, -, hsettles⟩ := hmove.sends h hp
  obtain ⟨s, hand⟩ := m
  obtain rfl : hand = some p := hp
  have hother : letter.receiver ≠ p.pid := fun heq => hhand (congrArg some heq.symm)
  rw [← h.pid_advance] at hother
  obtain ⟨-, -, hsame⟩ := hsettles.sender letter rfl
  -- Nobody takes the letter, and it is not for the sender, so both are as they were.
  rw [hsettles.nobody letter rfl hother hnone, hsame hother]
  rfl

/-- What an actor sends is what it has captured, and the pid is below that on the stack. -/
theorem Move.captured (hmove : Move m (some letter) m') (h : Valid m) (hp : m.hand = some p) :
    ∃ below message, p.stack.toList = below ++ [.pid letter.receiver, message] ∧
      Payload.capture p.heap message = .ok letter.payload := by
  obtain ⟨-, -, -, hletter, -⟩ := hmove.sends h hp
  obtain ⟨s, hand⟩ := m
  obtain rfl : hand = some p := hp
  have hsteady := (h.steady (Moment.actor?_self s p)).1
  have hadvance := advance_spec hsteady s.loader s.clock.now
  rw [letterOf] at hletter
  generalize advance s.loader s.clock.now p = a at hadvance hletter
  obtain ⟨o, r⟩ := a
  cases hadvance with
  | executed hstep =>
    dsimp only at hletter
    split at hletter
    next receiver payload =>
      obtain rfl := Option.some.inj hletter
      exact send_of_step hstep
    next => cases hletter
  -- Only an instruction that was executed can send.
  | unwound | trapped => cases hletter

/-- Nothing else happens to the actor that sends. -/
theorem Move.sender (hmove : Move m (some letter) m') (h : Valid m) (hp : m.hand = some p) :
    ∃ r q, m.executed.hand = some r ∧ m'.hand = some q ∧
      q = { r with heap := q.heap, mailbox := q.mailbox } ∧ (letter.receiver ≠ p.pid → q = r) := by
  obtain ⟨s', q, rfl, -, hsettles⟩ := hmove.sends h hp
  obtain ⟨s, hand⟩ := m
  obtain rfl : hand = some p := hp
  obtain ⟨-, hsame, hother⟩ := hsettles.sender letter rfl
  rw [h.pid_advance] at hother
  exact ⟨_, q, rfl, rfl, hsame, hother⟩

/-! ### Histories -/

/-- A value that is spared by every move captures to the same payload after them. -/
theorem History.capture_eq (h : History m records m') (hm : Valid m) (hp : m.actor? pid = some p)
    (hv : p.heap.Backs v) (hspares : ∀ record ∈ records, record.Spares pid v) :
    ∃ q, m'.actor? pid = some q ∧ Payload.capture q.heap v = Payload.capture p.heap v := by
  induction h generalizing p with
  | nil => exact ⟨p, hp, rfl⟩
  | @cons m m' m'' letter records hmove hrest ih =>
    -- The first move leaves the value as it is, and the others find it so.
    obtain ⟨q, hq, hbacks, hfirst⟩ := @Move.capture_eq pid p v ⟨m, letter, m'⟩ hmove hm
      (hspares _ List.mem_cons_self) hp hv
    obtain ⟨u, hu, hlater⟩ := ih (hmove.valid hm) hq hbacks fun record hrecord =>
      hspares record (List.mem_cons_of_mem _ hrecord)
    exact ⟨u, hu, hlater.trans hfirst⟩

/-- What arrives in the course of a history is what was accepted. -/
theorem History.delivers (h : History m records m') (hm : Valid m) (pid : Pid) :
    List.Forall₂ (Arrival.Conveys pid) (arrivals pid records)
      (records.filterMap (Record.accepted · pid)) := by
  induction h with
  | nil => exact .nil
  | @cons m m' m'' letter records hmove hrest ih =>
    have hafter := hmove.valid hm
    have hfirst := @Move.delivers ⟨m, letter, m'⟩ hmove hm pid
    have hhead : List.Forall₂ (Arrival.Conveys pid)
        (((⟨m, letter, m'⟩ : Record).arrived pid).map fun v => ⟨v, m', records⟩)
        ((⟨m, letter, m'⟩ : Record).accepted pid).toList := by
      refine List.forall₂_map_left_iff.2 (hfirst.imp ?_)
      -- What has arrived is followed through the moves after this one.
      rintro v payload ⟨q, hq, hbacks, hcaptured⟩ early late n - hearly hspares
      obtain ⟨u, hu, hsame⟩ := hearly.capture_eq hafter hq hbacks hspares
      exact ⟨u, hu, hsame.trans hcaptured⟩
    -- Both sequences begin with what this move has brought, which is nothing or one message.
    have hall := List.rel_append hhead (ih hafter)
    rw [List.filterMap_eq_flatMap_toList] at hall ⊢
    exact hall

/-- In every history messages arrive one by one, in order and as they were sent, and sending
concerns nobody else. Whatever is done to a scheduler is such a history. -/
theorem faithful_of_history {config : SchedulerConfig} {loader : Loader} {clock : Clock}
    (h : History ⟨create config loader clock, none⟩ records m) :
    Faithful records ∧
      ∀ commands s, Command.carryOutAll commands (create config loader clock) = some s →
        Passed (create config loader clock) (commands.filterMap Command.sent) s := by
  have hcreate := valid_create config loader clock
  -- What is said of a letter is said of the move in which it was sent.
  have hof : ∀ {record letter}, record ∈ records → record.letter = some letter →
      Valid record.before ∧ Move record.before (some letter) record.after := by
    intro record letter hrecord hletter
    rw [← hletter]
    exact h.of_mem hcreate hrecord
  refine ⟨⟨fun pid => h.delivers hcreate pid, fun record hrecord pid q hq => ?_,
    fun record hrecord pid q hq => ?_, fun record hrecord letter hletter hgone hidle => ?_,
    fun record hrecord letter p hletter hgone hp => ?_,
    fun record hrecord letter p hletter hp => ?_, fun record hrecord letter p hletter hp => ?_⟩,
    fun _ _ => passed_carryOutAll hcreate⟩
  · obtain ⟨hvalid, hmove⟩ := h.of_mem hcreate hrecord
    exact hmove.keeps_messages hvalid hq
  · obtain ⟨hvalid, hmove⟩ := h.of_mem hcreate hrecord
    exact ((hmove.valid hvalid).steady hq).1.sound.roots
  · exact (hof hrecord hletter).2.lost (hof hrecord hletter).1 hgone hidle
  · exact (hof hrecord hletter).2.lostInTurn (hof hrecord hletter).1 hgone hp
  · exact (hof hrecord hletter).2.captured (hof hrecord hletter).1 hp
  · exact (hof hrecord hletter).2.sender (hof hrecord hletter).1 hp

/-- A text that is sent to an actor that waits arrives there. -/
theorem faithful_waiter :
    ∃ (records : List Record) (m : Moment),
      History ⟨create {} .standard .standing, none⟩ records m ∧
      records.filterMap (Record.accepted · ⟨1⟩) = [.string "hello"] ∧
      (∃ arrival, arrivals ⟨1⟩ records = [arrival] ∧ arrival.Conveys ⟨1⟩ (.string "hello")) ∧
      Faithful records := by
  have hfacts : (match Scheduler.spawnCallable (.closure waiter []) []
        (create {} .standard .standing) with
      | .ok _ s => (s.actor? ⟨1⟩).any fun p =>
          decide ((Payload.string "hello").heapBytes ≤ p.heap.available)
      | .error _ _ => false) = true := by
    decide +kernel
  cases hspawn : Scheduler.spawnCallable (.closure waiter []) []
      (create {} .standard .standing) with
  | error fault s =>
    rw [hspawn] at hfacts
    cases hfacts
  | ok child s =>
    rw [hspawn] at hfacts
    obtain ⟨p, hp, henough⟩ := (Option.any_eq_true _ _).1 hfacts
    -- There is room already, and a collection does not take any away.
    have hroom : p.HasRoom (.string "hello") :=
      (of_decide_eq_true henough).trans (Actor.available_le_collect _ _)
    have hhistory := (Move.spawn hspawn).history.trans (Move.send s ⟨1⟩ (.string "hello")).history
    obtain ⟨hfaithful, -⟩ := faithful_of_history hhistory
    refine ⟨_, _, hhistory, ?_⟩
    have haccepted : ([⟨⟨create {} .standard .standing, none⟩, none, ⟨s, none⟩⟩] ++
        [⟨⟨s, none⟩, some ⟨⟨1⟩, .string "hello"⟩, ⟨s.send ⟨1⟩ (.string "hello"), none⟩⟩] :
        List Record).filterMap (Record.accepted · ⟨1⟩) = [.string "hello"] := by
      have hlast : (⟨⟨s, none⟩, some ⟨⟨1⟩, .string "hello"⟩,
          ⟨s.send ⟨1⟩ (.string "hello"), none⟩⟩ : Record).accepted ⟨1⟩ =
          some (.string "hello") := by
        have hexecuted : (⟨s, none⟩ : Moment).executed.actor? ⟨1⟩ = some p := hp
        rw [Record.accepted, letterTo_self, hexecuted, Option.filter_some, Option.any_some,
          decide_eq_true hroom]
        rfl
      rw [List.singleton_append, List.filterMap_cons, List.filterMap_cons, hlast]
      rfl
    have horder := hfaithful.inOrder ⟨1⟩
    rw [haccepted] at horder
    refine ⟨haccepted, ?_, hfaithful⟩
    obtain ⟨arrival, rest, hconveys, hrest, heq⟩ := List.forall₂_cons_right_iff.1 horder
    rw [List.forall₂_nil_right_iff.1 hrest] at heq
    exact ⟨arrival, heq, hconveys⟩

end ActorMachine.Scheduler
