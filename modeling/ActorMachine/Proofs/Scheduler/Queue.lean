import ActorMachine.Proofs.Scheduler.Courses

/-!
# The ready queue

Who becomes able to run, for whatever reason, stands behind all that are waiting for their turn, and
nobody leaves the queue but at its head or by being killed.

* `Lines`, `Move.lines`: what a move does to the queue.
* `History.inFront`: as long as an actor stays in the queue, those dispatched are among the ones
  that stood in front of it, each at most once and in their order.
* `roundRobin_of_history`: hence nobody is overtaken.
-/

namespace ActorMachine.Scheduler

open Machine

variable {s s' : Scheduler} {pid other : Pid} {m m' m'' : Moment} {letter : Option Letter}
  {record : Record} {records records' : List Record} {queue queue' : List Pid}

/-- The moves of a history may be cut in two. -/
theorem History.split (h : History m (records ++ records') m'') :
    ∃ m', History m records m' ∧ History m' records' m'' := by
  induction records generalizing m with
  | nil => exact ⟨m, .nil m, h⟩
  | cons record records ih =>
    cases h with
    | cons hmove hrest =>
      obtain ⟨m', hleft, hright⟩ := ih hrest
      exact ⟨m', .cons hmove hleft, hright⟩

/-! ### What a move does to the queue -/

/-- An actor was killed in a move. -/
def Record.Kills (record : Record) (pid : Pid) : Prop :=
  (record.before.actor? pid).isSome ∧ record.after.scheduler.exitReason? pid = some .killed

/-- An actor is in the ready queue before a move and after it. -/
def Record.Queues (record : Record) (pid : Pid) : Prop :=
  pid ∈ record.before.scheduler.ready ∧ pid ∈ record.after.scheduler.ready

/-- What becomes of the ready queue in a move. -/
inductive Lines : List Pid → Option Pid → List Pid → Prop
  /-- Newcomers stand behind all that are there. -/
  | joins {queue joining : List Pid} (new : ∀ pid ∈ joining, pid ∉ queue) :
      Lines queue none (queue ++ joining)
  /-- The first one is dispatched. -/
  | leads (pid : Pid) (queue : List Pid) : Lines (pid :: queue) (some pid) queue
  /-- One leaves wherever it stands. -/
  | leaves (queue : List Pid) (pid : Pid) : Lines queue none (queue.filter (· ≠ pid))

/-- Where nobody is lost from the front of the queue, some may have come behind it. -/
theorem lines_of_front (h : queue <+: queue') (hnodup : queue'.Nodup) : Lines queue none queue' := by
  obtain ⟨joining, rfl⟩ := h
  exact .joins fun pid hjoining hqueue => List.disjoint_of_nodup_append hnodup hqueue hjoining

theorem ready_prefix_makeReady (s : Scheduler) (pid : Pid) : s.ready <+: (s.makeReady pid).ready := by
  rw [makeReady]
  split
  next =>
    dsimp only
    split
    next => exact List.prefix_append _ _
    next => exact List.prefix_refl _
  next => exact List.prefix_refl _

theorem ready_prefix_wakeExpired (s : Scheduler) (now : Time) :
    s.ready <+: (s.wakeExpired now).ready := by
  rw [wakeExpired]
  generalize (s.blocked.filter fun pid => (s.deadlineOf? pid).any (· ≤ now)) = pids
  induction pids generalizing s with
  | nil => exact List.prefix_refl _
  | cons pid pids ih => exact (ready_prefix_makeReady s pid).trans (ih _)

theorem ready_kill (hlive : (s.actor? pid).isSome) :
    (s.kill pid).2.ready = s.ready.filter (· ≠ pid) := by
  obtain ⟨p, hp⟩ := Option.isSome_iff_exists.1 hlive
  rw [kill, hp]
  dsimp only
  rw [finish_eq]
  rfl

theorem exitReason?_kill (hlive : (s.actor? pid).isSome) :
    (s.kill pid).2.exitReason? pid = some .killed := by
  obtain ⟨p, hp⟩ := Option.isSome_iff_exists.1 hlive
  rw [kill, hp]
  dsimp only
  rw [finish_eq]
  exact Registry.exitReason?_retire_self _ _ _

/-- In a move the queue changes in one of these ways, and who leaves it is dispatched or killed. -/
theorem Move.lines (hmove : Move record.before record.letter record.after)
    (h : Valid record.before) :
    Lines record.before.scheduler.ready record.dispatched record.after.scheduler.ready ∧
      ∀ pid ∈ record.before.scheduler.ready, pid ∉ record.after.scheduler.ready →
        record.dispatched = some pid ∨ record.Kills pid := by
  have hnodup : record.after.scheduler.ready.Nodup := (hmove.valid h).booked.ready
  -- Mostly nobody leaves the queue.
  have hjoins : record.before.scheduler.ready <+: record.after.scheduler.ready →
      record.dispatched = none →
      Lines record.before.scheduler.ready record.dispatched record.after.scheduler.ready ∧
        ∀ pid ∈ record.before.scheduler.ready, pid ∉ record.after.scheduler.ready →
          record.dispatched = some pid ∨ record.Kills pid := by
    intro hahead hnone
    rw [hnone]
    exact ⟨lines_of_front hahead hnodup, fun pid hmem hgone =>
      absurd (hahead.subset hmem) hgone⟩
  have hturn : ∀ p, record.before.hand = some p →
      record.before.scheduler.ready <+: record.after.scheduler.ready ∧
        record.dispatched = none := fun p hp =>
    ⟨(hmove.passes h hp).ready, @Record.dispatched_of_hand p.pid _ (congrArg _ hp)⟩
  obtain ⟨before, letter, after⟩ := record
  cases hmove with
  | spawn hspawned => exact hjoins (passes_spawnCallable h.booked hspawned).ready rfl
  | send s receiver payload => exact hjoins (passes_deliver h.booked receiver payload).ready rfl
  | wake s now => exact hjoins (ready_prefix_wakeExpired s now) rfl
  | manage => exact hjoins (List.prefix_refl _) rfl
  | kill s pid =>
    by_cases hlive : (s.actor? pid).isSome
    · have hready := ready_kill hlive
      refine ⟨?_, fun other hmem hgone => .inr ?_⟩
      · show Lines s.ready none (s.kill pid).2.ready
        rw [hready]
        exact .leaves _ _
      · obtain rfl : other = pid := by
          by_contra hne
          exact hgone (hready ▸ (mem_filter_of_ne hne).2 hmem)
        exact ⟨hlive, exitReason?_kill hlive⟩
    -- Nobody is there to be killed.
    · refine hjoins ?_ rfl
      show s.ready <+: (s.kill pid).2.ready
      rw [Scheduler.kill, Option.not_isSome_iff_eq_none.1 hlive]
  | @begin s pid ready p hfirst hlive =>
    obtain ⟨-, hown, -⟩ := h.booked.of_live hlive
    obtain ⟨hsteady, hfits⟩ := h.steady hlive
    have hpid : (prepared p).pid = pid := (takes_prepared hsteady.sound hfits).1.trans hown
    have hdispatched : (⟨⟨s, none⟩, none, ⟨{ s with ready, registry := s.registry.lend pid },
        some (prepared p)⟩⟩ : Record).dispatched = some pid := congrArg some hpid
    rw [hdispatched]
    refine ⟨?_, fun other hmem hgone => .inl ?_⟩
    · show Lines s.ready (some pid) ready
      rw [hfirst]
      exact .leads pid ready
    · change other ∈ s.ready at hmem
      rw [hfirst] at hmem
      exact congrArg some ((List.mem_cons.1 hmem).resolve_right hgone).symm
  | resume | suspend | stop =>
    obtain ⟨hahead, hnone⟩ := hturn _ rfl
    exact hjoins hahead hnone

/-- An actor that stays in the queue is neither dispatched nor killed. -/
theorem Move.queues (hmove : Move record.before record.letter record.after)
    (h : Valid record.before) (hmem : pid ∈ record.before.scheduler.ready)
    (hdispatched : record.dispatched ≠ some pid) (hkilled : ¬ record.Kills pid) :
    record.Queues pid := by
  refine ⟨hmem, ?_⟩
  by_contra hgone
  rcases (hmove.lines h).2 pid hmem hgone with hyes | hyes
  · exact hdispatched hyes
  · exact hkilled hyes

/-! ### Those in front -/

/-- Those that stand in front of a pid. -/
def inFront (pid : Pid) (queue : List Pid) : List Pid :=
  queue.takeWhile (· ≠ pid)

theorem inFront_sublist (pid : Pid) (queue : List Pid) : (inFront pid queue).Sublist queue :=
  List.takeWhile_sublist _

/-- Nobody gets in front of a pid from behind. -/
theorem inFront_append (hmem : pid ∈ queue) (joining : List Pid) :
    inFront pid (queue ++ joining) = inFront pid queue := by
  induction queue with
  | nil => cases hmem
  | cons first queue ih =>
    by_cases heq : first = pid
    · simp [inFront, heq]
    · have hrest : pid ∈ queue := (List.mem_cons.1 hmem).resolve_left (Ne.symm heq)
      simpa [inFront, heq] using ih hrest

/-- Those that stay in front keep their order when another one leaves. -/
theorem inFront_filter (hne : pid ≠ other) (queue : List Pid) :
    inFront pid (queue.filter (· ≠ other)) = (inFront pid queue).filter (· ≠ other) := by
  induction queue with
  | nil => rfl
  | cons first queue ih =>
    by_cases hother : first = other
    · simpa [inFront, hother, hne.symm] using ih
    · by_cases heq : first = pid
      · simp [inFront, heq, hne]
      · simpa [inFront, hother, heq] using ih

/-- Who is dispatched while an actor stays in the queue was the first of those in front of it. -/
theorem Lines.inFront {dispatched : Option Pid} (h : Lines queue dispatched queue')
    (hmem : pid ∈ queue) (hmem' : pid ∈ queue') (hnodup : queue.Nodup) :
    (dispatched.toList ++ inFront pid queue').Sublist (inFront pid queue) := by
  cases h with
  | @joins queue joining hnew =>
    rw [inFront_append hmem]
    exact List.Sublist.refl _
  | leads first queue =>
    have hne : first ≠ pid := by
      rintro rfl
      exact (List.nodup_cons.1 hnodup).1 hmem'
    simp [Scheduler.inFront, hne]
  | leaves queue other =>
    have hne : pid ≠ other := by simpa using (List.mem_filter.1 hmem').2
    rw [inFront_filter hne]
    exact List.filter_sublist

/-- As long as an actor stays in the queue, those that are dispatched stood in front of it. -/
theorem History.inFront (h : History m records m') (hm : Valid m)
    (hstays : ∀ record ∈ records, record.Queues pid) :
    (records.filterMap Record.dispatched ++ inFront pid m'.scheduler.ready).Sublist
      (inFront pid m.scheduler.ready) := by
  induction h with
  | nil => exact List.Sublist.refl _
  | @cons m m' m'' letter records hmove hrest ih =>
    obtain ⟨hfirst, hlater⟩ := List.forall_mem_cons.1 hstays
    have hnext := (@Move.lines ⟨m, letter, m'⟩ hmove hm).1.inFront hfirst.1 hfirst.2
      hm.booked.ready
    have hall := ((List.Sublist.refl _).append (ih (hmove.valid hm) hlater)).trans hnext
    rw [← List.append_assoc] at hall
    rw [List.filterMap_cons]
    generalize (⟨m, letter, m'⟩ : Record).dispatched = dispatched at hall ⊢
    cases dispatched <;> exact hall

/-- An actor that is neither dispatched nor killed stays in the queue. -/
theorem History.queues (h : History m records m') (hm : Valid m) (hmem : pid ∈ m.scheduler.ready)
    (hspared : ∀ record ∈ records, record.dispatched ≠ some pid ∧ ¬ record.Kills pid) :
    (∀ record ∈ records, record.Queues pid) ∧ pid ∈ m'.scheduler.ready := by
  induction h with
  | nil => exact ⟨fun _ => nofun, hmem⟩
  | @cons m m' m'' letter records hmove _ ih =>
    obtain ⟨⟨hdispatched, hkilled⟩, hlater⟩ := List.forall_mem_cons.1 hspared
    have hfirst := @Move.queues pid ⟨m, letter, m'⟩ hmove hm hmem hdispatched hkilled
    obtain ⟨hrest, hend⟩ := ih (hmove.valid hm) hfirst.2 hlater
    exact ⟨List.forall_mem_cons.2 ⟨hfirst, hrest⟩, hend⟩

/-- The one that is dispatched is the first of the queue. -/
theorem Lines.of_dispatched (h : Lines queue (some pid) queue') : queue = pid :: queue' := by
  cases h with
  | leads => rfl

/-- Those that are still there are in front of all others, in the order in which they were. -/
theorem Lines.order {dispatched : Option Pid} (h : Lines queue dispatched queue')
    (hnodup : queue.Nodup) :
    ∃ joining, queue' = queue.filter (· ∈ queue') ++ joining ∧ ∀ pid ∈ joining, pid ∉ queue := by
  cases h with
  | @joins queue joining hnew =>
    have hall : queue.filter (· ∈ queue ++ joining) = queue :=
      List.filter_eq_self.2 fun pid hpid => by simp [hpid]
    exact ⟨joining, by rw [hall], hnew⟩
  | leads first =>
    have hfirst : first ∉ queue' := (List.nodup_cons.1 hnodup).1
    have hall : queue'.filter (· ∈ queue') = queue' := List.filter_eq_self.2 fun pid hpid => by
      simpa using hpid
    exact ⟨[], by simp [hfirst, hall], fun _ => nofun⟩
  | leaves queue other =>
    have hsame : queue.filter (· ∈ queue.filter (· ≠ other)) = queue.filter (· ≠ other) :=
      List.filter_congr fun pid hpid => by simp [hpid]
    exact ⟨[], by rw [hsame, List.append_nil], fun _ => nofun⟩

/-! ### Nobody is overtaken -/

instance (record : Record) (pid : Pid) : Decidable (record.Queues pid) :=
  inferInstanceAs (Decidable (_ ∧ _))

/-- What it means for those in the queue that it is served in turn. -/
structure RoundRobin (m : Moment) (records : List Record) (m' : Moment) : Prop where
  /-- Between two dispatches of an actor all that stood in the queue at the first one are dispatched
  as well, or killed. -/
  served : ∀ earlier first between second later pid other,
    records = earlier ++ first :: between ++ second :: later → first.dispatched = some pid →
    second.dispatched = some pid → other ∈ first.before.scheduler.ready → other ≠ pid →
    ∃ record ∈ between, record.dispatched = some other ∨ record.Kills other
  /-- As long as an actor stays in the queue nobody else is dispatched twice, and nobody at all that
  did not stand in front of it. -/
  once : ∀ pid, (∀ record ∈ records, record.Queues pid) →
    (records.filterMap Record.dispatched).Nodup ∧
      ∀ other ∈ records.filterMap Record.dispatched, other ∈ inFront pid m.scheduler.ready
  /-- Those that stay in the queue are in front of all others, in the order in which they were. -/
  order : ∃ behind,
    m'.scheduler.ready =
      m.scheduler.ready.filter (fun pid => ∀ record ∈ records, record.Queues pid) ++ behind ∧
    ∀ pid ∈ behind, ∃ record ∈ records, ¬ record.Queues pid

theorem History.served (h : History m records m') (hm : Valid m) {earlier between later : List Record}
    {first second : Record} (hrecords : records = earlier ++ first :: between ++ second :: later)
    (hfirst : first.dispatched = some pid) (hsecond : second.dispatched = some pid)
    (hmem : other ∈ first.before.scheduler.ready) (hne : other ≠ pid) :
    ∃ record ∈ between, record.dispatched = some other ∨ record.Kills other := by
  subst hrecords
  by_contra hnone
  push Not at hnone
  obtain ⟨mid, hleft, hright⟩ := h.split
  obtain ⟨start, hearlier, hmiddle⟩ := hleft.split
  have hstart := hearlier.valid hm
  obtain ⟨hmove, hbetween⟩ : Move first.before first.letter first.after ∧
      History first.after between mid := by
    cases hmiddle with
    | cons hmove hbetween => exact ⟨hmove, hbetween⟩
  have hbefore : Valid first.before := by
    cases hmiddle with
    | cons => exact hstart
  -- The first dispatch takes the actor from the head of the queue, and the other one stays.
  have hqueue := (hmove.lines hbefore).1
  rw [hfirst] at hqueue
  have hsplit := hqueue.of_dispatched
  have hother : other ∈ first.after.scheduler.ready :=
    (List.mem_cons.1 (hsplit ▸ hmem)).resolve_left hne
  have hgone : pid ∉ first.after.scheduler.ready :=
    (List.nodup_cons.1 (hsplit ▸ hbefore.booked.ready)).1
  obtain ⟨hstays, -⟩ := hbetween.queues (hmove.valid hbefore) hother hnone
  -- At the second dispatch the actor is in front of the other one, where it cannot have got.
  have hmid := hleft.valid hm
  obtain ⟨rest, hrest⟩ : ∃ rest, mid.scheduler.ready = pid :: rest := by
    cases hright with
    | cons hmove _ =>
      have hqueue := (@Move.lines ⟨_, _, _⟩ hmove hmid).1
      rw [hsecond] at hqueue
      exact ⟨_, hqueue.of_dispatched⟩
  have hfront : pid ∈ Scheduler.inFront other mid.scheduler.ready := by
    simp [Scheduler.inFront, hrest, hne.symm]
  have hsub := hbetween.inFront (hmove.valid hbefore) hstays
  exact hgone ((inFront_sublist _ _).subset (hsub.subset (List.mem_append_right _ hfront)))

theorem History.order (h : History m records m') (hm : Valid m) :
    ∃ behind,
      m'.scheduler.ready =
        m.scheduler.ready.filter (fun pid => ∀ record ∈ records, record.Queues pid) ++ behind ∧
      ∀ pid ∈ behind, ∃ record ∈ records, ¬ record.Queues pid := by
  induction h with
  | nil => exact ⟨[], by simp, fun _ => nofun⟩
  | @cons m m' m'' letter records hmove _ ih =>
    obtain ⟨joining, hkept, hnew⟩ :=
      (@Move.lines ⟨m, letter, m'⟩ hmove hm).1.order hm.booked.ready
    obtain ⟨behind, hend, hbehind⟩ := ih (hmove.valid hm)
    -- Of the newcomers of this move, those that stay stand behind the ones that were there.
    refine ⟨joining.filter (fun pid => ∀ record ∈ records, record.Queues pid) ++ behind, ?_, ?_⟩
    · have hsame : m.scheduler.ready.filter
            (fun pid => ∀ record ∈ (⟨m, letter, m'⟩ : Record) :: records, record.Queues pid) =
          (m.scheduler.ready.filter (· ∈ m'.scheduler.ready)).filter
            (fun pid => ∀ record ∈ records, record.Queues pid) := by
        rw [List.filter_filter]
        refine List.filter_congr fun pid hpid => ?_
        rw [Bool.eq_iff_iff, Bool.and_eq_true]
        simp only [decide_eq_true_eq, List.forall_mem_cons]
        exact ⟨fun hqueues => ⟨hqueues.2, hqueues.1.2⟩, fun hboth => ⟨⟨hpid, hboth.2⟩, hboth.1⟩⟩
      rw [hsame, hend, hkept, List.filter_append, ← hkept, List.append_assoc]
    · refine List.forall_mem_append.2 ⟨fun pid hpid => ?_, fun pid hpid => ?_⟩
      · refine ⟨⟨m, letter, m'⟩, List.mem_cons_self, fun hqueues => ?_⟩
        exact hnew pid (List.mem_of_mem_filter hpid) hqueues.1
      · obtain ⟨record, hrecord, hnot⟩ := hbehind pid hpid
        exact ⟨record, List.mem_cons_of_mem _ hrecord, hnot⟩

theorem History.roundRobin (h : History m records m') (hm : Valid m) : RoundRobin m records m' where
  served := fun _ _ _ _ _ _ _ hrecords hfirst hsecond => h.served hm hrecords hfirst hsecond
  once := fun pid hstays => by
    have hsub := (List.sublist_append_left _ _).trans (h.inFront hm hstays)
    exact ⟨((inFront_sublist _ _).nodup hm.booked.ready).sublist hsub,
      fun _ hother => hsub.subset hother⟩
  order := h.order hm

/-- Whatever is done to a scheduler is a course of acts, and these consist of moves in which the
same actors are dispatched as the steps answer. In whatever moves a scheduler goes on, those that
wait for their turn are served one after the other. -/
theorem roundRobin_of_history (config : SchedulerConfig) (loader : Loader) (clock : Clock) :
    (∀ commands s, Command.carryOutAll commands (create config loader clock) = some s →
      ∃ entries records, Course (create config loader clock) entries s ∧
        (∀ entry ∈ entries, ∃ command ∈ commands, entry.Of command) ∧
        History ⟨create config loader clock, none⟩ records ⟨s, none⟩ ∧
        records.filterMap Record.dispatched = entries.filterMap (·.act.dispatched)) ∧
      ∀ earlier m records m', History ⟨create config loader clock, none⟩ earlier m →
        History m records m' → RoundRobin m records m' := by
  have hvalid := valid_create config loader clock
  refine ⟨fun commands s hdone => ?_, fun earlier m records m' hearlier hrecords => ?_⟩
  · obtain ⟨entries, hcourse, hof⟩ := course_carryOutAll hdone
    obtain ⟨records, hrecords, hsame⟩ := hcourse.history hvalid
    exact ⟨entries, records, hcourse, hof, hrecords, hsame⟩
  · exact hrecords.roundRobin (hearlier.valid hvalid)

/-- A function that gives way for ever. -/
def yielder : Routine :=
  .loose { Prototype.blank with
    code := #[.importSymbol 0, .call 0, .pop 1, .jump (-3)]
    imports := #[⟨"std-process", "yield"⟩] }

/-- Two actors that give way are dispatched in turn. -/
theorem roundRobin_yielders :
    ∃ (s s' : Scheduler) (records : List Record), s.ready = [⟨1⟩, ⟨2⟩] ∧ s'.ready = [⟨2⟩, ⟨1⟩] ∧
      records.filterMap Record.dispatched = [⟨1⟩, ⟨2⟩, ⟨1⟩] ∧
      RoundRobin ⟨s, none⟩ records ⟨s', none⟩ := by
  have hfacts : ((Command.carryOutAll [.spawn yielder [], .spawn yielder []]
      (create {} .standard .standing)).any fun s => (s.step 5).any fun first =>
        (first.2.step 5).any fun second => (second.2.step 5).any fun third =>
          s.ready == [⟨1⟩, ⟨2⟩] && third.2.ready == [⟨2⟩, ⟨1⟩] && first.1 == .ran ⟨1⟩ &&
            second.1 == .ran ⟨2⟩ && third.1 == .ran ⟨1⟩) = true := by
    decide +kernel
  simp only [Option.any_eq_true, Bool.and_eq_true, beq_iff_eq] at hfacts
  obtain ⟨s, hs, ⟨_, s₁⟩, hfirst, ⟨_, s₂⟩, hsecond, ⟨_, s₃⟩, hthird, hall⟩ := hfacts
  obtain ⟨⟨⟨⟨hready, hready'⟩, rfl⟩, rfl⟩, rfl⟩ := hall
  obtain ⟨hcourse, hserved⟩ := roundRobin_of_history {} .standard .standing
  obtain ⟨entries, earlier, -, -, hearlier, -⟩ := hcourse _ s hs
  -- The three steps are the course of which the moves are taken.
  obtain ⟨records, hrecords, hsame⟩ := ((Performs.step hfirst).course.trans
    ((Performs.step hsecond).course.trans (Performs.step hthird).course)).history
      (hearlier.valid (valid_create _ _ _))
  exact ⟨s, s₃, records, hready, hready', hsame, hserved _ _ _ _ hearlier hrecords⟩

end ActorMachine.Scheduler
