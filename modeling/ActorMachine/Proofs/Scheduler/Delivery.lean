import ActorMachine.Proofs.Machine.Outcomes
import ActorMachine.Proofs.Scheduler.Bookkeeping

/-!
# What a delivery does

* `Meets p payload q`: what a message, if there is one, makes of an actor that is not being run. It
  is dropped, or it is appended to the mailbox, and then it wakes an actor that waits for one.
* `deliver_spec`: a delivery does this to its receiver and nothing to anybody else.
* `Passes`: from one state of the scheduler to another every actor has met at most one message, and
  those that were in the queues are still there in the same order, but for the ones that were woken.
* `turn_settles`: this is all that a turn of an actor means for the others, and what it means for
  the actor itself.
-/

namespace ActorMachine.Scheduler

open Machine

variable {s s' s'' : Scheduler} {hand : Option Pid} {pid receiver : Pid} {p q r : Actor}
  {payload : Payload} {payload? : Option Payload}

/-! ### Actors and messages -/

/-- What a message makes of an actor that is not being run. -/
inductive Meets (p : Actor) : Option Payload → Actor → Prop
  /-- There was no message for it. -/
  | nothing : Meets p none p
  /-- There was no room for the message. -/
  | dropped {payload : Payload} {heap : Heap} (full : ¬ p.HasRoom payload)
      (ages : Heap.Ages 1 ∅ p.heap heap) : Meets p (some payload) { p with heap }
  /-- The message was appended to the mailbox. -/
  | taken {payload : Payload} {heap : Heap} {v : Value} (room : p.HasRoom payload)
      (ages : Heap.Ages 1 ∅ p.heap heap) (backs : heap.Backs v)
      (captured : Payload.capture heap v = .ok payload) (busy : p.awaitsMessage = false) :
      Meets p (some payload) { p with heap, mailbox := p.mailbox.push v }
  /-- The message was appended to the mailbox, and the actor, which has waited for it, was woken. -/
  | woken {payload : Payload} {heap : Heap} {v : Value} (room : p.HasRoom payload)
      (ages : Heap.Ages 1 ∅ p.heap heap) (backs : heap.Backs v)
      (captured : Payload.capture heap v = .ok payload) (waits : p.awaitsMessage = true) :
      Meets p (some payload)
        { p with heap, mailbox := p.mailbox.push v, wait := none, state := .ready }

theorem Meets.pid_eq (h : Meets p payload? q) : q.pid = p.pid := by
  cases h <;> rfl

/-- Only messages that it has waited for wake an actor. -/
theorem Meets.stands (h : Meets p payload? q) :
    (q.state = p.state ∧ q.wait = p.wait) ∨
      (p.awaitsMessage = true ∧ q.state = .ready ∧ q.wait = none) := by
  cases h with
  | nothing | dropped | taken => exact .inl ⟨rfl, rfl⟩
  | woken _ _ _ _ hwaits => exact .inr ⟨hwaits, rfl, rfl⟩

/-- An actor that still waits for a message has got none. -/
theorem Meets.mailbox_eq (h : Meets p payload? q) (hq : q.awaitsMessage = true) :
    p.awaitsMessage = true ∧ q.mailbox = p.mailbox := by
  cases h with
  | nothing => exact ⟨hq, rfl⟩
  | dropped => exact ⟨hq, rfl⟩
  | taken _ _ _ _ hbusy => cases hbusy.symm.trans hq
  | woken => cases hq

/-- An actor that can be delivered to is sound, and its bytes in use lie within the capacities. -/
theorem Booked.live_sound (h : Booked hand s) (hlive : s.actor? pid = some p) :
    p.Sound ∧ p.heap.Fits := by
  obtain ⟨-, -, hreached, -⟩ := h.of_live hlive
  exact ⟨(steady_of_reached hreached).sound, fits_of_reached hreached⟩

/-- An actor that waits for a message is among those that wait. -/
theorem Booked.mem_blocked (h : Booked hand s) (hlive : s.actor? pid = some p)
    (hwaits : p.awaitsMessage = true) : pid ∈ s.blocked := by
  obtain ⟨-, -, -, ⟨-, hwait, -⟩ | ⟨-, -, hlisted⟩⟩ := h.of_live hlive
  · rw [Actor.awaitsMessage, hwait] at hwaits
    split at hwaits <;> simp_all
  · exact hlisted.blocked.2 trivial

/-- A message meets its receiver, which is put at the end of the ready queue if it wakes up. -/
theorem deliver_spec (h : Booked hand s) (hlive : s.actor? receiver = some p) (payload : Payload) :
    ∃ q, Meets p (some payload) q ∧
      ((q.wait = p.wait ∧ s.deliver receiver payload = { s with registry := s.registry.put q }) ∨
        (q.wait = none ∧ receiver ∈ s.blocked ∧ s.deliver receiver payload =
          { s with
            registry := s.registry.put q
            ready := s.ready ++ [receiver]
            blocked := s.blocked.filter (· ≠ receiver) })) := by
  obtain ⟨hsound, hfits⟩ := h.live_sound hlive
  obtain ⟨-, hown, -⟩ := h.of_live hlive
  subst hown
  have hspec := Actor.deliver_takes hsound hfits payload
  -- The receiver is handed out and taken back at once, which does not show.
  have hput : ∀ q : Actor, q.pid = p.pid → (s.registry.lend p.pid).put q = s.registry.put q := by
    intro q hq
    rw [← hq, Registry.put_lend]
  rw [Scheduler.deliver, hlive]
  dsimp only
  cases hrun : Actor.deliver payload p with
  -- A message that cannot be rebuilt is lost, and nobody is told.
  | error fault q =>
    obtain ⟨hfull, heap, rfl, hages⟩ := hspec.of_error hrun
    exact ⟨_, .dropped hfull hages, .inl ⟨rfl, by dsimp only; rw [hput { p with heap } rfl]⟩⟩
  | ok _ q =>
    obtain ⟨hroom, heap, v, rfl, hages, hbacks, hcaptured⟩ := hspec.of_ok hrun
    have hsame : ({ p with heap, mailbox := p.mailbox.push v } : Actor).awaitsMessage =
        p.awaitsMessage := rfl
    dsimp only
    rw [hsame, hput { p with heap, mailbox := p.mailbox.push v } rfl]
    cases hwaits : p.awaitsMessage with
    | false => exact ⟨_, .taken hroom hages hbacks hcaptured hwaits, .inl ⟨rfl, rfl⟩⟩
    | true =>
      have hmem := h.mem_blocked hlive hwaits
      refine ⟨_, .woken hroom hages hbacks hcaptured hwaits, .inr ⟨rfl, hmem, ?_⟩⟩
      have hthere : (s.registry.put { p with heap, mailbox := p.mailbox.push v }).actor? p.pid =
          some { p with heap, mailbox := p.mailbox.push v } := Registry.actor?_put_self _ _
      rw [if_pos rfl, makeReady, if_pos hmem]
      simp only [Scheduler.actor?, hthere]
      -- Of the two states that were put back only the last one shows.
      simp [Registry.put, Table.insert, Table.erase, List.filter_filter]

/-! ### All actors at once -/

/-- What is sent to a pid, if anything is. -/
def letterTo (letter : Option Letter) (pid : Pid) : Option Payload :=
  letter.bind fun l => if l.receiver = pid then some l.payload else none

@[simp]
theorem letterTo_none (pid : Pid) : letterTo none pid = none := rfl

theorem letterTo_self (receiver : Pid) (payload : Payload) :
    letterTo (some ⟨receiver, payload⟩) receiver = some payload :=
  if_pos rfl

theorem letterTo_of_ne (h : receiver ≠ pid) (payload : Payload) :
    letterTo (some ⟨receiver, payload⟩) pid = none :=
  if_neg h

/-- Every actor that is not in hand has met the message that was sent to it, if there was one, and
nothing else. Those that were woken are at the end of the ready queue, and the others are where they
were. -/
structure Passes (hand : Option Pid) (letter : Option Letter) (s s' : Scheduler) : Prop where
  /-- Every actor lives, and it has met the message to it. -/
  meets : ∀ {pid p}, s.actor? pid = some p →
    ∃ q, s'.actor? pid = some q ∧ Meets p (letterTo letter pid) q
  /-- A new one can run and has got no message yet. -/
  newcomers : ∀ {pid q}, hand ≠ some pid → s.actor? pid = none → s'.actor? pid = some q →
    q.state = .ready ∧ q.mailbox.toList = []
  /-- Those that could run are in front of the ready queue. -/
  ready : s.ready <+: s'.ready
  /-- Those that go on waiting are in front of the others that do. -/
  blocked : s.blocked.filter (fun pid => decide (pid ∉ s'.ready)) <+: s'.blocked

/-- Where neither actors nor queues change, nothing has happened to the actors. -/
theorem passes_of_eq (hregistry : s'.registry = s.registry) (hready : s'.ready = s.ready)
    (hblocked : s'.blocked = s.blocked) (hbooked : Booked hand s) : Passes hand none s s' where
  meets {pid p} hp := ⟨p, by rwa [actor?, hregistry], .nothing⟩
  newcomers {pid q} _ hnone hq := by
    rw [actor?, hregistry] at hq
    cases hnone.symm.trans hq
  ready := hready ▸ List.prefix_refl _
  blocked := by
    rw [hready, hblocked, List.filter_eq_self.2 fun pid hmem => ?_]
    -- Nobody is in both queues.
    obtain ⟨p, -, -, -, -, -, -, hlisted⟩ := hbooked.of_mem_blocked hmem
    exact decide_eq_true hlisted.ready.1

/-- What is put back under a pid is found there, and the others are not concerned. -/
theorem actor?_put (p : Actor) (s : Scheduler) (pid : Pid) :
    (s.registry.put p).actor? pid = if pid = p.pid then some p else s.actor? pid :=
  Table.find?_insert _ _ _ _

/-- A delivery passes its message to the receiver. -/
theorem passes_deliver (h : Booked hand s) (receiver : Pid) (payload : Payload) :
    Passes hand (some ⟨receiver, payload⟩) s (s.deliver receiver payload) := by
  cases hlive : s.actor? receiver with
  | none =>
    have hsame : s.deliver receiver payload = s := by
      rw [Scheduler.deliver, hlive]
    rw [hsame]
    have hpasses : Passes hand none s s := passes_of_eq rfl rfl rfl h
    refine ⟨fun {pid p} hp => ⟨p, hp, ?_⟩, hpasses.newcomers, hpasses.ready, hpasses.blocked⟩
    rw [letterTo_of_ne (fun heq => by rw [heq, hp] at hlive; cases hlive)]
    exact .nothing
  | some p =>
    obtain ⟨-, hown, -⟩ := h.of_live hlive
    subst hown
    obtain ⟨q, hmeets, hcases⟩ := deliver_spec h hlive payload
    -- Whatever the queues are, the registry shows the receiver as it is now.
    have hall : ∀ {t : Scheduler} {pid r}, t.registry = s.registry.put q → s.actor? pid = some r →
        ∃ u, t.actor? pid = some u ∧ Meets r (letterTo (some ⟨p.pid, payload⟩) pid) u := by
      intro t pid r ht hr
      rw [actor?, ht, actor?_put, hmeets.pid_eq]
      by_cases heq : pid = p.pid
      · subst heq
        obtain rfl := Option.some.inj (hlive.symm.trans hr)
        rw [if_pos rfl, letterTo_self]
        exact ⟨q, rfl, hmeets⟩
      · rw [if_neg heq, hr, letterTo_of_ne (Ne.symm heq)]
        exact ⟨r, rfl, .nothing⟩
    have hnew : ∀ {t : Scheduler} {pid r}, t.registry = s.registry.put q → s.actor? pid = none →
        t.actor? pid = some r → r.state = .ready ∧ r.mailbox.toList = [] := by
      intro t pid r ht hnone hr
      rw [actor?, ht, actor?_put, hmeets.pid_eq] at hr
      split at hr
      next heq =>
        rw [heq, hlive] at hnone
        cases hnone
      next => cases hnone.symm.trans hr
    -- Those that wait stay in line, but for the receiver if it is woken.
    have hstay : ∀ other ∈ s.blocked, other ∉ s.ready := by
      intro other hmem
      obtain ⟨-, -, -, -, -, -, -, hlisted⟩ := h.of_mem_blocked hmem
      exact hlisted.ready.1
    rcases hcases with ⟨-, hdeliver⟩ | ⟨-, -, hdeliver⟩
    · rw [hdeliver]
      refine ⟨hall rfl, fun _ => hnew rfl, List.prefix_refl _, ?_⟩
      rw [List.filter_eq_self.2 fun other hmem => decide_eq_true (hstay other hmem)]
    · rw [hdeliver]
      refine ⟨hall rfl, fun _ => hnew rfl, List.prefix_append _ _, ?_⟩
      have hfilter : s.blocked.filter (fun other => decide (other ∉ s.ready ++ [p.pid])) =
          s.blocked.filter (· ≠ p.pid) := by
        refine List.filter_congr fun other hmem => ?_
        simp [hstay other hmem]
      rw [hfilter]

/-- A new actor is nobody that was there. -/
theorem passes_spawnCallable (h : Booked hand s) {callee : Payload} {args : List Payload}
    {child : Pid} (hspawn : spawnCallable callee args s = .ok child s') : Passes hand none s s' := by
  obtain ⟨rfl, p, hstart, rfl⟩ := spawnCallable_eq_ok hspawn
  obtain ⟨monitor, journal, hnotify⟩ := notify_spec (.started s.registry.nextPid)
    { s with registry := s.registry.enroll p, ready := s.ready ++ [s.registry.nextPid] }
  obtain ⟨-, hlisted⟩ := h.of_nextPid
  rw [hnotify]
  refine ⟨fun {pid q} hq => ⟨q, ?_, .nothing⟩, fun {pid q} _ hnone hq => ?_,
    List.prefix_append _ _, ?_⟩
  · show (s.registry.enroll p).actor? pid = some q
    rw [Registry.actor?_enroll, if_neg]
    -- The pid of the new actor was not given out, so nobody who is alive has it.
    · exact hq
    · rintro rfl
      obtain ⟨-, -, -, ⟨-, -, hlisted'⟩ | ⟨-, -, hlisted'⟩⟩ := h.of_live hq
      · exact hlisted.ready.1 (hlisted'.ready.2 trivial)
      · exact hlisted.blocked.1 (hlisted'.blocked.2 trivial)
  · change (s.registry.enroll p).actor? pid = some q at hq
    rw [Registry.actor?_enroll] at hq
    split at hq
    next =>
      obtain rfl := Option.some.inj hq
      have hfresh := Actor.sound_create s.registry.nextPid s.config.actor
      obtain ⟨-, ⟨-, hstate, -⟩, -⟩ := (Actor.start_spec hfresh callee args).of_ok hstart
      exact ⟨hstate, (Actor.memory_of_start hstart).2⟩
    next => cases hnone.symm.trans hq
  · show s.blocked.filter (fun other => decide (other ∉ s.ready ++ [s.registry.nextPid])) <+: _
    rw [List.filter_eq_self.2 fun other hmem => ?_]
    obtain ⟨-, -, -, -, -, -, -, hlisted'⟩ := h.of_mem_blocked hmem
    have hne : other ≠ s.registry.nextPid := by
      rintro rfl
      exact hlisted.blocked.1 hmem
    have hready : other ∉ s.ready := hlisted'.ready.1
    simp [hready, hne]

/-! ### Turns -/

/-- What an actor sends with its next instruction. -/
def letterOf (s : Scheduler) (p : Actor) : Option Letter :=
  match (advance s.loader s.clock.now p).1 with
  | some (.send receiver payload) => some ⟨receiver, payload⟩
  | _ => none

/-- What becomes of the memory of an actor, be it being run or not, for a message to it. -/
inductive Takes (p : Actor) : Option Payload → Actor → Prop
  /-- There was no message, and the mailbox is the same. -/
  | nothing {q : Actor} (ages : Heap.Ages 1 ∅ p.heap q.heap) (mailbox : q.mailbox = p.mailbox) :
      Takes p none q
  /-- The message was dropped. -/
  | dropped {q : Actor} {payload : Payload} (full : ¬ p.HasRoom payload)
      (ages : Heap.Ages 1 ∅ p.heap q.heap) (mailbox : q.mailbox = p.mailbox) :
      Takes p (some payload) q
  /-- The message was appended to the mailbox. -/
  | taken {q : Actor} {payload : Payload} {v : Value} (room : p.HasRoom payload)
      (ages : Heap.Ages 1 ∅ p.heap q.heap) (mailbox : q.mailbox = p.mailbox.push v)
      (backs : q.heap.Backs v) (captured : Payload.capture q.heap v = .ok payload) :
      Takes p (some payload) q

theorem Takes.of_eq (hfits : p.heap.Fits) (hheap : q.heap = p.heap)
    (hmailbox : q.mailbox = p.mailbox) : Takes p none q := by
  refine .nothing ?_ hmailbox
  rw [hheap]
  exact .same hfits

theorem Takes.ages (h : Takes p payload? q) : Heap.Ages 1 ∅ p.heap q.heap := by
  cases h with
  | nothing hages | dropped _ hages | taken _ hages => exact hages

theorem Meets.takes (h : Meets p payload? q) (hfits : p.heap.Fits) : Takes p payload? q := by
  cases h with
  | nothing => exact .of_eq hfits rfl rfl
  | dropped hfull hages => exact .dropped hfull hages rfl
  | taken hroom hages hbacks hcaptured => exact .taken hroom hages rfl hbacks hcaptured
  | woken hroom hages hbacks hcaptured => exact .taken hroom hages rfl hbacks hcaptured

/-- A message of an actor to itself is delivered like any other. -/
theorem takes_deliver (hp : p.Sound) (hfits : p.heap.Fits) (payload : Payload) :
    Ensures (Actor.deliver payload) p
      (fun _ q => q = { p with heap := q.heap, mailbox := q.mailbox } ∧ Takes p (some payload) q)
      (fun _ q => q = { p with heap := q.heap, mailbox := q.mailbox } ∧ Takes p (some payload) q) := by
  refine (Actor.deliver_takes hp hfits payload).mono ?_ ?_
  · rintro _ _ ⟨hroom, heap, v, rfl, hages, hbacks, hcaptured⟩
    exact ⟨rfl, .taken hroom hages rfl hbacks hcaptured⟩
  · rintro _ _ ⟨hfull, heap, rfl, hages⟩
    exact ⟨rfl, .dropped hfull hages rfl⟩

/-- A new actor that cannot be started is a matter of the one that has asked for it. -/
theorem takes_failure {fault : Fault} {guarded : Bool} (hp : Steady p) (hfits : p.heap.Fits) :
    Ensures (if guarded then Actor.failProtectedCall fault else Actor.unwind fault) p
      (fun _ q => q.pid = p.pid ∧ Takes p none q) (fun _ q => q.pid = p.pid ∧ Takes p none q) := by
  cases guarded with
  | true =>
    refine ((Actor.failProtectedCall_spec hp.sound fault).and
      (Actor.tends_failProtectedCall hp.sound hfits fault)).mono ?_ ?_
    · rintro _ _ ⟨⟨-, heap, stack, d, rfl, -⟩, hages⟩
      exact ⟨rfl, .nothing hages.heap rfl⟩
    · rintro _ _ ⟨⟨rfl, -⟩, hages⟩
      exact ⟨rfl, .nothing hages.heap rfl⟩
  | false =>
    refine ((Actor.unwind_spec hp.sound hp.room_guarded fault).and
      (Actor.tends_unwind hp.sound hfits fault)).mono ?_ ?_
    · rintro _ _ ⟨⟨inner, f, outer, -, -, -, heap, stack, d, rfl, -⟩, hages⟩
      exact ⟨rfl, .nothing hages.heap rfl⟩
    · rintro _ _ ⟨⟨-, rfl, -⟩, hages⟩
      exact ⟨rfl, .nothing hages.heap rfl⟩

/-- What a turn does for an actor that has executed its instruction and is `r` now: to the actor, to
the others, and to the one that it sends to. -/
structure Settles (letter : Option Letter) (s : Scheduler) (r : Actor) (s' : Scheduler) (q : Actor)
    (v : Verdict) : Prop where
  /-- It is the same actor, and it takes what it has sent to itself. -/
  takes : q.pid = r.pid ∧ Takes r (letterTo letter r.pid) q
  /-- The others take what was sent to them. -/
  passes : Passes (some r.pid) letter s s'
  /-- One that sends goes on, and all that may change about it is what it has sent to itself. -/
  sender : ∀ l, letter = some l → v = .resume ∧ q = { r with heap := q.heap, mailbox := q.mailbox } ∧
    (l.receiver ≠ r.pid → q = r)
  /-- If there is nobody to receive what is sent, nothing changes. -/
  nobody : ∀ l, letter = some l → l.receiver ≠ r.pid → s.actor? l.receiver = none → s' = s
  /-- One that waits for a message has none left to look at. -/
  rest : v = .suspend → q.awaitsMessage = true → q.mailbox.rest = []

/-- Where nothing is sent and nothing happens to the others, only the actor itself is looked at. -/
theorem Settles.of_takes {v : Verdict} (htakes : q.pid = r.pid ∧ Takes r none q)
    (hpasses : Passes (some r.pid) none s s')
    (hrest : v = .suspend → q.awaitsMessage = true → q.mailbox.rest = []) :
    Settles none s r s' q v :=
  ⟨htakes, hpasses, nofun, nofun, hrest⟩

/-- Whatever has gone wrong, it is a fault of the actor that has asked. -/
theorem settles_failure {fault : Fault} {guarded : Bool} {v : Verdict} (hr : Steady r)
    (hfits : r.heap.Fits) (hpasses : Passes (some r.pid) none s t)
    (h : (match (if guarded then Actor.failProtectedCall fault else Actor.unwind fault) r with
      | .ok _ p => (t, p, Verdict.resume)
      | .error fault p => (t, p, .stop (.error fault))) = (s', q, v)) :
    Settles none s r s' q v := by
  have hspec := @takes_failure r fault guarded hr hfits
  split at h
  next p hrun =>
    obtain ⟨rfl, rfl, rfl⟩ : _ ∧ _ ∧ _ := by simpa using h
    exact .of_takes (hspec.of_ok hrun) hpasses (by simp)
  next fault' p hrun =>
    obtain ⟨rfl, rfl, rfl⟩ : _ ∧ _ ∧ _ := by simpa using h
    exact .of_takes (hspec.of_error hrun) hpasses (by simp)

/-- What was asked for when the actor was executed is settled. -/
theorem startRequested_settles (hr : Steady r) (hfits : r.heap.Fits)
    (hbooked : Booked (some r.pid) s)
    (callee : Payload) (args : List Payload) (guarded : Bool) {v : Verdict}
    (h : s.startRequested callee args guarded r = (s', q, v)) : Settles none s r s' q v := by
  rw [startRequested] at h
  cases hspawn : spawnCallable callee args s with
  | error fault t =>
    obtain rfl := spawnCallable_eq_error hspawn
    rw [hspawn] at h
    exact settles_failure hr hfits (passes_of_eq rfl rfl rfl hbooked) h
  | ok child t =>
    have hpasses := passes_spawnCallable hbooked hspawn
    rw [hspawn] at h
    -- The pid of the child takes the place of the value on top of the stack.
    have hset : Ensures (Actor.onStack (Stack.setAt (-1) (.pid child))) r
        (fun _ q => q.pid = r.pid ∧ q.heap = r.heap ∧ q.mailbox = r.mailbox)
        (fun _ q => q = r) := by
      rw [Actor.ensures_onStack, Stack.ensures_setAt]
      refine ⟨fun n _ => ?_, fun _ _ => rfl⟩
      rw [Stack.ensures_setSlot]
      exact ⟨fun _ => ⟨rfl, rfl, rfl⟩, fun _ => rfl⟩
    cases hrun : Actor.onStack (Stack.setAt (-1) (.pid child)) r with
    | ok _ u =>
      obtain ⟨hpid, hheap, hmailbox⟩ := hset.of_ok hrun
      simp only [hrun] at h
      obtain ⟨rfl, rfl, rfl⟩ : _ ∧ _ ∧ _ := by simpa using h
      exact .of_takes ⟨hpid, .of_eq hfits hheap hmailbox⟩ hpasses (by simp)
    | error fault u =>
      obtain rfl := hset.of_error hrun
      simp only [hrun] at h
      exact settles_failure hr hfits hpasses h

/-- The actor in hand is not among the others, so what it sends to itself is no matter of theirs. -/
theorem passes_own (h : Booked (some pid) s) (payload : Payload) :
    Passes (some pid) (some ⟨pid, payload⟩) s s := by
  have hpasses : Passes (some pid) none s s := passes_of_eq rfl rfl rfl h
  refine ⟨fun {other p} hp => ⟨p, hp, ?_⟩, hpasses.newcomers, hpasses.ready, hpasses.blocked⟩
  rw [letterTo_of_ne]
  · exact .nothing
  · rintro rfl
    have hgone : s.actor? pid = none := h.of_hand.1
    cases hgone.symm.trans hp

/-- An actor that has sent something to itself has taken it, and that is all. -/
theorem settles_own (hbooked : Booked (some r.pid) s)
    (hsame : q = { r with heap := q.heap, mailbox := q.mailbox })
    (htakes : Takes r (some payload) q) : Settles (some ⟨r.pid, payload⟩) s r s q .resume := by
  have hpid : q.pid = r.pid := by rw [hsame]
  refine ⟨⟨hpid, by rwa [letterTo_self]⟩, passes_own hbooked payload,
    fun l hl => ⟨rfl, hsame, fun hother => ?_⟩, fun l hl hother => ?_, by simp⟩
  -- The letter has no other receiver than the actor itself.
  all_goals
    obtain rfl := Option.some.inj hl
    exact absurd rfl hother

/-- A message is delivered to its receiver, which may be the actor that sends it. That one is in hand
and not in the registry, so it is given the message by hand. -/
theorem send_settles (hr : Steady r) (hfits : r.heap.Fits) (hbooked : Booked (some r.pid) s)
    (receiver : Pid) (payload : Payload) {v : Verdict}
    (h : s.settle (.send receiver payload) r = (s', q, v)) :
    Settles (some ⟨receiver, payload⟩) s r s' q v := by
  simp only [settle] at h
  split at h
  next hown =>
    subst hown
    have htakes := takes_deliver hr.sound hfits payload
    -- Whether there was room for the message or not, the actor goes on.
    cases hrun : Actor.deliver payload r with
    | ok _ u =>
      rw [hrun] at h
      obtain ⟨rfl, rfl, rfl⟩ : _ ∧ _ ∧ _ := by simpa using h
      exact settles_own hbooked (htakes.of_ok hrun).1 (htakes.of_ok hrun).2
    | error fault u =>
      rw [hrun] at h
      obtain ⟨rfl, rfl, rfl⟩ : _ ∧ _ ∧ _ := by simpa using h
      exact settles_own hbooked (htakes.of_error hrun).1 (htakes.of_error hrun).2
  next hother =>
    obtain ⟨rfl, rfl, rfl⟩ : _ ∧ _ ∧ _ := by simpa using h
    refine ⟨⟨rfl, ?_⟩, passes_deliver hbooked receiver payload,
      fun _ _ => ⟨rfl, rfl, fun _ => rfl⟩, ?_, by simp⟩
    · rw [letterTo_of_ne hother]
      exact .of_eq hfits rfl rfl
    · rintro l hl - hnone
      obtain rfl := Option.some.inj hl
      rw [Scheduler.deliver, hnone]

/-- What an actor asks for with its instruction is settled. -/
theorem turn_settles (hp : Steady p) (hfits : p.heap.Fits) (hbooked : Booked (some p.pid) s)
    {v : Verdict} (h : s.turn p = (s', q, v)) :
    Settles (letterOf s p) { s with clock := s.clock.tick } (advance s.loader s.clock.now p).2
      s' q v := by
  have hadvance := advance_spec hp s.loader s.clock.now
  have hages := (advance_ages hp hfits s.loader s.clock.now).heap.fits
  rw [turn] at h
  rw [letterOf]
  generalize advance s.loader s.clock.now p = a at hadvance hages h
  obtain ⟨o, r⟩ := a
  have hleads := hadvance.leads
  have hr := hleads.steady hp
  have hpid : r.pid = p.pid := (hleads.same hp).1
  -- From here on the actor is the one that has executed its instruction.
  rw [← hpid] at hbooked
  have hclock := (hbooked.atClock s.clock.tick).booked
  have hkeep : ∀ {t : Scheduler}, t.registry = s.registry → t.ready = s.ready →
      t.blocked = s.blocked → Passes (some r.pid) none { s with clock := s.clock.tick } t :=
    fun hregistry hready hblocked => passes_of_eq hregistry hready hblocked hclock
  have hself : r.pid = r.pid ∧ Takes r none r := ⟨rfl, .of_eq hages rfl rfl⟩
  cases o with
  | none =>
    obtain ⟨rfl, rfl, rfl⟩ : _ ∧ _ ∧ _ := by simpa using h
    exact .of_takes hself (hkeep rfl rfl rfl) (by simp)
  | some o =>
    cases o with
    | send receiver payload => exact send_settles hr hages hclock receiver payload h
    | newActor callee args guarded =>
      exact startRequested_settles hr hages hclock callee args guarded h
    | breakpoint ip =>
      obtain ⟨rfl, rfl, rfl⟩ : _ ∧ _ ∧ _ := by simpa [settle] using h
      obtain ⟨monitor, journal, hnotify⟩ :=
        notify_spec (.breakpoint r.pid ip) { s with clock := s.clock.tick }
      rw [hnotify]
      exact .of_takes hself (hkeep rfl rfl rfl) (by simp)
    -- Of those that leave the run loop only one that blocks waits for a message.
    | giveWay =>
      obtain ⟨rfl, rfl, rfl⟩ : _ ∧ _ ∧ _ := by simpa [settle] using h
      refine .of_takes ⟨rfl, .of_eq hages rfl rfl⟩ (hkeep rfl rfl rfl) fun _ hwaits => ?_
      simp [Actor.awaitsMessage] at hwaits
    | block deadline =>
      obtain ⟨rfl, rfl, rfl⟩ : _ ∧ _ ∧ _ := by simpa [settle] using h
      refine .of_takes ⟨rfl, .of_eq hages rfl rfl⟩ (hkeep rfl rfl rfl) fun _ _ => ?_
      cases hadvance with
      | executed hstep =>
        show r.mailbox.rest = []
        exact rest_of_block hstep
    | sleep deadline =>
      obtain ⟨rfl, rfl, rfl⟩ : _ ∧ _ ∧ _ := by simpa [settle] using h
      refine .of_takes ⟨rfl, .of_eq hages rfl rfl⟩ (hkeep rfl rfl rfl) fun _ hwaits => ?_
      simp [Actor.awaitsMessage] at hwaits
    | exit result =>
      simp only [settle] at h
      split at h
      all_goals
        obtain ⟨rfl, rfl, rfl⟩ : _ ∧ _ ∧ _ := by simpa using h
        exact .of_takes hself (hkeep rfl rfl rfl) (by simp)
    | trap fault =>
      obtain ⟨rfl, rfl, rfl⟩ : _ ∧ _ ∧ _ := by simpa [settle] using h
      exact .of_takes hself (hkeep rfl rfl rfl) (by simp)

end ActorMachine.Scheduler
