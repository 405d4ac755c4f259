import ActorMachine.Proofs.Machine.Deadlines
import ActorMachine.Proofs.Machine.Upkeep

/-!
# Suspended receives

A receive that has no message to bind hands control back and is tried again later. Until a message
is there nobody can tell how often it was.

* `AtReceive`: the next instruction of an actor is a receive with its timeout on top of the stack.
  `atReceive_of_block`: this is where an actor stands that waits, and all that has changed is that
  its deadline may be fixed now.
* `Meanwhile`: what can happen to it then, and which messages it gets. `Lingers` is what stays:
  calls, stack, cursor and deadline, with the new messages behind the cursor in the order in which
  they came.
* `suspends_of_reached`: so each further attempt waits until the same deadline and changes nothing,
  and the first one after a delivery binds the first new message.
-/

namespace ActorMachine.Machine

variable {config : ActorConfig} {p q r : Actor} {loader : Loader} {now : Time} {f : Frame}
  {outer : List Frame} {below : List Value} {due timeout : Option Time} {target : Nat}
  {payloads : List Payload}

/-! ### Standing at a receive -/

/-- The next instruction of an actor is a receive, and its timeout is on top of the stack. -/
structure AtReceive (p : Actor) (f : Frame) (outer : List Frame) (below : List Value)
    (timeout : Option Time) (target : Nat) : Prop where
  /-- The innermost frame stands at the receive. -/
  frames : p.frames = f :: outer
  /-- This is where it jumps. -/
  code : ∃ displacement, f.routine.prototype.code[f.ip]? = some (.receive displacement) ∧
    jumpTarget f.ip displacement f.routine.prototype.code.size = .ok target
  /-- There is a value on top of the stack. -/
  top : ∃ v, p.stack.toList = below ++ [v]
  /-- This is the timeout that it stands for, if it is one. -/
  timeout : receiveTimeout p.stack = .ok timeout

/-- Frames and stack are all that matters. -/
theorem AtReceive.congr (h : AtReceive p f outer below timeout target)
    (hframes : q.frames = p.frames) (hstack : q.stack = p.stack) :
    AtReceive q f outer below timeout target where
  frames := hframes.trans h.frames
  code := h.code
  top := hstack ▸ h.top
  timeout := hstack ▸ h.timeout

/-- Without a message a receive waits if it is not too late. -/
theorem AtReceive.step_of_rest_nil (h : AtReceive p f outer below timeout target)
    (hrest : p.mailbox.rest = []) (loader : Loader) (hearly : Before now (dueAt p now timeout)) :
    step loader now p = .ok (some (.block (dueAt p now timeout)))
      { p with receiveDeadline := (dueAt p now timeout).or p.receiveDeadline } := by
  obtain ⟨displacement, hcode, htarget⟩ := h.code
  obtain ⟨_, _, hrun, ⟨hlate, -⟩ | ⟨-, rfl, rfl⟩⟩ :=
    (receive_spec_of_rest_nil h.frames h.timeout hrest now htarget).exists_ok
  · exact absurd hearly hlate
  · exact (step_eq_execute h.frames hcode loader now).trans hrun

/-- A message is bound at any time, and takes the place of the timeout. -/
theorem AtReceive.step_of_rest_cons (h : AtReceive p f outer below timeout target)
    (hp : p.Sound) {v : Value} {rest : List Value} (hrest : p.mailbox.rest = v :: rest)
    (loader : Loader) (now : Time) :
    ∃ stack, stack.toList = below ++ [v] ∧ step loader now p = .ok none
      { p with
        frames := { f with ip := f.ip + 1 } :: outer
        stack
        mailbox := { p.mailbox with
          cursor := p.mailbox.cursor + 1
          bound := some p.mailbox.cursor } } := by
  obtain ⟨displacement, hcode, htarget⟩ := h.code
  obtain ⟨top, hstack⟩ := h.top
  obtain ⟨_, _, hrun, rfl, hends⟩ :=
    (receive_spec_of_message h.frames hstack h.timeout hp hrest now htarget).exists_ok
  have hstep := (step_eq_execute h.frames hcode loader now).trans hrun
  cases hends with
  | @binds w rest' stack hmessage htop =>
    obtain ⟨rfl, -⟩ := List.cons.inj (hrest.symm.trans hmessage)
    exact ⟨stack, htop, hstep⟩
  | expires hnone =>
    rw [hnone] at hrest
    cases hrest

/-- A receive that waits has a timeout, a place to jump to and no message. -/
theorem receive_spec_of_block (p : Actor) (now : Time) (ip : Nat) (displacement : Int32)
    (length : Nat) :
    Ensures (receive now ip displacement length) p
      (fun o _ => ∀ due, o = some (.block due) → ∃ timeout target,
        receiveTimeout p.stack = .ok timeout ∧ jumpTarget ip displacement length = .ok target ∧
          p.mailbox.rest = [])
      (fun _ _ => True) := by
  rw [receive_eq, ensures_bind, ensures_get, ensures_bind, ensures_ofExcept]
  refine ⟨fun timeout htimeout => ?_, fun _ _ => trivial⟩
  rw [ensures_bind, ensures_ofExcept]
  refine ⟨fun target htarget => ?_, fun _ _ => trivial⟩
  rw [ensures_bind]
  refine Ensures.mono (takeMessage?_exact p) ?_ fun _ _ => False.elim
  rintro _ _ (⟨v, rest, -, rfl, rfl⟩ | ⟨hrest, rfl, rfl⟩)
  · refine (bindMessage_spec _ v).mono (fun o _ hnone due hblock => ?_) fun _ _ => id
    cases hnone.symm.trans hblock
  · exact (ensures_result _ _).mono (fun _ _ _ _ _ => ⟨timeout, target, htimeout, htarget, hrest⟩)
      fun _ _ _ => trivial

/-- An actor that waits stands at a receive without a message, and it is not too late. All that has
changed is that the deadline may be fixed now. -/
theorem atReceive_of_block (h : step loader now p = .ok (some (.block due)) q) :
    ∃ f outer below timeout target, AtReceive p f outer below timeout target ∧
      p.mailbox.rest = [] ∧ due = dueAt p now timeout ∧ Before now due ∧
      q = { p with receiveDeadline := due.or p.receiveDeadline } := by
  obtain ⟨f, outer, displacement, hframes, hcode, hreceive⟩ := receive_of_block h
  have hat := Actor.atIp_of_frames hframes (f.ip + 1)
  rw [hat] at hreceive
  obtain ⟨timeout, target, htimeout, htarget, hrest⟩ :=
    (receive_spec_of_block _ now f.ip displacement _).of_ok hreceive due rfl
  obtain ⟨below, v, htop⟩ := exists_top_of_receiveTimeout htimeout
  have hhere : AtReceive p f outer below timeout target :=
    ⟨hframes, ⟨displacement, hcode, htarget⟩, ⟨v, htop⟩, htimeout⟩
  have hearly : Before now (dueAt p now timeout) := by
    intro deadline hdeadline
    obtain ⟨delay, rfl, rfl⟩ := Option.map_eq_some_iff.1 hdeadline
    -- Otherwise it would have timed out.
    by_contra hlate
    have hnone : FindsNone p f outer target delay :=
      ⟨hframes, ⟨displacement, hcode, htarget⟩, htimeout, hrest⟩
    rw [(step_of_findsNone hnone loader now).1 (Nat.not_lt.1 hlate)] at h
    cases h
  have hstep := hhere.step_of_rest_nil hrest loader hearly
  rw [h] at hstep
  obtain ⟨hblock, rfl⟩ := EStateM.Result.ok.inj hstep
  obtain rfl := Outcome.block.inj (Option.some.inj hblock)
  exact ⟨f, outer, below, timeout, target, hhere, hrest, rfl, hearly, rfl⟩

/-! ### What happens meanwhile -/

/-- What has happened to a suspended actor, and the messages that it has got since, the first one
first. It is tried again before its deadline only, and not after it has got a message. -/
inductive Meanwhile (due : Option Time) (q : Actor) : List Payload → Actor → Prop
  /-- Nothing has happened. -/
  | suspended : Meanwhile due q [] q
  /-- It was tried again. -/
  | tried {r : Actor} {loader : Loader} {now : Time} (before : Meanwhile due q [] r)
      (early : Before now due) : Meanwhile due q [] ((Operation.step loader now).after r)
  /-- A message was delivered. -/
  | delivered {r s : Actor} {payloads : List Payload} {payload : Payload}
      (before : Meanwhile due q payloads r) (taken : Actor.deliver payload r = .ok () s) :
      Meanwhile due q (payloads ++ [payload]) s
  /-- There was no room for a message. -/
  | refused {r s : Actor} {payloads : List Payload} {payload : Payload} {fault : Fault}
      (before : Meanwhile due q payloads r) (dropped : Actor.deliver payload r = .error fault s) :
      Meanwhile due q payloads s
  /-- Its garbage was collected. -/
  | collected {r : Actor} {payloads : List Payload} (before : Meanwhile due q payloads r) :
      Meanwhile due q payloads (Operation.collectGarbage.after r)
  /-- The scheduler has noted where it stands. -/
  | noted {r : Actor} {payloads : List Payload} (state : ActorState) (wait : Option Wait)
      (before : Meanwhile due q payloads r) :
      Meanwhile due q payloads ((Operation.stand state wait).after r)

/-- An actor stands at a receive that has found no message, and goes by this deadline from now
on. -/
structure Suspended (q : Actor) (f : Frame) (outer : List Frame) (below : List Value)
    (timeout : Option Time) (target : Nat) (due : Option Time) : Prop where
  /-- It stands at the receive. -/
  here : AtReceive q f outer below timeout target
  /-- The scan has passed all messages. -/
  scanned : q.mailbox.toList.length = q.mailbox.cursor
  /-- The deadline is kept if there is one. -/
  fixed : due.or q.receiveDeadline = q.receiveDeadline
  /-- It does not depend on the time any more. -/
  always : ∀ now, dueAt q now timeout = due

/-- This is how an actor is left that waits for a message. -/
theorem suspended_of_block (hreached : Reached config p)
    (h : step loader now p = .ok (some (.block due)) q) :
    ∃ f outer below timeout target, Suspended q f outer below timeout target due := by
  obtain ⟨f, outer, below, timeout, target, hhere, hrest, rfl, -, rfl⟩ := atReceive_of_block h
  refine ⟨f, outer, below, timeout, target, hhere.congr rfl rfl, ?_, ?_, fun later => ?_⟩
  · -- The mailbox is a zipper with nothing to come.
    obtain ⟨ops, hmailbox⟩ := mailbox_of_reached hreached
    obtain ⟨-, hshows⟩ := Mailbox.shows_runAll Mailbox.shows_empty ops
    have hshows : p.mailbox.Shows (Zipper.afterAll ops).2 := hmailbox ▸ hshows
    show p.mailbox.toList.length = p.mailbox.cursor
    rw [hshows.cursor_eq, hshows.toList_eq, ← hshows.rest_eq, hrest, List.append_nil]
  · cases timeout with
    | none => rfl
    | some delay => rfl
  · cases timeout with
    | none => rfl
    | some delay => rfl

/-- What stays as it was when an actor was suspended, with the messages that it has got since. -/
structure Lingers (config : ActorConfig) (q : Actor) (payloads : List Payload) (r : Actor) :
    Prop where
  /-- It is reached like every other state. -/
  reached : Reached config r
  /-- The same calls are in progress. -/
  frames : r.frames = q.frames
  /-- The stack is the same. -/
  stack : r.stack = q.stack
  /-- The deadline is the same. -/
  receiveDeadline : r.receiveDeadline = q.receiveDeadline
  /-- The scan stands where it stood. -/
  cursor : r.mailbox.cursor = q.mailbox.cursor
  /-- The new messages follow the old ones, and capture to what was delivered. -/
  messages : ∃ vs, r.mailbox.toList = q.mailbox.toList ++ vs ∧
    vs.map (Payload.capture r.heap) = payloads.map .ok

theorem lingers_refl (hq : Reached config q) : Lingers config q [] q where
  reached := hq
  frames := rfl
  stack := rfl
  receiveDeadline := rfl
  cursor := rfl
  messages := ⟨[], (List.append_nil _).symm, rfl⟩

/-- It stays so if garbage goes and messages come. -/
theorem Lingers.next {s : Actor} (h : Lingers config q payloads r) (hs : Reached config s)
    {heap : Heap} {mailbox : Mailbox} {state : ActorState} {wait : Option Wait}
    (heq : s = { r with heap, mailbox, state, wait })
    (hages : Heap.Ages 1 ∅ r.heap s.heap) (hcursor : mailbox.cursor = r.mailbox.cursor)
    {new : List Value} {payloads' : List Payload}
    (hmessages : mailbox.toList = r.mailbox.toList ++ new)
    (hnew : new.map (Payload.capture s.heap) = payloads'.map .ok) :
    Lingers config q (payloads ++ payloads') s := by
  obtain ⟨vs, hvs, hcaptured⟩ := h.messages
  have hsound := (steady_of_reached h.reached).sound
  have hsound' := (steady_of_reached hs).sound
  have hmailbox : s.mailbox = mailbox := congrArg Actor.mailbox heq
  -- The messages that were there before are still there, and so is what they refer to.
  have hkept : vs.map (Payload.capture s.heap) = vs.map (Payload.capture r.heap) := by
    refine List.map_congr_left fun v hv => ?_
    have hbefore : v ∈ r.roots := by
      rw [Actor.roots, hvs]
      simp [hv]
    have hafter : v ∈ s.roots := by
      rw [Actor.roots, hmailbox, hmessages, hvs]
      simp [hv]
    exact Payload.capture_eq_of_ages hsound.heap hsound'.heap hages (by decide)
      (hsound.roots v hbefore) (hsound'.roots v hafter) fun _ _ => id
  refine
    { reached := hs
      frames := by rw [heq, ← h.frames]
      stack := by rw [heq, ← h.stack]
      receiveDeadline := by rw [heq, ← h.receiveDeadline]
      cursor := by rw [hmailbox, hcursor, h.cursor]
      messages := ⟨vs ++ new, ?_, ?_⟩ }
  · rw [hmailbox, hmessages, hvs, List.append_assoc]
  · rw [List.map_append, List.map_append, hkept, hcaptured, hnew]

section

variable (hq : Suspended q f outer below timeout target due)

include hq

/-- The receive has the new messages to look at. -/
theorem Suspended.rest_eq {vs : List Value} (h : Lingers config q payloads r)
    (hvs : r.mailbox.toList = q.mailbox.toList ++ vs) : r.mailbox.rest = vs := by
  rw [Mailbox.rest, hvs, h.cursor, ← hq.scanned, List.drop_left]

/-- Without a message it waits as before. -/
theorem Suspended.blocks (h : Lingers config q [] r) (loader : Loader)
    (hearly : Before now due) : step loader now r = .ok (some (.block due)) r := by
  obtain ⟨vs, hvs, hnone⟩ := h.messages
  obtain rfl : vs = [] := List.map_eq_nil_iff.1 hnone
  -- The deadline was fixed when the actor was suspended, so the time does not matter any more.
  have hdue : dueAt r now timeout = due := by
    rw [← hq.always now, dueAt, dueAt]
    congr 1
    funext delay
    rw [dueBy, dueBy, h.receiveDeadline]
  have hstep := (hq.here.congr h.frames h.stack).step_of_rest_nil (hq.rest_eq h hvs) loader
    (hdue ▸ hearly)
  rw [hdue, h.receiveDeadline, hq.fixed, ← h.receiveDeadline] at hstep
  exact hstep

/-- All that can happen meanwhile leaves the actor where it was. -/
theorem Suspended.lingers (hreached : Reached config q) (h : Meanwhile due q payloads r) :
    Lingers config q payloads r := by
  -- An attempt is where the induction matters: no message is there yet, so it waits as before.
  induction h with
  | suspended => exact lingers_refl hreached
  | @tried r loader now _ hearly ih =>
    have hafter : (Operation.step loader now).after r = r := by
      rw [Operation.after, Operation.run, hq.blocks ih loader hearly]
    rwa [hafter]
  | @delivered r s payloads payload _ htaken ih =>
    have hr := steady_of_reached ih.reached
    have hs : Reached config s := by
      have hafter : (Operation.deliver payload).after r = s := by
        simp only [Operation.after, Operation.run, bind, EStateM.bind, htaken]
        rfl
      exact hafter ▸ .next (.deliver payload) ih.reached
    obtain ⟨-, heap, v, rfl, hages, -, hcaptured⟩ :=
      (Actor.deliver_takes hr.sound (fits_of_reached ih.reached) payload).of_ok htaken
    refine ih.next hs rfl hages rfl (Mailbox.toList_push v r.mailbox) ?_
    rw [List.map_singleton, List.map_singleton]
    exact congrArg (fun result => [result]) hcaptured
  | @refused r s payloads payload fault _ hdropped ih =>
    have hr := steady_of_reached ih.reached
    have hs : Reached config s := by
      have hafter : (Operation.deliver payload).after r = s := by
        simp only [Operation.after, Operation.run, bind, EStateM.bind, hdropped]
      exact hafter ▸ .next (.deliver payload) ih.reached
    obtain ⟨-, heap, rfl, hages⟩ :=
      (Actor.deliver_takes hr.sound (fits_of_reached ih.reached) payload).of_error hdropped
    exact List.append_nil payloads ▸ ih.next hs rfl hages rfl (List.append_nil _).symm rfl
  | @collected r payloads _ ih =>
    have hr := steady_of_reached ih.reached
    have hages := Heap.ages_collect hr.sound.heap (fits_of_reached ih.reached) r.roots
    exact List.append_nil payloads ▸
      ih.next (.next .collectGarbage ih.reached) rfl hages rfl (List.append_nil _).symm rfl
  | @noted r payloads state wait _ ih =>
    have hages : Heap.Ages 1 ∅ r.heap r.heap := .same (fits_of_reached ih.reached)
    exact List.append_nil payloads ▸
      ih.next (.next (.stand state wait) ih.reached) rfl hages rfl (List.append_nil _).symm rfl

/-- With a message it goes on, whether or not the deadline has passed. -/
theorem Suspended.resumes {payload : Payload} (h : Lingers config q (payload :: payloads) r)
    (loader : Loader) (now : Time) :
    ∃ v stack, r.mailbox.messages[q.mailbox.cursor]? = some v ∧
      Payload.capture r.heap v = .ok payload ∧ stack.toList = below ++ [v] ∧
      step loader now r = .ok none
        { r with
          frames := { f with ip := f.ip + 1 } :: outer
          stack
          mailbox := { r.mailbox with
            cursor := q.mailbox.cursor + 1
            bound := some q.mailbox.cursor } } := by
  obtain ⟨vs, hvs, hcaptured⟩ := h.messages
  obtain ⟨v, rest, rfl, hfirst, -⟩ := List.map_eq_cons_iff.1 hcaptured
  have hrest := hq.rest_eq h hvs
  obtain ⟨stack, hstack, hstep⟩ := (hq.here.congr h.frames h.stack).step_of_rest_cons
    (steady_of_reached h.reached).sound hrest loader now
  rw [h.cursor] at hstep
  refine ⟨v, stack, ?_, hfirst, hstack, hstep⟩
  rw [← Array.getElem?_toList, ← hq.scanned]
  refine (congrArg (·[q.mailbox.toList.length]?) hvs).trans ?_
  rw [List.getElem?_append_right (Nat.le_refl _), Nat.sub_self, List.getElem?_cons_zero]

end

/-! ### Clean suspensions -/

/-- The next instruction binds the message that was delivered first after the actor `p` was
suspended. It takes the place of the timeout. -/
def Resumes (loader : Loader) (now : Time) (p r : Actor) (payload : Payload) : Prop :=
  ∃ f outer below timeout v stack, p.frames = f :: outer ∧
    p.stack.toList = below ++ [timeout] ∧ stack.toList = below ++ [v] ∧
    r.mailbox.messages[p.mailbox.size]? = some v ∧ Payload.capture r.heap v = .ok payload ∧
    step loader now r = .ok none
      { r with
        frames := { f with ip := f.ip + 1 } :: outer
        stack
        mailbox := { r.mailbox with
          cursor := p.mailbox.size + 1
          bound := some p.mailbox.size } }

/-- A receive that waits leaves the actor as it was, and waits until there is a message or the
deadline comes. -/
structure Suspends (p : Actor) (due : Option Time) (q : Actor) : Prop where
  /-- The instruction is a receive. -/
  receives : ∃ f outer displacement, p.frames = f :: outer ∧
    f.routine.prototype.code[f.ip]? = some (.receive displacement)
  /-- Nothing has changed but the deadline, which may be fixed now. -/
  unchanged : q = { p with receiveDeadline := due.or p.receiveDeadline }
  /-- One that was fixed before is kept. -/
  fixed : ∀ earlier deadline, p.receiveDeadline = some earlier → due = some deadline →
    deadline = earlier
  /-- However often it is tried again before its deadline, nothing changes. -/
  idles : ∀ tries : List (Loader × Time), (∀ entry ∈ tries, Before entry.2 due) →
    tries.foldl (fun r entry => (Operation.step entry.1 entry.2).after r) q = q
  /-- Each time it waits until the same deadline. -/
  blocks : ∀ r, Meanwhile due q [] r → ∀ loader now, Before now due →
    step loader now r = .ok (some (.block due)) r
  /-- After a delivery it goes on at any time. -/
  resumes : ∀ payload payloads r, Meanwhile due q (payload :: payloads) r → ∀ loader now,
    Resumes loader now p r payload

/-- A receive that waits is a clean suspension. -/
theorem suspends_of_reached (hreached : Reached config p)
    (h : step loader now p = .ok (some (.block due)) q) : Suspends p due q := by
  obtain ⟨f, outer, below, timeout, target, hq⟩ := suspended_of_block hreached h
  have hq' : Reached config q := by
    have hafter : (Operation.step loader now).after p = q := by
      rw [Operation.after, Operation.run, h]
    exact hafter ▸ .next (.step loader now) hreached
  -- Suspended it is where it was, but for the deadline, so the rest is read off there.
  obtain ⟨-, -, -, timeout', -, hhere, -, hdue, -, rfl⟩ := atReceive_of_block h
  obtain ⟨displacement, hcode, -⟩ := hq.here.code
  obtain ⟨top, htop⟩ := hq.here.top
  refine
    { receives := ⟨f, outer, displacement, hq.here.frames, hcode⟩
      unchanged := rfl
      fixed := fun earlier deadline hearlier hdeadline => ?_
      idles := fun tries htries => ?_
      blocks := fun r hr loader now => hq.blocks (hq.lingers hq' hr) loader
      resumes := fun payload payloads r hr loader now => ?_ }
  · rw [hdue] at hdeadline
    obtain ⟨delay, -, rfl⟩ := Option.map_eq_some_iff.1 hdeadline
    rw [dueBy, hearlier, Option.getD_some]
  · -- One attempt changes nothing, so the next one starts where it did.
    induction tries with
    | nil => rfl
    | cons entry tries ih =>
      obtain ⟨hfirst, hothers⟩ := List.forall_mem_cons.1 htries
      rw [List.foldl_cons, Operation.after, Operation.run,
        hq.blocks (lingers_refl hq') entry.1 hfirst]
      exact ih hothers
  · obtain ⟨v, stack, hv, hcaptured, hstack, hstep⟩ :=
      hq.resumes (hq.lingers hq' hr) loader now
    have hsize : p.mailbox.size = p.mailbox.cursor := hq.scanned
    refine ⟨f, outer, below, top, v, stack, hq.here.frames, htop, hstack, ?_, hcaptured, ?_⟩
    · rw [hsize]
      exact hv
    · rw [hsize]
      exact hstep

/-- A delivery for which there is room. -/
theorem deliver_eq_ok {payload : Payload}
    (h : (match Actor.deliver payload p with | .ok _ _ => true | .error _ _ => false) = true) :
    Actor.deliver payload p = .ok () ((Operation.deliver payload).after p) := by
  cases hrun : Actor.deliver payload p with
  | ok _ q =>
    simp only [Operation.after, Operation.run, bind, EStateM.bind, hrun]
    rfl
  | error fault q =>
    rw [hrun] at h
    cases h

/-- A receive that waits until the time 50 waits at the time 49 as it did at first. A message that
is delivered then is bound at the time 100 all the same. -/
theorem suspends_awaiting :
    let p := awaiting #[.int 1, .ret] 1
    let q := awaiting #[.int 1, .ret] 2
    let r := (Operation.deliver (.int 5)).after q
    Reached {} p ∧ step .standard 0 p = .ok (some (.block (some 50))) q ∧
      step .standard 49 q = .ok (some (.block (some 50))) q ∧
      Resumes .standard 100 p r (.int 5) := by
  intro p q r
  have hreached : Reached {} p :=
    reached_stepped (reached_started (by decide +kernel)) .standard 0 1
  have hblock : step .standard 0 p = .ok (some (.block (some 50))) q :=
    step_awaiting (by decide +kernel)
  have hsuspends := suspends_of_reached hreached hblock
  have hearly : Before 49 (some 50) := by
    rintro _ ⟨⟩
    decide
  have hdelivered : Meanwhile (some 50) q [.int 5] r :=
    .delivered .suspended (deliver_eq_ok (by decide +kernel))
  exact ⟨hreached, hblock, hsuspends.blocks q .suspended .standard 49 hearly,
    hsuspends.resumes _ _ r hdelivered .standard 100⟩

end ActorMachine.Machine
