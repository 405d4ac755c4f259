import ActorMachine.Proofs.Machine.Dated
import ActorMachine.Proofs.Machine.Outcomes

/-!
# Receives with a timeout

* `AwaitsUntil`: the next instruction of an actor is a receive that was tried before and has a
  deadline.
* `FindsNone`: the next instruction of an actor is a receive with a timeout, and there is no message
  for it. `step_of_findsNone`: it waits until a deadline or times out.
* `jumpOrWait_exact`: what is done in either case, on which `receive_exact_of_rest_nil` rests.
* `receive_spec_of_rest_nil`, `receive_spec_of_message`: what a receive does without a message, and
  what it does with one.
* `awaitsUntil_of_block`: this is how an actor is left that waits for a message until a deadline.
* `advance_of_awaitsUntil`: from the deadline on it waits no more. It binds the next message, or it
  jumps if there is none.
-/

namespace ActorMachine.Machine

open Actor (Action Dated push upkeep_dated upkeep_onStack upkeep_push)

variable {p q : Actor} {loader : Loader} {now deadline delay : Time} {f : Frame}
  {outer : List Frame} {below : List Value} {target : Nat}

/-- The next instruction of an actor is a receive with a timeout, which was tried before and has got
a deadline then. Where the receive jumps is within the code. -/
structure AwaitsUntil (p : Actor) (f : Frame) (outer : List Frame) (below : List Value)
    (target : Nat) (deadline : Time) : Prop where
  /-- The innermost frame stands at the receive. -/
  frames : p.frames = f :: outer
  /-- This is where it jumps. -/
  code : ∃ displacement, f.routine.prototype.code[f.ip]? = some (.receive displacement) ∧
    jumpTarget f.ip displacement f.routine.prototype.code.size = .ok target
  /-- The timeout is on top of the stack. -/
  stack : ∃ milliseconds, p.stack.toList = below ++ [.int milliseconds]
  /-- The deadline is fixed. -/
  deadline : p.receiveDeadline = some deadline

/-- Frames, stack and deadline are all that matters. -/
theorem AwaitsUntil.congr (h : AwaitsUntil p f outer below target deadline)
    (hframes : q.frames = p.frames) (hstack : q.stack = p.stack)
    (hdeadline : q.receiveDeadline = p.receiveDeadline) :
    AwaitsUntil q f outer below target deadline where
  frames := hframes.trans h.frames
  code := h.code
  stack := hstack ▸ h.stack
  deadline := hdeadline.trans h.deadline

/-- A receive with a timeout comes to its end. -/
inductive EndsReceive (p : Actor) (f : Frame) (outer : List Frame) (below : List Value)
    (target : Nat) : Actor → Prop
  /-- The message at the cursor is bound, and takes the place of the timeout. -/
  | binds {v : Value} {rest : List Value} {stack : Stack} (message : p.mailbox.rest = v :: rest)
      (top : stack.toList = below ++ [v]) :
      EndsReceive p f outer below target
        { p with
          frames := { f with ip := f.ip + 1 } :: outer
          stack
          mailbox := { p.mailbox with
            cursor := p.mailbox.cursor + 1
            bound := some p.mailbox.cursor } }
  /-- There is no message. The timeout is gone and the jump is taken. -/
  | expires {stack : Stack} (noMessage : p.mailbox.rest = []) (popped : stack.toList = below) :
      EndsReceive p f outer below target
        { p with frames := { f with ip := target } :: outer, stack, receiveDeadline := none }

/-- The next instruction of an actor is a receive with a timeout, and there is no message for it. -/
structure FindsNone (p : Actor) (f : Frame) (outer : List Frame) (target : Nat) (delay : Time) :
    Prop where
  /-- The innermost frame stands at the receive. -/
  frames : p.frames = f :: outer
  /-- This is where it jumps. -/
  code : ∃ displacement, f.routine.prototype.code[f.ip]? = some (.receive displacement) ∧
    jumpTarget f.ip displacement f.routine.prototype.code.size = .ok target
  /-- The timeout is on top of the stack. -/
  timeout : receiveTimeout p.stack = .ok (some delay)
  /-- The scan has no message left to look at. -/
  message : p.mailbox.rest = []

/-- The deadline that a receive goes by: the one that was fixed before, if there is one. -/
def dueBy (p : Actor) (now delay : Time) : Time :=
  p.receiveDeadline.getD (now + delay)

/-- The deadline that a receive goes by if it has a timeout. -/
def dueAt (p : Actor) (now : Time) (timeout : Option Time) : Option Time :=
  timeout.map (dueBy p now)

/-- The time has not come at which a receive times out. -/
def Before (now : Time) (due : Option Time) : Prop :=
  ∀ deadline, due = some deadline → now < deadline

/-- The actor after its receive has timed out. -/
def timedOut (p : Actor) (f : Frame) (outer : List Frame) (target : Nat) : Actor :=
  { p with
    frames := { f with ip := target } :: outer
    stack := p.stack.truncate (p.stack.size - 1)
    receiveDeadline := none }

/-! ### Parts of a receive -/

/-- A receive may wait as long as the integer on top of the stack says. -/
theorem receiveTimeout_eq_some_iff {s : Stack} : receiveTimeout s = .ok (some delay) ↔
    ∃ below milliseconds, s.toList = below ++ [.int milliseconds] ∧
      milliseconds.toInt.toNat = delay := by
  rw [receiveTimeout]
  constructor
  · intro h
    split at h
    next => cases h
    next milliseconds htop =>
      obtain ⟨values, hvalues⟩ := Array.back?_eq_some_iff.1 htop
      refine ⟨values.toList, milliseconds, ?_, Option.some.inj (Except.ok.inj h)⟩
      rw [Stack.toList, hvalues, Array.toList_push]
    all_goals cases h
  · rintro ⟨below, milliseconds, hstack, rfl⟩
    have htop : s.top? = some (.int milliseconds) := by
      rw [Stack.top?, ← Array.getLast?_toList]
      exact (congrArg List.getLast? hstack).trans List.getLast?_concat
    rw [htop]

/-- What there is for a timeout is on top of the stack. -/
theorem exists_top_of_receiveTimeout {s : Stack} {timeout : Option Time}
    (h : receiveTimeout s = .ok timeout) : ∃ below top, s.toList = below ++ [top] := by
  rw [receiveTimeout] at h
  cases htop : s.top? with
  | none =>
    rw [htop] at h
    cases h
  | some v =>
    obtain ⟨values, hvalues⟩ := Array.back?_eq_some_iff.1 htop
    exact ⟨values.toList, v, by rw [Stack.toList, hvalues, Array.toList_push]⟩

/-- The message at the cursor is bound, and if there is none nothing changes. -/
theorem takeMessage?_exact (p : Actor) :
    Ensures takeMessage? p
      (fun message q =>
        (∃ v rest, p.mailbox.rest = v :: rest ∧ message = some v ∧
          q = { p with mailbox := { p.mailbox with
            cursor := p.mailbox.cursor + 1
            bound := some p.mailbox.cursor } }) ∨
        (p.mailbox.rest = [] ∧ message = none ∧ q = p))
      (fun _ _ => False) := by
  -- Whether there is a message is told by the first of those that are left.
  have hhead := Mailbox.receive?_map_fst p.mailbox
  rw [takeMessage?, Actor.ensures_onMailbox, ensures_bind, ensures_get]
  cases hrest : p.mailbox.rest with
  | nil =>
    rw [hrest, List.head?_nil, Option.map_eq_none_iff] at hhead
    rw [hhead]
    exact .inr ⟨rfl, rfl, rfl⟩
  | cons v rest =>
    rw [hrest, List.head?_cons, Option.map_eq_some_iff] at hhead
    obtain ⟨⟨_, mailbox⟩, hreceive, rfl⟩ := hhead
    have hmailbox : mailbox = { p.mailbox with
        cursor := p.mailbox.cursor + 1
        bound := some p.mailbox.cursor } := by
      rw [Mailbox.receive?, Option.map_eq_some_iff] at hreceive
      obtain ⟨w, -, heq⟩ := hreceive
      exact (congrArg Prod.snd heq).symm
    rw [hreceive]
    exact .inl ⟨_, rest, rfl, rfl, by rw [hmailbox]⟩

/-- Where the timeout and the place to jump to are found, only the message is left to look for. -/
theorem ensures_receive {timeout : Option Time} (htimeout : receiveTimeout p.stack = .ok timeout)
    {ip length : Nat} {displacement : Int32}
    (htarget : jumpTarget ip displacement length = .ok target) (now : Time)
    {ok : Option Outcome → Actor → Prop} {fail : Fault → Actor → Prop} :
    Ensures (receive now ip displacement length) p ok fail ↔
      Ensures (takeMessage? >>= endReceive now ip target timeout) p ok fail := by
  rw [receive_eq, ensures_bind, ensures_get, htimeout, htarget]
  exact Iff.rfl

/-- There is a timeout to drop if the jump is made. -/
theorem jumpOrWait_exact (hsize : 1 ≤ p.stack.size) (now : Time) (ip target : Nat)
    (due : Option Time) :
    Ensures (jumpOrWait now ip target due) p
      (fun o q =>
        (¬ Before now due ∧ o = none ∧ q = Actor.atIp { p with
          stack := p.stack.truncate (p.stack.size - 1)
          receiveDeadline := none } target) ∨
        (Before now due ∧ o = some (.block due) ∧ q = p.atIp ip))
      (fun _ _ => False) := by
  rw [jumpOrWait]
  split
  next hdue =>
    obtain ⟨deadline, rfl, hlate⟩ := (Option.any_eq_true _ _).1 hdue
    rw [ensures_bind, ensures_modify, ensures_bind, Actor.ensures_onStack, Stack.ensures_pop]
    refine ⟨fun _ => .inl ⟨fun hearly => ?_, rfl, rfl⟩, fun hlt => ?_⟩
    · exact absurd (of_decide_eq_true hlate) (Nat.not_le.2 (hearly _ rfl))
    · exact absurd hsize (Nat.not_le.2 hlt)
  next hearly =>
    refine .inr ⟨?_, rfl, rfl⟩
    rintro deadline rfl
    exact Nat.not_le.1 fun hdue => hearly (decide_eq_true hdue)

/-! ### Receives that find no message -/

/-- A receive that finds no message times out if its deadline has come, and otherwise it waits,
until then if there is a deadline. -/
theorem receive_exact_of_rest_nil {timeout : Option Time}
    (htimeout : receiveTimeout p.stack = .ok timeout) {ip length : Nat} {displacement : Int32}
    (htarget : jumpTarget ip displacement length = .ok target) (hrest : p.mailbox.rest = [])
    (now : Time) :
    Ensures (receive now ip displacement length) p
      (fun o q =>
        (¬ Before now (dueAt p now timeout) ∧ o = none ∧ q = Actor.atIp { p with
          stack := p.stack.truncate (p.stack.size - 1)
          receiveDeadline := none } target) ∨
        (Before now (dueAt p now timeout) ∧ o = some (.block (dueAt p now timeout)) ∧
          q = Actor.atIp { p with
            receiveDeadline := (dueAt p now timeout).or p.receiveDeadline } ip))
      (fun _ _ => False) := by
  have hsize : 1 ≤ p.stack.size := by
    obtain ⟨below, top, hstack⟩ := exists_top_of_receiveTimeout htimeout
    rw [← Stack.length_toList, hstack, List.length_append]
    exact Nat.le_add_left 1 _
  rw [ensures_receive htimeout htarget, ensures_bind]
  refine (takeMessage?_exact p).mono ?_ fun _ _ => False.elim
  rintro _ _ (⟨_, _, hmessage, -⟩ | ⟨-, hnone, hsame⟩)
  · cases hrest.symm.trans hmessage
  · -- The deadline is fixed now if it was not before.
    rw [hnone, hsame, endReceive, ensures_bind, ensures_fixDeadline]
    exact jumpOrWait_exact
      (p := { p with receiveDeadline := (dueAt p now timeout).or p.receiveDeadline })
      hsize now ip target (dueAt p now timeout)

/-- The frame is the innermost one of the actor. While it waits, it stays at the receive. -/
theorem receive_spec_of_rest_nil (hframes : p.frames = f :: outer) {timeout : Option Time}
    (htimeout : receiveTimeout p.stack = .ok timeout) (hrest : p.mailbox.rest = []) (now : Time)
    {displacement : Int32}
    (htarget : jumpTarget f.ip displacement f.routine.prototype.code.size = .ok target) :
    Ensures (receive now f.ip displacement f.routine.prototype.code.size) (p.atIp (f.ip + 1))
      (fun o q =>
        (¬ Before now (dueAt p now timeout) ∧ o = none ∧ q = timedOut p f outer target) ∨
        (Before now (dueAt p now timeout) ∧ o = some (.block (dueAt p now timeout)) ∧
          q = { p with receiveDeadline := (dueAt p now timeout).or p.receiveDeadline }))
      (fun _ _ => False) := by
  have hspec := receive_exact_of_rest_nil
    (p := { p with frames := { f with ip := f.ip + 1 } :: outer }) htimeout htarget hrest now
  cases p
  subst hframes
  exact hspec

/-- So does the actor with its next instruction. -/
theorem step_of_findsNone (h : FindsNone p f outer target delay) (loader : Loader) (now : Time) :
    (dueBy p now delay ≤ now → step loader now p = .ok none (timedOut p f outer target)) ∧
      (now < dueBy p now delay →
        step loader now p = .ok (some (.block (some (dueBy p now delay))))
          { p with receiveDeadline := some (dueBy p now delay) }) := by
  obtain ⟨displacement, hcode, htarget⟩ := h.code
  obtain ⟨o, q, hrun, hcase⟩ :=
    (receive_spec_of_rest_nil h.frames h.timeout h.message now htarget).exists_ok
  have hstep : step loader now p = .ok o q := (step_eq_execute h.frames hcode loader now).trans hrun
  have hbefore : Before now (dueAt p now (some delay)) ↔ now < dueBy p now delay :=
    ⟨fun hearly => hearly _ rfl, by rintro hearly _ ⟨⟩; exact hearly⟩
  rw [hbefore] at hcase
  rcases hcase with ⟨hdue, rfl, rfl⟩ | ⟨hearly, rfl, rfl⟩
  · exact ⟨fun _ => hstep, fun hearly => absurd hearly hdue⟩
  · exact ⟨fun hdue => absurd hdue (Nat.not_le.2 hearly), fun _ => hstep⟩

/-! ### Waiting until a deadline -/

/-- Only a receive waits for a message. -/
theorem receive_of_block {due : Option Time}
    (h : step loader now p = .ok (some (.block due)) q) :
    ∃ f outer displacement, p.frames = f :: outer ∧
      f.routine.prototype.code[f.ip]? = some (.receive displacement) ∧
      receive now f.ip displacement f.routine.prototype.code.size (p.atIp (f.ip + 1)) =
        .ok (some (.block due)) q := by
  -- What is mute does not wait, and of the three instructions that are not only one does.
  have hmute : ∀ {act : Action (Option Outcome)} {r : Actor}, Mute r act →
      act r ≠ .ok (some (.block due)) q := fun hact hrun =>
    (Ensures.of_ok hact hrun).block due rfl
  cases hframes : p.frames with
  | nil =>
    simp only [step, bind, EStateM.bind, get, getThe, MonadStateOf.get, estateM_get, hframes] at h
    cases h
  | cons f outer =>
    cases hcode : f.routine.prototype.code[f.ip]? with
    | none =>
      rw [step_eq_returnFrom hframes hcode] at h
      exact absurd h (hmute (mute_returnFrom f))
    | some i =>
      rw [step_eq_execute hframes hcode] at h
      by_cases hreceive : ∃ displacement, i = .receive displacement
      · obtain ⟨displacement, rfl⟩ := hreceive
        exact ⟨f, outer, displacement, rfl, hcode, h⟩
      by_cases hsend : i = .send
      · subst hsend
        obtain ⟨receiver, payload, ho, -⟩ := (send_spec _).of_ok h
        cases ho
      by_cases hbreak : i = .breakpoint
      · subst hbreak
        cases h
      · exact absurd h
          (hmute (mute_execute loader now f f.ip hsend (fun d h => hreceive ⟨d, h⟩) hbreak))

/-- A receive that has a message or no timeout, or that fails, leaves the deadline alone, and does
not wait until one. -/
theorem receive_spec_of_not_findsNone {ip length : Nat} {displacement : Int32}
    (hnone : ∀ delay target, receiveTimeout p.stack = .ok (some delay) →
      jumpTarget ip displacement length = .ok target → p.mailbox.rest ≠ []) (now : Time) :
    Ensures (receive now ip displacement length) p
      (fun o q => Dated p.receiveDeadline q ∧ ∀ deadline, o ≠ some (.block (some deadline)))
      fun _ q => Dated p.receiveDeadline q := by
  rw [receive_eq, ensures_bind, ensures_get, ensures_bind, ensures_ofExcept]
  refine ⟨fun timeout htimeout => ?_, fun _ _ => rfl⟩
  rw [ensures_bind, ensures_ofExcept]
  refine ⟨fun target htarget => ?_, fun _ _ => rfl⟩
  rw [ensures_bind]
  refine Ensures.mono (takeMessage?_exact p) ?_ fun _ _ => False.elim
  rintro _ _ (⟨v, rest, -, rfl, rfl⟩ | ⟨hrest, rfl, rfl⟩)
  · -- A message is bound, which has nothing to do with the deadline.
    have hbinds : Upholds (Dated p.receiveDeadline) (bindMessage v) fun o => o = none :=
      (upkeep_onStack upkeep_dated _).bind fun _ _ =>
        (upkeep_push upkeep_dated v).bind fun _ _ => upholds_pure rfl
    refine Ensures.mono (hbinds _ rfl) ?_ fun _ _ => id
    rintro _ q ⟨hq, rfl⟩
    exact ⟨hq, fun deadline hblock => by cases hblock⟩
  rename Actor => p
  cases timeout with
  | some delay => exact absurd hrest (hnone delay target htimeout htarget)
  | none =>
    -- Without a timeout there is no deadline to fix or to wait for.
    have hblocks : Upholds (Dated p.receiveDeadline) (jumpOrWait now ip target none)
        fun o => o = some (.block none) :=
      (upkeep_setIp upkeep_dated ip).bind fun _ _ => upholds_pure rfl
    refine Ensures.mono (hblocks _ rfl) ?_ fun _ _ => id
    rintro _ q ⟨hq, rfl⟩
    exact ⟨hq, fun deadline hblock => by cases hblock⟩

/-- An actor that waits until a deadline has found no message, and the deadline is fixed. -/
theorem findsNone_of_block (h : step loader now p = .ok (some (.block (some deadline))) q) :
    ∃ f outer target delay, FindsNone p f outer target delay ∧ deadline = dueBy p now delay ∧
      q = { p with receiveDeadline := some deadline } := by
  obtain ⟨f, outer, displacement, hframes, hcode, hreceive⟩ := receive_of_block h
  have hat := Actor.atIp_of_frames hframes (f.ip + 1)
  by_cases hnone : ∃ delay target, FindsNone p f outer target delay
  · obtain ⟨delay, target, hnone⟩ := hnone
    refine ⟨f, outer, target, delay, hnone, ?_⟩
    obtain ⟨hexpires, hwaits⟩ := step_of_findsNone hnone loader now
    rcases Nat.lt_or_ge now (dueBy p now delay) with hearly | hdue
    · rw [hwaits hearly] at h
      cases h
      exact ⟨rfl, rfl⟩
    · rw [hexpires hdue] at h
      cases h
  · -- Otherwise it would have bound a message, or waited without a deadline, or failed.
    rw [hat] at hreceive
    have hspec := receive_spec_of_not_findsNone
      (p := { p with frames := { f with ip := f.ip + 1 } :: outer })
      (fun delay target htimeout htarget hrest =>
        hnone ⟨delay, target, hframes, ⟨displacement, hcode, htarget⟩, htimeout, hrest⟩) now
    exact absurd rfl ((hspec.of_ok hreceive).2 deadline)

/-- An actor that waits for a message until a deadline stands at the receive. -/
theorem awaitsUntil_of_block (h : step loader now p = .ok (some (.block (some deadline))) q) :
    ∃ f outer below target, AwaitsUntil q f outer below target deadline := by
  obtain ⟨f, outer, target, delay, hnone, -, rfl⟩ := findsNone_of_block h
  obtain ⟨below, milliseconds, hstack, -⟩ := receiveTimeout_eq_some_iff.1 hnone.timeout
  exact ⟨f, outer, below, target, hnone.frames, hnone.code, ⟨milliseconds, hstack⟩, rfl⟩

/-! ### From the deadline on -/

/-- Below the value on top there are the other values. -/
theorem toList_truncate_of_top {s : Stack} {top : Value} (hstack : s.toList = below ++ [top]) :
    s.size = below.length + 1 ∧ (s.truncate (s.size - 1)).toList = below := by
  have hsize : s.size = below.length + 1 := by
    rw [← Stack.length_toList, hstack, List.length_append, List.length_singleton]
  refine ⟨hsize, ?_⟩
  rw [Stack.toList_truncate, hstack, hsize, Nat.add_sub_cancel, List.take_left]

/-- A receive that was tried before finds a message, or it finds none. -/
theorem AwaitsUntil.findsNone (h : AwaitsUntil p f outer below target deadline)
    (hrest : p.mailbox.rest = []) : ∃ delay, FindsNone p f outer target delay := by
  obtain ⟨milliseconds, hstack⟩ := h.stack
  have htimeout := receiveTimeout_eq_some_iff.2 ⟨below, milliseconds, hstack, rfl⟩
  exact ⟨_, h.frames, h.code, htimeout, hrest⟩

/-- A message takes the place of the timeout, for which there was room. -/
theorem receive_spec_of_message (hframes : p.frames = f :: outer) {top : Value}
    (hstack : p.stack.toList = below ++ [top]) {timeout : Option Time}
    (htimeout : receiveTimeout p.stack = .ok timeout) (hp : p.Sound)
    {v : Value} {rest : List Value} (hrest : p.mailbox.rest = v :: rest) (now : Time)
    {displacement : Int32}
    (htarget : jumpTarget f.ip displacement f.routine.prototype.code.size = .ok target) :
    Ensures (receive now f.ip displacement f.routine.prototype.code.size) (p.atIp (f.ip + 1))
      (fun o q => o = none ∧ EndsReceive p f outer below target q) (fun _ _ => False) := by
  have hat := Actor.atIp_of_frames hframes (f.ip + 1)
  obtain ⟨hsize, hbelow⟩ := toList_truncate_of_top hstack
  have hfits := hp.fits.truncate (p.stack.size - 1)
  rw [hat, ensures_receive (p := { p with frames := { f with ip := f.ip + 1 } :: outer })
    htimeout htarget, ensures_bind]
  refine (takeMessage?_exact _).mono ?_ fun _ _ => False.elim
  rintro _ _ (⟨_, _, hmessage, rfl, rfl⟩ | ⟨hnone, -⟩)
  swap
  · cases hnone.symm.trans hrest
  obtain ⟨rfl, -⟩ := List.cons.inj (hrest.symm.trans hmessage)
  rw [endReceive, bindMessage]
  -- The timeout is popped first, so there is room for the message whatever the capacity is.
  rw [ensures_bind, Actor.ensures_onStack, Stack.ensures_pop]
  refine ⟨fun _ => ?_, fun hlt => ?_⟩
  swap
  · change p.stack.size < 1 at hlt
    omega
  rw [ensures_bind, push, Actor.ensures_onStack]
  refine (Stack.push_spec hfits v).mono ?_ ?_
  · rintro _ _ ⟨capacity, rfl, -⟩
    refine ⟨rfl, .binds hrest ?_⟩
    rw [Stack.toList_pushed]
    exact congrArg (· ++ [v]) hbelow
  · rintro fault _ ⟨-, hfull, -⟩
    have hroom := hp.fits.size_le
    rw [← Stack.length_toList, hbelow] at hfull
    change below.length = p.stack.capacity at hfull
    omega

/-- When its deadline has come, an actor that stands at a receive with a timeout ends it with its
next instruction. -/
theorem advance_of_awaitsUntil (h : AwaitsUntil p f outer below target deadline) (hp : p.Sound)
    (hdue : deadline ≤ now) :
    ∃ q, advance loader now p = (none, q) ∧ EndsReceive p f outer below target q := by
  cases hrest : p.mailbox.rest with
  | nil =>
    obtain ⟨delay, hnone⟩ := h.findsNone hrest
    have hdueBy : dueBy p now delay ≤ now := by
      rwa [dueBy, h.deadline, Option.getD_some]
    obtain ⟨milliseconds, hstack⟩ := h.stack
    refine ⟨timedOut p f outer target, ?_, .expires hrest (toList_truncate_of_top hstack).2⟩
    rw [advance, (step_of_findsNone hnone loader now).1 hdueBy]
  | cons v rest =>
    obtain ⟨displacement, hcode, htarget⟩ := h.code
    obtain ⟨milliseconds, hstack⟩ := h.stack
    have htimeout := receiveTimeout_eq_some_iff.2 ⟨below, milliseconds, hstack, rfl⟩
    obtain ⟨o, q, hrun, rfl, hends⟩ :=
      (receive_spec_of_message h.frames hstack htimeout hp hrest now htarget).exists_ok
    refine ⟨q, ?_, hends⟩
    rw [advance, step_eq_execute h.frames hcode, execute, hrun]

end ActorMachine.Machine
