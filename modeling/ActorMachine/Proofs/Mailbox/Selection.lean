import ActorMachine.Proofs.Mailbox

/-!
# Selective receive

A receive loop scans a mailbox for a message that it wants: it receives the next message, or waits
until there is one; it judges what it has received; and it removes the first message that it wants,
and stops. Messages may be delivered between any two of these steps, also between the receipt of a
message and its removal.

* `Scan`: the loop in the course of its work, with a log of what it has examined.
* `Scan.Stands`: what a scan has to do with the messages that came, kept by each step and each
  delivery.
* `Scan.run_progress`: a scan does not wait while there is a message that it wants.
* `takesEarliest`: what the loop takes, and what it leaves for the next one.
-/

namespace ActorMachine

/-- A scan that has yet to pass all of these messages. -/
def Zipper.ahead (messages : List Value) : Zipper :=
  { empty with rest := messages }

namespace Mailbox

/-- Something that happens while a receive loop is at work. -/
inductive Scan.Event
  /-- A message is delivered. -/
  | delivery (v : Value)
  /-- The loop takes its next step. -/
  | turn
deriving DecidableEq, Repr, Inhabited

/-- How far a receive loop is. -/
inductive Scan.Stage
  /-- It looks at the next message, or waits for it. -/
  | looking
  /-- It has received a message and goes on to judge it. -/
  | judging (v : Value)
  /-- It has removed a message and stopped. -/
  | stopped (v : Value)
  /-- The removal was refused. -/
  | failed (fault : Fault)
deriving DecidableEq, Repr, Inhabited

/-- A receive loop at work on a mailbox. -/
structure Scan where
  /-- The mailbox. -/
  mailbox : Mailbox
  /-- Every message that was received, in this order. -/
  examined : List Value
  /-- How far the loop is. -/
  stage : Scan.Stage
deriving DecidableEq, Repr, Inhabited

namespace Scan

/-- The loop begins at the head of the mailbox. -/
def start (m : Mailbox) : Scan :=
  { mailbox := m.rewind, examined := [], stage := .looking }

/-- A message is delivered. -/
def deliver (v : Value) (s : Scan) : Scan :=
  { s with mailbox := s.mailbox.push v }

/-- The loop takes its next step. Where no message is pending it waits, and tries again. -/
def turn (wanted : Value → Bool) (s : Scan) : Scan :=
  match s.stage with
  | .looking =>
    match s.mailbox.receive? with
    | some (v, mailbox) => { mailbox, examined := s.examined ++ [v], stage := .judging v }
    | none => s
  | .judging v =>
    if wanted v then
      match Mailbox.remove s.mailbox with
      | .ok w mailbox => { s with mailbox, stage := .stopped w }
      | .error fault mailbox => { s with mailbox, stage := .failed fault }
    else { s with stage := .looking }
  | .stopped _ | .failed _ => s

/-- Something happens. -/
def after (wanted : Value → Bool) (s : Scan) : Event → Scan
  | .delivery v => s.deliver v
  | .turn => s.turn wanted

/-- One thing happens after the other. -/
def run (wanted : Value → Bool) (es : List Event) (s : Scan) : Scan :=
  es.foldl (after wanted) s

/-- The messages that are delivered meanwhile. -/
def delivered : List Event → List Value
  | [] => []
  | .delivery v :: es => v :: delivered es
  | .turn :: es => delivered es

variable {wanted : Value → Bool} {came : List Value} {s : Scan} {v w : Value} {i : Nat}

/-! ### What a scan has to do with the messages that came -/

/-- The messages before the cursor were examined, and none of them is wanted, but for the one that
is still to be judged; once the loop has stopped, the message it has taken is missing at the
cursor. -/
inductive Stands (wanted : Value → Bool) (came : List Value) : Scan → Prop
  /-- The loop is about to look at the next message. -/
  | looking (m : Mailbox) (z : Zipper) (hshows : m.Shows z) (hcame : came = z.seen ++ z.rest)
      (hseen : ∀ u ∈ z.seen, wanted u = false) : Stands wanted came ⟨m, z.seen, .looking⟩
  /-- The loop is about to judge the last message it has received. -/
  | judging (m : Mailbox) (z : Zipper) (before : List Value) (v : Value) (hshows : m.Shows z)
      (held : z.holds = true) (hlast : z.seen = before ++ [v]) (hcame : came = z.seen ++ z.rest)
      (hbefore : ∀ u ∈ before, wanted u = false) :
      Stands wanted came ⟨m, z.seen, .judging v⟩
  /-- The loop has stopped. -/
  | stopped (m : Mailbox) (z : Zipper) (examined : List Value) (v : Value) (hshows : m.Shows z)
      (hlast : examined = z.seen ++ [v]) (hcame : came = examined ++ z.rest)
      (hseen : ∀ u ∈ z.seen, wanted u = false) (hv : wanted v = true) :
      Stands wanted came ⟨m, examined, .stopped v⟩

/-- At the beginning everything that is there came, and nothing was examined. -/
theorem stands_start (m : Mailbox) : Stands wanted m.toList (start m) :=
  .looking m.rewind (.ahead m.toList) ⟨rfl, rfl, rfl⟩ rfl (List.forall_mem_nil _)

/-- A message that is delivered comes after all others. -/
theorem Stands.deliver (h : Stands wanted came s) (u : Value) :
    Stands wanted (came ++ [u]) (s.deliver u) := by
  cases h with
  | looking m z hshows hcame hseen =>
    refine .looking (m.push u) { z with rest := z.rest ++ [u] } (shows_push hshows u) ?_ hseen
    rw [hcame, List.append_assoc]
  | judging m z before v hshows held hlast hcame hbefore =>
    refine .judging (m.push u) { z with rest := z.rest ++ [u] } before v (shows_push hshows u) held
      hlast ?_ hbefore
    rw [hcame, List.append_assoc]
  | stopped m z examined v hshows hlast hcame hseen hv =>
    refine .stopped (m.push u) { z with rest := z.rest ++ [u] } examined v (shows_push hshows u)
      hlast ?_ hseen hv
    rw [hcame, List.append_assoc]

/-- A receive answers the first message to come, and moves past it. -/
theorem receive?_of_shows {m : Mailbox} {z : Zipper} {rest : List Value} (hshows : m.Shows z)
    (hrest : z.rest = v :: rest) :
    m.receive? = some (v, { m with cursor := m.cursor + 1, bound := some m.cursor }) := by
  rw [receive?, hshows.getElem?_cursor, hrest]
  rfl

theorem receive?_of_rest_nil {m : Mailbox} {z : Zipper} (hshows : m.Shows z)
    (hrest : z.rest = []) : m.receive? = none := by
  rw [receive?, hshows.getElem?_cursor, hrest]
  rfl

/-- What is removed is the last message that was passed. -/
theorem remove_of_shows {m : Mailbox} {z : Zipper} (hshows : m.Shows z) (held : z.holds = true) :
    Mailbox.remove m = .ok (z.seen.getLast (z.seen_ne_nil held))
      { messages := m.messages.eraseIdxIfInBounds (z.seen.length - 1),
        cursor := z.seen.length - 1, bound := none } :=
  remove_of_bound (by rw [hshows.bound_eq, if_pos held]) (hshows.getElem?_bound held)

/-- A step of the loop examines the next message, or judges the last one, or changes nothing. -/
theorem Stands.turn (h : Stands wanted came s) : Stands wanted came (s.turn wanted) := by
  cases h with
  | looking m z hshows hcame hseen =>
    cases hrest : z.rest with
    | nil =>
      simp only [Scan.turn, receive?_of_rest_nil hshows hrest]
      exact .looking m z hshows hcame hseen
    | cons v rest =>
      simp only [Scan.turn, receive?_of_shows hshows hrest]
      -- The message is the last one that was passed, and is to be judged.
      refine .judging _ _ z.seen v (shows_receive hshows hrest) rfl rfl ?_ hseen
      rw [hcame, hrest, List.append_assoc]
      rfl
  | judging m z before v hshows held hlast hcame hbefore =>
    by_cases hv : wanted v = true
    · -- What is removed is the last message that was passed, and that is the one received.
      have hget : z.seen.getLast (z.seen_ne_nil held) = v := by
        simp only [hlast, List.getLast_concat]
      have hdrop : z.seen.dropLast = before := by rw [hlast, List.dropLast_concat]
      simp only [Scan.turn, if_pos hv, remove_of_shows hshows held, hget]
      exact .stopped _ _ z.seen v (shows_remove hshows held) (hdrop.symm ▸ hlast) hcame
        (hdrop.symm ▸ hbefore) hv
    · simp only [Scan.turn, if_neg hv]
      -- It is not wanted, like those before it.
      refine .looking m z hshows hcame fun u hu => ?_
      rw [hlast, List.mem_append, List.mem_singleton] at hu
      rcases hu with hu | rfl
      · exact hbefore u hu
      · exact Bool.eq_false_iff.2 hv
  | stopped m z examined v hshows hlast hcame hseen hv =>
    exact .stopped m z examined v hshows hlast hcame hseen hv

/-- Whatever happens, the scan goes on to stand as it should to the messages that came. -/
theorem Stands.run (h : Stands wanted came s) (es : List Event) :
    Stands wanted (came ++ delivered es) (s.run wanted es) := by
  induction es generalizing came s with
  | nil => exact (List.append_nil came).symm ▸ h
  | cons e es ih =>
    cases e with
    | delivery u =>
      have hrun := ih (h.deliver u)
      rwa [List.append_assoc] at hrun
    | turn => exact ih h.turn

/-! ### The loop does not wait for nothing -/

/-- The loop has removed a message. -/
def HasStopped (s : Scan) : Prop :=
  ∃ v, s.stage = .stopped v

/-- A loop that is at work has taken nothing, and has come past no message that it wants. -/
theorem Stands.atWork (h : Stands wanted came s) : s.HasStopped ∨
    s.mailbox.toList = came ∧ s.examined <+: came ∧
      ∀ u ∈ s.examined, wanted u = true → s.stage = .judging u := by
  cases h with
  | looking m z hshows hcame hseen =>
    refine .inr ⟨hcame ▸ hshows.toList_eq, hcame ▸ List.prefix_append _ _, fun u hu hwanted => ?_⟩
    rw [hseen u hu] at hwanted
    cases hwanted
  | judging m z before v hshows held hlast hcame hbefore =>
    refine .inr ⟨hcame ▸ hshows.toList_eq, hcame ▸ List.prefix_append _ _, fun u hu hwanted => ?_⟩
    rw [hlast, List.mem_append, List.mem_singleton] at hu
    rcases hu with hu | rfl
    · rw [hbefore u hu] at hwanted
      cases hwanted
    · rfl
  | stopped m z examined v => exact .inl ⟨v, rfl⟩

/-- How many steps the loop has taken without waiting: two for each message it is done with, one
for a message that is still to be judged. -/
def steps (s : Scan) : Nat :=
  match s.stage with
  | .judging _ => 2 * s.examined.length - 1
  | _ => 2 * s.examined.length

/-- Once the loop has stopped it takes no more steps. -/
theorem HasStopped.run (h : s.HasStopped) (es : List Event) : (s.run wanted es).HasStopped := by
  induction es generalizing s with
  | nil => exact h
  | cons e es ih =>
    obtain ⟨v, hv⟩ := h
    cases e with
    | delivery u => exact ih ⟨v, hv⟩
    | turn =>
      have hturn : s.turn wanted = s := by simp only [Scan.turn, hv]
      exact ih ⟨v, by rw [← hv]; exact congrArg stage hturn⟩

/-- None of the messages that the loop is done with is wanted, so it has not come past one that
is. -/
theorem Stands.steps_le (h : Stands wanted came s) (hi : came[i]? = some w)
    (hw : wanted w = true) : s.HasStopped ∨ s.steps ≤ 2 * i + 1 := by
  -- A wanted message is not among those that are not, so these end before it.
  have hlength : ∀ front back, came = front ++ back → (∀ u ∈ front, wanted u = false) →
      front.length ≤ i := by
    rintro front back rfl hfront
    by_contra hlt
    rw [List.getElem?_append_left (Nat.not_le.1 hlt)] at hi
    have hnot := hfront w (List.mem_of_getElem? hi)
    rw [hw] at hnot
    cases hnot
  cases h with
  | looking m z hshows hcame hseen =>
    have hle := hlength z.seen z.rest hcame hseen
    refine .inr ?_
    show 2 * z.seen.length ≤ 2 * i + 1
    omega
  | judging m z before v hshows held hlast hcame hbefore =>
    have hle := hlength before (v :: z.rest) (by rw [hcame, hlast, List.append_assoc]; rfl) hbefore
    refine .inr ?_
    show 2 * z.seen.length - 1 ≤ 2 * i + 1
    rw [hlast, List.length_append, List.length_singleton]
    omega
  | stopped => exact .inl ⟨_, rfl⟩

/-- While a wanted message is there, every step of the loop counts. -/
theorem Stands.turn_progress (h : Stands wanted came s) (hi : came[i]? = some w)
    (hw : wanted w = true) :
    (s.turn wanted).HasStopped ∨ (s.turn wanted).steps = s.steps + 1 := by
  cases h with
  | looking m z hshows hcame hseen =>
    cases hrest : z.rest with
    | nil =>
      -- Every message that came was examined, also the wanted one.
      rw [hcame, hrest, List.append_nil] at hi
      have hnot := hseen w (List.mem_of_getElem? hi)
      rw [hw] at hnot
      cases hnot
    | cons v rest =>
      refine .inr ?_
      simp only [Scan.turn, receive?_of_shows hshows hrest, steps, List.length_append,
        List.length_singleton]
      omega
  | judging m z before v hshows held hlast hcame hbefore =>
    by_cases hv : wanted v = true
    · refine .inl ⟨z.seen.getLast (z.seen_ne_nil held), ?_⟩
      simp only [Scan.turn, if_pos hv, remove_of_shows hshows held]
    · have hpos := List.length_pos_of_ne_nil (z.seen_ne_nil held)
      refine .inr ?_
      simp only [Scan.turn, if_neg hv, steps]
      omega
  | stopped => exact .inl ⟨_, rfl⟩

/-- While a wanted message is there, the loop stops or has taken all the steps that it could. -/
theorem Stands.run_progress (h : Stands wanted came s) (hi : came[i]? = some w)
    (hw : wanted w = true) (es : List Event) :
    (s.run wanted es).HasStopped ∨ (s.run wanted es).steps = s.steps + es.count .turn := by
  induction es generalizing came s with
  | nil => exact .inr rfl
  | cons e es ih =>
    cases e with
    | delivery v =>
      have hlt := (List.getElem?_eq_some_iff.1 hi).1
      have hne : Event.delivery v ≠ .turn := nofun
      rw [List.count_cons_of_ne hne]
      exact ih (h.deliver v) (by rw [List.getElem?_append_left hlt, hi])
    | turn =>
      rcases h.turn_progress hi hw with hstopped | hsteps
      · exact .inl (hstopped.run es)
      · rw [List.count_cons_self]
        refine (ih h.turn hi).imp_right fun hrun => ?_
        rw [show s.run wanted (.turn :: es) = (s.turn wanted).run wanted es from rfl, hrun, hsteps]
        omega

end Scan

/-! ### What the loop takes -/

/-- A receive loop, begun at the head of a mailbox, after all that has happened since. -/
def scan (wanted : Value → Bool) (m : Mailbox) (es : List Scan.Event) : Scan :=
  (Scan.start m).run wanted es

/-- The messages that were there or have come since. -/
def cameBy (m : Mailbox) (es : List Scan.Event) : List Value :=
  m.toList ++ Scan.delivered es

/-- The loop has taken the first message that it wants of those that came: it has examined those
before it once and in their order, and has left all others in theirs. -/
structure Takes (wanted : Value → Bool) (came : List Value) (s : Scan) (v : Value)
    (before after : List Value) : Prop where
  /-- The message came behind some and before the others. -/
  came_eq : came = before ++ v :: after
  /-- It is wanted. -/
  wanted_eq : wanted v = true
  /-- Those before it are not. -/
  unwanted : ∀ u ∈ before, wanted u = false
  /-- They were examined once each, and then it was. -/
  examined_eq : s.examined = before ++ [v]
  /-- All others are there. -/
  toList_eq : s.mailbox.toList = before ++ after

variable {wanted : Value → Bool} {m : Mailbox} {es : List Scan.Event}

/-- Whatever has happened, the loop stands as it should to the messages that came. -/
theorem stands_scan (wanted : Value → Bool) (m : Mailbox) (es : List Scan.Event) :
    Scan.Stands wanted (cameBy m es) (scan wanted m es) :=
  (Scan.stands_start m).run es

/-- A loop that has stopped has taken the first message that it wants. -/
theorem takes_of_stands {came : List Value} {s : Scan} {v : Value} (h : s.Stands wanted came)
    (hstage : s.stage = .stopped v) : ∃ before after, Takes wanted came s v before after := by
  cases h with
  | looking => cases hstage
  | judging => cases hstage
  | stopped m z examined u hshows hlast hcame hseen hv =>
    obtain rfl := Scan.Stage.stopped.inj hstage
    refine ⟨z.seen, z.rest, ?_, hv, hseen, hlast, hshows.toList_eq⟩
    rw [hcame, hlast, List.append_assoc]
    rfl

/-- What the next loop takes comes behind all messages that are known to be unwanted. -/
theorem Takes.between {front back : List Value} {s : Scan} {w : Value} {before after : List Value}
    (h : Takes wanted (front ++ back) s w before after)
    (hfront : ∀ u ∈ front, wanted u = false) :
    ∃ between, before = front ++ between ∧ back = between ++ w :: after := by
  rcases List.append_eq_append_iff.1 h.came_eq with ⟨between, rfl, rfl⟩ | ⟨rest, rfl, hrest⟩
  · exact ⟨between, rfl, rfl⟩
  · cases rest with
    | nil => exact ⟨[], (List.append_nil _).symm ▸ (List.append_nil _).symm, hrest.symm⟩
    | cons u rest =>
      -- The message that was taken would be one of those that are not wanted.
      obtain ⟨rfl, -⟩ := List.cons.inj hrest
      have hnot := hfront w (by simp)
      rw [h.wanted_eq] at hnot
      cases hnot

/-- What becomes of a mailbox by a receive loop that begins at its head, whatever is delivered
meanwhile. -/
structure TakesEarliest (wanted : Value → Bool) (m : Mailbox) (es : List Scan.Event) : Prop where
  /-- When the loop stops, it has taken the earliest message that it wants. -/
  earliest : ∀ v, (scan wanted m es).stage = .stopped v →
    ∃ before after, Takes wanted (cameBy m es) (scan wanted m es) v before after
  /-- Started again at the head, it takes the next message that it wants. -/
  next : ∀ v es' w, (scan wanted m es).stage = .stopped v →
    (scan wanted (scan wanted m es).mailbox es').stage = .stopped w →
    ∃ before between after,
      cameBy m es ++ Scan.delivered es' = before ++ v :: (between ++ w :: after) ∧
      Takes wanted (before ++ (between ++ w :: after))
        (scan wanted (scan wanted m es).mailbox es') w (before ++ between) after
  /-- A loop that has not stopped has taken nothing, and does not want what it is done with. -/
  atWork : (scan wanted m es).HasStopped ∨
    (scan wanted m es).mailbox.toList = cameBy m es ∧
      (scan wanted m es).examined <+: cameBy m es ∧
      ∀ u ∈ (scan wanted m es).examined, wanted u = true →
        (scan wanted m es).stage = .judging u
  /-- It stops: as soon as a wanted message is there, it needs as many steps as it takes to receive
  and to judge that one and those before it. -/
  stops : ∀ early late i w, es = early ++ late → (cameBy m early)[i]? = some w →
    wanted w = true → 2 * (i + 1) ≤ late.count .turn → (scan wanted m es).HasStopped

/-- Whatever a receive loop wants and whatever is delivered meanwhile, it takes the earliest message
that it wants, and the next time the next one. -/
theorem takesEarliest (wanted : Value → Bool) (m : Mailbox) (es : List Scan.Event) :
    TakesEarliest wanted m es where
  earliest v hv := takes_of_stands (stands_scan wanted m es) hv
  next v es' w hv hw := by
    obtain ⟨before, after, hfirst⟩ := takes_of_stands (stands_scan wanted m es) hv
    obtain ⟨before', after', hsecond⟩ := takes_of_stands (stands_scan wanted _ es') hw
    -- What the first loop has left is all that the second one begins with.
    rw [cameBy, hfirst.toList_eq, List.append_assoc] at hsecond
    obtain ⟨between, rfl, hbetween⟩ := hsecond.between hfirst.unwanted
    refine ⟨before, between, after', ?_, hbetween ▸ hsecond⟩
    rw [hfirst.came_eq, List.append_assoc, List.cons_append, hbetween]
  atWork := (stands_scan wanted m es).atWork
  stops early late i w hes hi hw hturns := by
    subst hes
    have hstands := stands_scan wanted m early
    have hrun : scan wanted m (early ++ late) = (scan wanted m early).run wanted late :=
      List.foldl_append
    have hlate := hstands.run late
    have hcame : (cameBy m early ++ Scan.delivered late)[i]? = some w := by
      rw [List.getElem?_append_left (List.getElem?_eq_some_iff.1 hi).1, hi]
    rw [hrun]
    rcases hstands.run_progress hi hw late with hstopped | hsteps
    · exact hstopped
    · rcases hlate.steps_le hcame hw with hstopped | hle
      · exact hstopped
      · omega

/-- One message is delivered while the loop waits, and another one between the receipt of the
message that is wanted and its removal. -/
example :
    let s := scan (· == .int 2) (empty.push (.int 1))
      [.turn, .turn, .turn, .delivery (.int 2), .turn, .delivery (.int 3), .turn]
    s.stage = .stopped (.int 2) ∧ s.mailbox.toList = [.int 1, .int 3] := by
  decide +kernel

end Mailbox

end ActorMachine
