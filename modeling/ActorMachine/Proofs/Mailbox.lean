import ActorMachine.Mailbox
import ActorMachine.Proofs.Ensures
import Mathlib.Data.List.Perm.Basic

/-!
# A mailbox is a zipper

A mailbox is an array with two raw positions in it. Its readers think of it as two lists,
the messages that the scan has passed and those still to come, and of a flag that says
whether the last of those passed may be removed (`Zipper`). This file shows that the two
never come apart, whatever is done to the mailbox and in whatever order.

Both are run on the same operations (`Mailbox.Operation`). One operation answers the same on
both and keeps the mailbox showing the zipper (`shows_run`); the whole run follows by
induction. What is said of all messages that ever came is read off a `Ledger`, which is
kept from the operations and their answers alone.
-/

namespace ActorMachine

/-- A scan over messages. -/
@[ext]
structure Zipper where
  /-- The messages that the scan has passed. -/
  seen : List Value
  /-- The messages still to come. -/
  rest : List Value
  /-- The last message that was passed may be removed. -/
  holds : Bool
  /-- Only a message that was passed is held. -/
  seen_ne_nil : holds = true → seen ≠ []

namespace Mailbox

/-- What is done to a mailbox. -/
inductive Operation
  /-- Delivers a message. -/
  | push (v : Value)
  /-- Looks at the next message. -/
  | receive
  /-- Takes the bound message out. -/
  | remove
  /-- Starts the scan over. -/
  | rewind
  /-- Drops all messages. -/
  | clear
deriving DecidableEq, Repr, Inhabited

/-- What an operation answers: a message, nothing, or a fault. -/
abbrev Answer := Except Fault (Option Value)

/-- Does it to a mailbox. -/
def Operation.run : Operation → Mailbox → Answer × Mailbox
  | push v, m => (.ok none, m.push v)
  | receive, m =>
    match m.receive? with
    | some (v, m) => (.ok (some v), m)
    | none => (.ok none, m)
  | remove, m =>
    match Mailbox.remove m with
    | .ok v m => (.ok (some v), m)
    | .error fault m => (.error fault, m)
  | rewind, m => (.ok none, m.rewind)
  | clear, m => (.ok none, m.clear)

end Mailbox

namespace Zipper

open Mailbox (Operation Answer)

/-- No message has come. -/
def empty : Zipper :=
  { seen := [], rest := [], holds := false, seen_ne_nil := nofun }

/-- Does it to a zipper: what is pushed comes last, a receive passes the head of the rest,
and what may be removed is the last message that was passed. -/
def run : Operation → Zipper → Answer × Zipper
  | .push v, z => (.ok none, { z with rest := z.rest ++ [v] })
  | .receive, z =>
    match z.rest with
    | [] => (.ok none, z)
    | v :: rest =>
      (.ok (some v), { seen := z.seen ++ [v], rest, holds := true, seen_ne_nil := by simp })
  | .remove, z =>
    if held : z.holds = true then
      (.ok (some (z.seen.getLast (z.seen_ne_nil held))),
        { seen := z.seen.dropLast, rest := z.rest, holds := false, seen_ne_nil := nofun })
    else (.error .noBoundMessage, z)
  | .rewind, z =>
    (.ok none, { seen := [], rest := z.seen ++ z.rest, holds := false, seen_ne_nil := nofun })
  | .clear, _ => (.ok none, empty)

end Zipper

namespace Mailbox

variable {m : Mailbox} {z : Zipper} {v : Value}

/-! ### One operation -/

/-- The mailbox is this zipper, laid out as an array and two positions. -/
structure Shows (m : Mailbox) (z : Zipper) : Prop where
  /-- The messages are those passed and those to come. -/
  toList_eq : m.toList = z.seen ++ z.rest
  /-- The scan stands behind those passed. -/
  cursor_eq : m.cursor = z.seen.length
  /-- What is bound is the last message that was passed. -/
  bound_eq : m.bound = if z.holds then some (z.seen.length - 1) else none

theorem Shows.rest_eq (h : m.Shows z) : m.rest = z.rest := by
  rw [rest, h.toList_eq, h.cursor_eq, List.drop_left]

/-- What stands at the cursor is the head of the rest. -/
theorem Shows.getElem?_cursor (h : m.Shows z) : m.messages[m.cursor]? = z.rest.head? := by
  rw [← Array.getElem?_toList, ← List.head?_drop]
  exact congrArg List.head? h.rest_eq

/-- What stands at the bound position is the last message that was passed. -/
theorem Shows.getElem?_bound (h : m.Shows z) (held : z.holds = true) :
    m.messages[z.seen.length - 1]? = some (z.seen.getLast (z.seen_ne_nil held)) := by
  have hpos : 0 < z.seen.length := List.length_pos_of_ne_nil (z.seen_ne_nil held)
  have hmessages : m.messages.toList = z.seen ++ z.rest := h.toList_eq
  rw [← Array.getElem?_toList, hmessages, List.getElem?_append_left (by omega),
    ← List.getLast?_eq_getElem?, List.getLast?_eq_getLast_of_ne_nil]

/-- Removing without a binding is refused and changes nothing. -/
theorem remove_of_unbound (hbound : m.bound = none) :
    Mailbox.remove m = .error .noBoundMessage m := by
  obtain ⟨messages, cursor, bound⟩ := m
  cases hbound
  rfl

/-- Removing takes out what stands at the bound position; the scan goes on from there. -/
theorem remove_of_bound {position : Nat} (hbound : m.bound = some position)
    (hmessage : m.messages[position]? = some v) :
    Mailbox.remove m =
      .ok v { messages := m.messages.eraseIdxIfInBounds position, cursor := position,
              bound := none } := by
  have hspec : Ensures Mailbox.remove m
      (fun w t => w = v ∧ t = { messages := m.messages.eraseIdxIfInBounds position,
                                cursor := position, bound := none })
      (fun _ _ => False) := by
    rw [Mailbox.remove, ensures_bind, ensures_get, ensures_bind, ensures_modify, hbound]
    dsimp only
    rw [hmessage]
    exact ⟨rfl, rfl⟩
  obtain ⟨_, _, hrun, rfl, rfl⟩ := hspec.exists_ok
  exact hrun

theorem shows_empty : empty.Shows Zipper.empty :=
  ⟨rfl, rfl, rfl⟩

theorem shows_push (h : m.Shows z) (v : Value) :
    (m.push v).Shows (Zipper.run (.push v) z).2 where
  toList_eq := by rw [toList_push, h.toList_eq, List.append_assoc]; rfl
  cursor_eq := h.cursor_eq
  bound_eq := h.bound_eq

/-- A receive that finds a message moves it from the rest to those passed. -/
theorem shows_receive (h : m.Shows z) {rest : List Value} (hrest : z.rest = v :: rest) :
    ({ m with cursor := m.cursor + 1, bound := some m.cursor } : Mailbox).Shows
      { seen := z.seen ++ [v], rest, holds := true, seen_ne_nil := by simp } where
  toList_eq := by
    show m.toList = _
    rw [h.toList_eq, hrest, List.append_assoc, List.singleton_append]
  cursor_eq := by simp [h.cursor_eq]
  bound_eq := by simp [h.cursor_eq]

/-- Taking the bound message out leaves the others as they stand. -/
theorem shows_remove (h : m.Shows z) (held : z.holds = true) :
    ({ m with
        messages := m.messages.eraseIdxIfInBounds (z.seen.length - 1)
        cursor := z.seen.length - 1
        bound := none } : Mailbox).Shows
      { seen := z.seen.dropLast, rest := z.rest, holds := false, seen_ne_nil := nofun } where
  toList_eq := by
    have hpos : 0 < z.seen.length := List.length_pos_of_ne_nil (z.seen_ne_nil held)
    have hmessages : m.messages.toList = z.seen ++ z.rest := h.toList_eq
    show (m.messages.eraseIdxIfInBounds (z.seen.length - 1)).toList = _
    rw [Array.toList_eraseIdxIfInBounds, hmessages,
      List.eraseIdx_append_of_lt_length (by omega), List.eraseIdx_length_sub_one]
  cursor_eq := by simp
  bound_eq := rfl

theorem shows_rewind (h : m.Shows z) : m.rewind.Shows (Zipper.run .rewind z).2 :=
  ⟨h.toList_eq, rfl, rfl⟩

/-- A mailbox answers what its zipper answers, and shows the zipper afterwards. -/
theorem shows_run (h : m.Shows z) (op : Operation) :
    (op.run m).1 = (Zipper.run op z).1 ∧ (op.run m).2.Shows (Zipper.run op z).2 := by
  cases op with
  | push v => exact ⟨rfl, shows_push h v⟩
  | receive =>
    -- A message is found exactly if the zipper has one to come.
    have hhead := h.getElem?_cursor
    cases hrest : z.rest with
    | nil =>
      rw [hrest, List.head?_nil] at hhead
      simp only [Operation.run, receive?, hhead, Option.map_none, Zipper.run, hrest]
      exact ⟨trivial, h⟩
    | cons v rest =>
      rw [hrest, List.head?_cons] at hhead
      simp only [Operation.run, receive?, hhead, Option.map_some, Zipper.run, hrest]
      exact ⟨trivial, shows_receive h hrest⟩
  | remove =>
    by_cases held : z.holds = true
    · -- The bound position is the one before the cursor, and a message stands there.
      have hbound : m.bound = some (z.seen.length - 1) := by rw [h.bound_eq, if_pos held]
      simp only [Operation.run, remove_of_bound hbound (h.getElem?_bound held), Zipper.run,
        dif_pos held]
      exact ⟨trivial, shows_remove h held⟩
    · have hbound : m.bound = none := by rw [h.bound_eq, if_neg held]
      simp only [Operation.run, remove_of_unbound hbound, Zipper.run, dif_neg held]
      exact ⟨trivial, h⟩
  | rewind => exact ⟨rfl, shows_rewind h⟩
  | clear => exact ⟨rfl, shows_empty⟩

/-! ### All operations of a run -/

/-- Does one operation after the other; answers what each of them has answered, and what has
come of the mailbox or of the zipper. -/
def runAll {α : Type} (run : Operation → α → Answer × α) : List Operation → α → List Answer × α
  | [], a => ([], a)
  | op :: ops, a =>
    let (answer, a) := run op a
    let (answers, a) := runAll run ops a
    (answer :: answers, a)

/-- What a run answers on a mailbox that was empty, and the mailbox afterwards. -/
def afterAll (ops : List Operation) : List Answer × Mailbox :=
  runAll Operation.run ops empty

end Mailbox

/-- What a run answers on a zipper that was empty, and the zipper afterwards. -/
def Zipper.afterAll (ops : List Mailbox.Operation) : List Mailbox.Answer × Zipper :=
  Mailbox.runAll Zipper.run ops empty

namespace Mailbox

variable {m : Mailbox} {z : Zipper}

/-- One more operation is done to what a run has come to. -/
theorem afterAll_concat (ops : List Operation) (op : Operation) :
    (afterAll (ops ++ [op])).2 = (op.run (afterAll ops).2).2 := by
  -- The first operation leaves another mailbox, so this is shown for all of them.
  have hrun : ∀ m : Mailbox, (runAll Operation.run (ops ++ [op]) m).2 =
      (op.run (runAll Operation.run ops m).2).2 := by
    induction ops with
    | nil => exact fun m => rfl
    | cons first ops ih => exact fun m => ih (first.run m).2
  exact hrun empty

theorem shows_runAll (h : m.Shows z) (ops : List Operation) :
    (runAll Operation.run ops m).1 = (runAll Zipper.run ops z).1 ∧
      (runAll Operation.run ops m).2.Shows (runAll Zipper.run ops z).2 := by
  induction ops generalizing m z with
  | nil => exact ⟨rfl, h⟩
  | cons op ops ih =>
    obtain ⟨hanswer, hshows⟩ := shows_run h op
    obtain ⟨hanswers, hend⟩ := ih hshows
    exact ⟨congrArg₂ List.cons hanswer hanswers, hend⟩

/-! ### What came and what went -/

/-- What a log of operations and answers says of the messages. -/
structure Ledger where
  /-- The messages that came since the mailbox was last cleared, in their order. -/
  came : List Value
  /-- The messages taken out since then, the latest first. -/
  went : List Value
  /-- What the last successful receive has answered. -/
  latest : Option Value

namespace Ledger

/-- Nothing was done yet. -/
def empty : Ledger :=
  { came := [], went := [], latest := none }

/-- Enters an operation and what it answered. -/
def enter (l : Ledger) : Operation × Answer → Ledger
  | (.push v, _) => { l with came := l.came ++ [v] }
  | (.receive, .ok (some v)) => { l with latest := some v }
  | (.remove, .ok (some v)) => { l with went := v :: l.went }
  | (.clear, _) => { l with came := [], went := [] }
  | _ => l

/-- The ledger of a run on a mailbox that was empty. -/
def of (ops : List Operation) : Ledger :=
  (ops.zip (afterAll ops).1).foldl enter empty

end Ledger

/-- What came is there in its order or went, and what may be removed was received last. -/
structure Ledger.Accounts (l : Ledger) (z : Zipper) : Prop where
  /-- What is there came in this order. -/
  sublist : (z.seen ++ z.rest).Sublist l.came
  /-- What came is there or went, as often as it came. -/
  perm : l.came.Perm (z.seen ++ z.rest ++ l.went)
  /-- What may be removed is what was received last. -/
  latest_eq : z.holds = true → z.seen.getLast? = l.latest

theorem Ledger.accounts_empty : Ledger.empty.Accounts Zipper.empty :=
  ⟨.refl _, .refl _, nofun⟩

/-- An operation keeps the books right, entered with what the zipper answers to it. -/
theorem Ledger.accounts_enter {l : Ledger} (h : l.Accounts z) (op : Operation) :
    (l.enter (op, (Zipper.run op z).1)).Accounts (Zipper.run op z).2 := by
  cases op with
  | push v =>
    refine ⟨?_, ?_, h.latest_eq⟩
    · show (z.seen ++ (z.rest ++ [v])).Sublist (l.came ++ [v])
      rw [← List.append_assoc]
      exact h.sublist.append (.refl _)
    · show (l.came ++ [v]).Perm (z.seen ++ (z.rest ++ [v]) ++ l.went)
      calc (l.came ++ [v]).Perm (z.seen ++ z.rest ++ l.went ++ [v]) := h.perm.append_right [v]
        _ = z.seen ++ z.rest ++ (l.went ++ [v]) := by simp
        List.Perm _ (z.seen ++ z.rest ++ ([v] ++ l.went)) := List.perm_append_comm.append_left _
        _ = z.seen ++ (z.rest ++ [v]) ++ l.went := by simp
  | receive =>
    cases hrest : z.rest with
    | nil =>
      simp only [Zipper.run, hrest]
      exact h
    | cons v rest =>
      -- The message only moves from one list to the other.
      have hmoved : z.seen ++ [v] ++ rest = z.seen ++ z.rest := by simp [hrest]
      simp only [Zipper.run, hrest]
      exact ⟨hmoved ▸ h.sublist, hmoved ▸ h.perm, fun _ => by simp [enter]⟩
  | remove =>
    by_cases held : z.holds = true
    · -- The message that goes was the last one passed, and is the first one now that went.
      have hlast : z.seen.dropLast ++ [z.seen.getLast (z.seen_ne_nil held)] = z.seen :=
        List.dropLast_append_getLast _
      simp only [Zipper.run, dif_pos held]
      refine ⟨?_, ?_, nofun⟩
      · exact ((List.dropLast_sublist _).append (.refl _)).trans h.sublist
      · show l.came.Perm (z.seen.dropLast ++ z.rest ++ z.seen.getLast _ :: l.went)
        calc l.came.Perm (z.seen ++ z.rest ++ l.went) := h.perm
          _ = z.seen.dropLast ++ ([z.seen.getLast _] ++ z.rest) ++ l.went := by
            rw [← List.append_assoc, hlast]
          List.Perm _ (z.seen.dropLast ++ (z.rest ++ [z.seen.getLast _]) ++ l.went) :=
            (List.perm_append_comm.append_left _).append_right _
          _ = z.seen.dropLast ++ z.rest ++ z.seen.getLast _ :: l.went := by simp
    · simp only [Zipper.run, dif_neg held]
      exact h
  | rewind => exact ⟨h.sublist, h.perm, nofun⟩
  | clear => exact ⟨.refl _, .refl _, nofun⟩

/-- A run keeps the books right. -/
theorem Ledger.accounts_foldl {l : Ledger} (h : l.Accounts z) (ops : List Operation) :
    ((ops.zip (runAll Zipper.run ops z).1).foldl enter l).Accounts
      (runAll Zipper.run ops z).2 := by
  induction ops generalizing l z with
  | nil => exact h
  | cons op ops ih => exact ih (accounts_enter h op)

/-! ### Whole runs -/

/-- A bound position is that of a message, and of the one that was received last. -/
theorem Shows.bound_spec (h : m.Shows z) {l : Ledger} (hl : l.Accounts z) {position : Nat}
    (hbound : m.bound = some position) :
    position < m.size ∧ position + 1 = m.cursor ∧ m.messages[position]? = l.latest := by
  by_cases held : z.holds = true
  · have hpos : 0 < z.seen.length := List.length_pos_of_ne_nil (z.seen_ne_nil held)
    have hmessage := h.getElem?_bound held
    rw [h.bound_eq, if_pos held, Option.some.injEq] at hbound
    subst hbound
    refine ⟨(Array.getElem?_eq_some_iff.mp hmessage).1, ?_, ?_⟩
    · rw [h.cursor_eq]
      omega
    · rw [hmessage, ← hl.latest_eq held, List.getLast?_eq_getLast_of_ne_nil]
  · rw [h.bound_eq, if_neg held] at hbound
    nomatch hbound

/-- A removal takes out the last message that was passed, which was received last. It is
refused, and changes nothing, if none is held. -/
theorem Shows.remove_spec (h : m.Shows z) {l : Ledger} (hl : l.Accounts z) :
    Ensures Mailbox.remove m
      (fun v n => z.holds = true ∧ l.latest = some v ∧
        ∃ seen, z.seen = seen ++ [v] ∧ n.toList = seen ++ z.rest ∧ n.cursor = seen.length ∧
          n.bound = none)
      (fun fault n => z.holds = false ∧ fault = .noBoundMessage ∧ n = m) := by
  by_cases held : z.holds = true
  · have hbound : m.bound = some (z.seen.length - 1) := by rw [h.bound_eq, if_pos held]
    have hleft := shows_remove h held
    rw [Ensures, remove_of_bound hbound (h.getElem?_bound held)]
    refine ⟨held, ?_, z.seen.dropLast, (List.dropLast_append_getLast _).symm, hleft.toList_eq,
      hleft.cursor_eq, rfl⟩
    rw [← hl.latest_eq held, List.getLast?_eq_getLast_of_ne_nil]
  · have hbound : m.bound = none := by rw [h.bound_eq, if_neg held]
    rw [Ensures, remove_of_unbound hbound]
    exact ⟨by simpa using held, rfl, rfl⟩

/-- What a run makes of a mailbox that was empty. -/
structure IsZipper (ops : List Operation) : Prop where
  /-- The mailbox has answered what the zipper answers. -/
  answers_eq : (afterAll ops).1 = (Zipper.afterAll ops).1
  /-- It is the zipper that the run comes to. -/
  shows : (afterAll ops).2.Shows (Zipper.afterAll ops).2
  /-- A bound position is that of a message, and of the one that was received last. -/
  bound : ∀ position, (afterAll ops).2.bound = some position →
    position < (afterAll ops).2.size ∧ position + 1 = (afterAll ops).2.cursor ∧
      (afterAll ops).2.messages[position]? = (Ledger.of ops).latest
  /-- A removal takes out the last message that was passed, which was received last. It is
  refused, and changes nothing, if none is held. -/
  remove : Ensures Mailbox.remove (afterAll ops).2
    (fun v m => (Zipper.afterAll ops).2.holds = true ∧ (Ledger.of ops).latest = some v ∧
      ∃ seen, (Zipper.afterAll ops).2.seen = seen ++ [v] ∧
        m.toList = seen ++ (Zipper.afterAll ops).2.rest ∧ m.cursor = seen.length ∧
          m.bound = none)
    (fun fault m => (Zipper.afterAll ops).2.holds = false ∧ fault = .noBoundMessage ∧
      m = (afterAll ops).2)
  /-- The messages that are there are in the order in which they came. -/
  inOrder : (afterAll ops).2.toList.Sublist (Ledger.of ops).came
  /-- What came since the last clearing is there or was removed, as often as it came. -/
  conserved : (Ledger.of ops).came.Perm ((afterAll ops).2.toList ++ (Ledger.of ops).went)

/-- Whatever is done to a mailbox, it is a zipper. -/
theorem isZipper (ops : List Operation) : IsZipper ops := by
  obtain ⟨hanswers, hshows⟩ :
      (afterAll ops).1 = (Zipper.afterAll ops).1 ∧
        (afterAll ops).2.Shows (Zipper.afterAll ops).2 :=
    shows_runAll shows_empty ops
  have haccounts : (Ledger.of ops).Accounts (Zipper.afterAll ops).2 := by
    rw [Ledger.of, hanswers]
    exact Ledger.accounts_foldl Ledger.accounts_empty ops
  exact
    { answers_eq := hanswers
      shows := hshows
      bound := fun _ => hshows.bound_spec haccounts
      remove := hshows.remove_spec haccounts
      inOrder := hshows.toList_eq ▸ haccounts.sublist
      conserved := hshows.toList_eq ▸ haccounts.perm }

/-- The scan goes on behind a message that was removed from the middle. -/
example (a b c : Value) :
    (afterAll [.push a, .push b, .push c, .receive, .receive, .remove, .receive, .rewind,
      .remove]).1 =
      [.ok none, .ok none, .ok none, .ok (some a), .ok (some b), .ok (some b), .ok (some c),
        .ok none, .error .noBoundMessage] :=
  (shows_runAll shows_empty _).1

end Mailbox

end ActorMachine
