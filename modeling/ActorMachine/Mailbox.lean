import ActorMachine.Fault

/-!
# Mailboxes

A mailbox keeps messages in the order of delivery, together with a cursor that scans them
for a selective receive. `receive?` looks at the message at the cursor and binds it;
`remove` takes the bound message out; `rewind` starts the scan over.

The messages before the cursor are those seen by the scan (`Mailbox.seen`), the others are
still to come (`Mailbox.rest`).
-/

namespace ActorMachine

/-- The mailbox of an actor. -/
structure Mailbox where
  /-- The messages in the order of delivery. -/
  messages : Array Value
  /-- Position of the message that the scan looks at next. -/
  cursor : Nat
  /-- Position of the message that the last receive bound, if it was not removed since. -/
  bound : Option Nat
deriving DecidableEq, Repr, Inhabited

namespace Mailbox

/-- The mailbox without messages. -/
def empty : Mailbox :=
  { messages := #[], cursor := 0, bound := none }

/-- Number of messages. -/
def size (m : Mailbox) : Nat :=
  m.messages.size

/-- No message is there. -/
def isEmpty (m : Mailbox) : Bool :=
  m.messages.isEmpty

/-- All messages in the order of delivery. -/
def toList (m : Mailbox) : List Value :=
  m.messages.toList

/-- The messages that the scan has passed. -/
def seen (m : Mailbox) : List Value :=
  m.toList.take m.cursor

/-- The messages that the scan has yet to look at. -/
def rest (m : Mailbox) : List Value :=
  m.toList.drop m.cursor

/-- The scan has a message to look at. -/
def hasPending (m : Mailbox) : Bool :=
  decide (m.cursor < m.size)

/-- Appends a message. -/
def push (v : Value) (m : Mailbox) : Mailbox :=
  { m with messages := m.messages.push v }

/-- Binds the message at the cursor and moves past it. -/
def receive? (m : Mailbox) : Option (Value × Mailbox) :=
  m.messages[m.cursor]?.map fun v => (v, { m with cursor := m.cursor + 1, bound := some m.cursor })

/-- Takes the bound message out; the scan goes on with the message behind it. The binding
is spent in any case. -/
def remove : EStateM Fault Mailbox Value := do
  let m ← get
  modify fun m => { m with bound := none }
  let some position := m.bound | throw .noBoundMessage
  let some v := m.messages[position]? | throw .noBoundMessage
  modify fun m =>
    { m with messages := m.messages.eraseIdxIfInBounds position, cursor := position }
  return v

/-- Starts the scan over and forgets the binding. -/
def rewind (m : Mailbox) : Mailbox :=
  { m with cursor := 0, bound := none }

/-- Drops all messages. -/
def clear (_ : Mailbox) : Mailbox :=
  empty

/-! ### The view of a mailbox -/

@[simp]
theorem toList_empty : empty.toList = [] := rfl

@[simp]
theorem toList_push (v : Value) (m : Mailbox) : (m.push v).toList = m.toList ++ [v] := by
  simp [toList, push]

@[simp]
theorem toList_rewind (m : Mailbox) : m.rewind.toList = m.toList := rfl

@[simp]
theorem toList_clear (m : Mailbox) : m.clear.toList = [] := rfl

theorem seen_append_rest (m : Mailbox) : m.seen ++ m.rest = m.toList :=
  List.take_append_drop m.cursor m.toList

theorem rest_rewind (m : Mailbox) : m.rewind.rest = m.toList := rfl

/-- There is something to look at exactly if the rest is not empty. -/
theorem hasPending_iff (m : Mailbox) : m.hasPending = true ↔ m.rest ≠ [] := by
  rw [hasPending, decide_eq_true_iff]
  simp [rest, toList, size]

/-- A receive answers the head of the rest. -/
theorem receive?_map_fst (m : Mailbox) : m.receive?.map Prod.fst = m.rest.head? := by
  simp [receive?, rest, toList, List.head?_drop, Function.comp_def]

end Mailbox

end ActorMachine
