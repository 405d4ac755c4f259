import ActorMachine.Machine.Step
import ActorMachine.Proofs.Ensures

/-!
# The parts of a receive

A receive looks for its timeout, for the place it jumps to and for a message. What it does then is
told by three actions, of which whatever is to be shown of a receive is shown one by one.

* `bindMessage`: what is done with a message that was found.
* `fixDeadline`, `jumpOrWait`: what is done if there was none.
* `receive_eq`: a receive consists of these.
-/

namespace ActorMachine.Machine

open Actor (Action onStack push)

/-- The message takes the place of the timeout. -/
def bindMessage (message : Value) : Action (Option Outcome) := do
  onStack (Stack.pop 1)
  push message
  return none

/-- Fixes the deadline of a receive that has a timeout, unless it was fixed before. -/
def fixDeadline (now : Time) (timeout : Option Time) : Action (Option Time) := do
  let fixed := (← get).receiveDeadline
  let deadline := timeout.map fun delay => fixed.getD (now + delay)
  if deadline.isSome then
    modify fun p => { p with receiveDeadline := deadline }
  return deadline

/-- Without a timeout there is no deadline, and then none is written down. -/
theorem ensures_fixDeadline {p : Actor} {ok : Option Time → Actor → Prop}
    {fail : Fault → Actor → Prop} (now : Time) (timeout : Option Time) :
    Ensures (fixDeadline now timeout) p ok fail ↔
      ok (timeout.map fun delay => p.receiveDeadline.getD (now + delay))
        { p with
          receiveDeadline := (timeout.map fun delay => p.receiveDeadline.getD (now + delay)).or
            p.receiveDeadline } := by
  cases timeout <;> exact Iff.rfl

/-- Drops the timeout and jumps if the deadline has come. Otherwise the receive will be tried
again. -/
def jumpOrWait (now : Time) (ip target : Nat) (deadline : Option Time) :
    Action (Option Outcome) := do
  if deadline.any (· ≤ now) then
    modify fun p => { p with receiveDeadline := none }
    onStack (Stack.pop 1)
    setIp target
    return none
  setIp ip
  return some (.block deadline)

/-- What a receive does when it has looked for a message. -/
def endReceive (now : Time) (ip target : Nat) (timeout : Option Time) :
    Option Value → Action (Option Outcome)
  | some message => bindMessage message
  | none => fixDeadline now timeout >>= jumpOrWait now ip target

theorem receive_eq (now : Time) (ip : Nat) (displacement : Int32) (length : Nat) :
    receive now ip displacement length = (do
      let timeout ← ofExcept (receiveTimeout (← get).stack)
      let target ← ofExcept (jumpTarget ip displacement length)
      takeMessage? >>= endReceive now ip target timeout) := by
  rw [receive]
  refine bind_congr fun p => bind_congr fun timeout => bind_congr fun target => ?_
  refine bind_congr fun message => ?_
  cases message with
  | some message => rfl
  | none =>
    -- Whether there is a timeout decides whether the deadline is written down.
    cases timeout <;> rfl

end ActorMachine.Machine
