import ActorMachine.Machine.Step

/-!
# Running an actor

`advance` executes one instruction and unwinds the fault it may raise; only a fault that no
guarded call catches gets out, as a trap. `run` advances until the actor hands control back.

A program need not come to an end, so `run` is given a budget of instructions. Running out
of it is no outcome of the program: it means that there is no answer yet, and any larger
budget gives the same answer as one that sufficed.
-/

namespace ActorMachine.Machine

/-- Executes one instruction; a fault that nothing catches becomes a trap. -/
def advance (loader : Loader) (now : Time) (p : Actor) : Option Outcome × Actor :=
  match step loader now p with
  | .ok outcome p => (outcome, p)
  | .error fault p =>
    match Actor.unwind fault p with
    | .ok _ p => (none, p)
    | .error fault p => (some (.trap fault), p)

/-- Advances until control is handed back, looking at the clock before every instruction.
No answer means that the budget was too small. -/
def run (loader : Loader) : Nat → Clock → Actor → Option (Outcome × Clock × Actor)
  | 0, _, _ => none
  | budget + 1, clock, p =>
    match advance loader clock.now p with
    | (some outcome, p) => some (outcome, clock.tick, p)
    | (none, p) => run loader budget clock.tick p

end ActorMachine.Machine
