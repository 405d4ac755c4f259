/-!
# Time

Times are milliseconds. The machine looks at a `Clock`, which shows how much time has gone
by on its own, as a function of how often it was looked at, plus all the time that was
slept through. A clock whose `drift` stands still moves only by sleeping.
-/

namespace ActorMachine

/-- A point in time, in milliseconds. -/
abbrev Time := Nat

/-- A clock. -/
structure Clock where
  /-- The time that has gone by on its own at the n-th look. -/
  drift : Nat → Time
  /-- Number of looks so far. -/
  looks : Nat
  /-- Time slept through. -/
  slept : Time

namespace Clock

/-- The clock that moves only by sleeping. -/
def standing : Clock :=
  { drift := fun _ => 0, looks := 0, slept := 0 }

instance : Inhabited Clock := ⟨standing⟩

/-- What the clock shows at the next look. -/
def now (c : Clock) : Time :=
  c.drift c.looks + c.slept

/-- The clock after one look. -/
def tick (c : Clock) : Clock :=
  { c with looks := c.looks + 1 }

/-- The clock after sleeping until a time, if that time is still to come. -/
def sleepUntil (c : Clock) (deadline : Time) : Clock :=
  { c with slept := c.slept + (deadline - c.now) }

end Clock

end ActorMachine
