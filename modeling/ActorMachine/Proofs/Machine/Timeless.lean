import ActorMachine.Machine.Run
import ActorMachine.Proofs.Machine.Dated

/-!
# What does not depend on the time

An instruction looks at the clock in two cases: the native that sleeps does, and so does a receive
with a timeout. Either the actor waits until a point in time then, or it would have done the same at
any other time.

* `Actor.Undated`: no receive in progress has a deadline.
* `Timed`: what is asked for is to wait until a point in time.
* `advance_anytime`: an instruction that does not ask for that does the same at all times.
-/

namespace ActorMachine

variable {α : Type}

namespace Actor

/-- No receive in progress has a deadline. -/
def Undated (p : Actor) : Prop :=
  p.receiveDeadline = none

theorem upkeep_undated : Upkeep (fun _ => True) (fun _ => True) Undated :=
  upkeep_dated

/-- A fault ends the receive in progress. -/
theorem undated_unwind (fault : Fault) : Upholds Undated (unwind fault) fun _ => True := by
  intro p hp
  have hnone : (if p.frames.any Frame.guarded then none else p.receiveDeadline) = none := by
    rw [hp, ite_self]
  refine Ensures.mono (ensures_unwind p fault) (fun _ q hq => ⟨?_, trivial⟩) fun _ q hq => ?_
  · exact hq.trans hnone
  · exact hq.trans hnone

end Actor

namespace Machine

open Actor (Action Undated onStack attempt upkeep_undated upkeep_onStack upkeep_push
  upholds_attempt)

variable {p : Actor} {loader : Loader} {now now' : Time}

/-! ### Instructions at two times -/

/-- What is asked for is to wait until a point in time. -/
def Timed : Option Outcome → Prop
  | some (.sleep _) | some (.block (some _)) => True
  | _ => False

/-- On an actor that has no deadline two actions do the same, unless the first one ends by asking to
wait until a point in time. Otherwise there is no deadline afterwards. -/
def Coincide (act act' : Action (Option Outcome)) : Prop :=
  ∀ p : Actor, p.Undated → Ensures act p (fun o q => Timed o ∨ (act' p = .ok o q ∧ q.Undated))
    fun fault q => act' p = .error fault q ∧ q.Undated

theorem coincide_refl {act : Action (Option Outcome)} (hact : Upholds Undated act fun _ => True) :
    Coincide act act := fun p hp =>
  ((hact p hp).and (ensures_result act p)).mono (fun _ _ h => .inr ⟨h.2, h.1.1⟩)
    fun _ _ h => ⟨h.2, h.1⟩

theorem coincide_throw (fault : Fault) : Coincide (throw fault) (throw fault) :=
  coincide_refl (upholds_throw fault)

/-- Nothing is done after a fault. -/
theorem coincide_throw_bind (fault : Fault) (f f' : α → Action (Option Outcome)) :
    Coincide (throw fault >>= f) (throw fault >>= f') :=
  fun _ hp => ⟨rfl, hp⟩

/-- The same is done first. -/
theorem coincide_bind {act : Action α} {f f' : α → Action (Option Outcome)}
    (hact : Upholds Undated act fun _ => True) (hf : ∀ a, Coincide (f a) (f' a)) :
    Coincide (act >>= f) (act >>= f') := by
  intro p hp
  rw [ensures_bind]
  refine ((hact p hp).and (ensures_result act p)).mono ?_ ?_
  · rintro a q ⟨⟨hq, -⟩, hrun⟩
    have hrest : (act >>= f') p = f' a q := by simp only [bind, EStateM.bind, hrun]
    rw [hrest]
    exact hf a q hq
  · rintro fault q ⟨hq, hrun⟩
    exact ⟨by simp only [bind, EStateM.bind, hrun], hq⟩

/-- The actor, which has no deadline, is looked at first. -/
theorem coincide_get_bind {f f' : Actor → Action (Option Outcome)}
    (hf : ∀ p : Actor, p.Undated → Coincide (f p) (f' p)) : Coincide (get >>= f) (get >>= f') :=
  fun p hp => hf p hp p hp

/-- Something is computed first that may fail. -/
theorem coincide_look {result : Except Fault α} {f f' : α → Action (Option Outcome)}
    (hf : ∀ a, Coincide (f a) (f' a)) : Coincide (ofExcept result >>= f) (ofExcept result >>= f') :=
  coincide_bind (upholds_ofExcept fun _ _ => trivial) hf

/-- What is asked for is passed on, and faults are dealt with in the same way. -/
theorem coincide_attempt {act act' : Action (Option Outcome)}
    {handler : Fault → Action (Option Outcome)} (hact : Coincide act act')
    (hhandler : ∀ fault, Upholds Undated (handler fault) fun _ => True) :
    Coincide
      (do
        match ← attempt act with
        | .ok o => return o
        | .error fault => handler fault)
      (do
        match ← attempt act' with
        | .ok o => return o
        | .error fault => handler fault) := by
  intro p hp
  rw [ensures_bind, Actor.ensures_attempt]
  refine (hact p hp).mono (fun o q h => ?_) fun fault q h => ?_
  · exact h.imp_right fun ⟨hrun, hq⟩ => ⟨by simp only [bind, EStateM.bind, attempt, hrun]; rfl, hq⟩
  · obtain ⟨hrun, hq⟩ := h
    -- A fault leaves both in the same state, and is then dealt with in the same way.
    have hrest : (do
        match ← attempt act' with
        | .ok o => return o
        | .error fault => handler fault : Action (Option Outcome)) p = handler fault q := by
      simp only [bind, EStateM.bind, attempt, hrun]
    rw [hrest]
    exact coincide_refl (hhandler fault) q hq

/-- Only the request to sleep becomes something else at another time. -/
theorem coincide_takeRequest (now now' : Time) (guarded : Bool) :
    Coincide (do return (← Actor.takeRequest).map (outcomeOf now guarded))
      (do return (← Actor.takeRequest).map (outcomeOf now' guarded)) := by
  refine coincide_bind (Actor.upkeep_takeRequest upkeep_undated) fun request p hp => ?_
  rw [ensures_pure]
  cases request with
  | none => exact .inr ⟨rfl, hp⟩
  | some request =>
    cases request with
    | giveWay | newActor => exact .inr ⟨rfl, hp⟩
    | sleep => exact .inl trivial

theorem coincide_callBuiltin (builtin : Builtin) (calleeSlot : Nat) (guarded : Bool) :
    Coincide (callBuiltin builtin now calleeSlot guarded)
      (callBuiltin builtin now' calleeSlot guarded) := by
  refine coincide_get_bind fun p _ => ?_
  have hrun : ∀ args, Upholds Undated (builtin.run args) fun _ => True :=
    Builtin.upkeep_run upkeep_undated builtin
  refine coincide_bind ((upholds_attempt (hrun _)).mono fun _ _ => trivial) fun result => ?_
  cases result with
  | ok v =>
    refine coincide_bind (Actor.upkeep_truncateStack upkeep_undated calleeSlot) fun _ => ?_
    have hlast := coincide_bind (upkeep_push upkeep_undated v) fun _ =>
      coincide_takeRequest now now' guarded
    dsimp only
    split
    next => exact coincide_bind (upkeep_push upkeep_undated _) fun _ => hlast
    next => exact hlast
  | error fault =>
    refine coincide_refl ?_
    dsimp only
    split
    next =>
      refine (Actor.upkeep_truncateStack upkeep_undated calleeSlot).bind fun _ _ => ?_
      refine (Actor.upkeep_pushFailure upkeep_undated fault).bind fun _ _ => ?_
      exact upkeep_goOn (Actor.upkeep_takeRequest upkeep_undated).discard
    next => exact upholds_throw fault

/-- A protected call is a call with fewer arguments, and its failure is recovered from. -/
theorem coincide_invoke (nargs : Nat) (guarded : Bool) :
    Coincide (invoke loader now nargs guarded) (invoke loader now' nargs guarded) := by
  -- The callee of a protected call is called with one argument less, which is what goes down.
  induction nargs using Nat.strongRecOn generalizing guarded with
  | _ nargs ih =>
  rw [invoke.eq_def, invoke.eq_def loader now']
  refine coincide_get_bind fun p _ => ?_
  dsimp only
  split
  next => exact coincide_throw_bind _ _ _
  refine coincide_get_bind fun q _ => coincide_look fun callee => ?_
  cases callee with
  | ref r =>
    refine coincide_refl ?_
    dsimp only
    split
    next => exact upholds_throw_bind _ _
    next => exact upkeep_goOn (Actor.upkeep_enter upkeep_undated _ nargs guarded)
  | native id =>
    refine coincide_look fun body => ?_
    cases body with
    | function builtin => exact coincide_callBuiltin builtin _ guarded
    | protectedCall =>
      cases nargs with
      | zero => exact coincide_throw _
      | succ nargs =>
        refine coincide_bind (upkeep_onStack upkeep_undated _).discard fun _ => ?_
        refine coincide_get_bind fun depth _ => ?_
        refine coincide_attempt (ih nargs (Nat.lt_succ_self nargs) true) fun fault => ?_
        refine upholds_get_bind fun r _ => ?_
        split
        next =>
          refine (Actor.upkeep_truncateStack upkeep_undated _).bind fun _ _ => ?_
          exact upkeep_goOn (Actor.upkeep_pushFailure upkeep_undated fault)
        next => exact upholds_throw fault
  | _ => exact coincide_throw _

/-- A receive that has no timeout does not look at the clock. One that has a timeout and has not
been tried before times out at once or waits until a point in time. -/
theorem coincide_receive (ip : Nat) (displacement : Int32) (length : Nat) :
    Coincide (receive now ip displacement length) (receive now' ip displacement length) := by
  refine coincide_get_bind fun p _ => coincide_look fun timeout => coincide_look fun target => ?_
  refine coincide_bind (upkeep_takeMessage? upkeep_undated) fun message => ?_
  cases message with
  | some message =>
    refine coincide_refl ((upkeep_onStack upkeep_undated _).bind fun _ _ => ?_)
    exact upkeep_goOn (upkeep_push upkeep_undated message)
  | none =>
    refine coincide_get_bind fun q hq => ?_
    have hfixed : q.receiveDeadline = none := hq
    have hjump : Upholds Undated (do
        onStack (Stack.pop 1)
        setIp target
        return (none : Option Outcome)) fun _ => True :=
      (upkeep_onStack upkeep_undated _).bind fun _ _ =>
        upkeep_goOn (upkeep_setIp upkeep_undated target)
    rw [hfixed]
    cases timeout with
    | none =>
      exact coincide_refl ((upkeep_setIp upkeep_undated ip).bind fun _ _ => upholds_pure trivial)
    | some delay =>
      intro r hr
      have hat : ∀ now : Time, now + delay ≤ now ↔ delay = 0 := fun now =>
        ⟨fun h => Nat.eq_zero_of_not_pos fun hpos =>
            absurd h (Nat.not_le.2 (Nat.lt_add_of_pos_right hpos)),
          fun h => Nat.le_of_eq (congrArg (now + ·) h)⟩
      dsimp only [Option.map_some, Option.getD_none, Option.isSome_some]
      rw [if_pos rfl, if_pos rfl, ensures_bind, ensures_modify]
      simp only [Option.any_some, decide_eq_true_eq, hat]
      split
      next =>
        -- Whatever the time is, it has come.
        exact coincide_refl hjump { r with receiveDeadline := none } rfl
      next =>
        rw [ensures_bind]
        exact (ensures_result (setIp ip) _).mono (fun _ _ _ => .inl trivial) fun _ _ h => by cases h

/-- Of the instructions, calls and receives are those that may look at the clock. -/
theorem coincide_execute (f : Frame) (ip : Nat) (i : Instruction) :
    Coincide (execute loader now f ip i) (execute loader now' f ip i) := by
  cases i with
  | call nargs => exact coincide_invoke nargs.toNat false
  | receive displacement => exact coincide_receive ip displacement _
  | remove =>
    refine coincide_refl ((upkeep_remove upkeep_undated).discard.bind fun _ _ => upkeep_goOn ?_)
    exact upholds_modify fun _ _ => rfl
  | _ => exact coincide_refl (upkeep_execute upkeep_undated loader now f ip nofun nofun)

theorem coincide_step (loader : Loader) (now now' : Time) :
    Coincide (step loader now) (step loader now') := by
  refine coincide_get_bind fun p _ => ?_
  split
  next => exact coincide_refl (upholds_pure trivial)
  next f outer hframes =>
    refine coincide_bind (upkeep_setIp upkeep_undated _) fun _ => ?_
    split
    next instruction _ => exact coincide_execute f f.ip instruction
    next => exact coincide_refl (upkeep_returnFrom upkeep_undated f)

/-- An instruction that does not ask to wait until a point in time does the same at all times, and
leaves the actor without a deadline. -/
theorem advance_anytime (hp : p.Undated) (loader : Loader) (now now' : Time) :
    Timed (advance loader now p).1 ∨
      (advance loader now' p = advance loader now p ∧ (advance loader now p).2.Undated) := by
  have hstep := coincide_step loader now now' p hp
  rw [advance, advance]
  cases hrun : step loader now p with
  | ok o q =>
    refine (hstep.of_ok hrun).imp_right fun ⟨hrun', hq⟩ => ?_
    rw [hrun']
    exact ⟨rfl, hq⟩
  | error fault q =>
    obtain ⟨hrun', hq⟩ := hstep.of_error hrun
    rw [hrun']
    refine .inr ⟨rfl, ?_⟩
    dsimp only
    cases hunwind : Actor.unwind fault q with
    | ok _ r => exact ((Actor.undated_unwind fault).of_ok hq hunwind).1
    | error fault' r => exact (Actor.undated_unwind fault).of_error hq hunwind

end Machine

end ActorMachine
