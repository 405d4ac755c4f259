import ActorMachine.Proofs.Machine.Upkeep
import Mathlib.Data.List.TakeWhile

/-!
# What leaves the deadline of a receive alone

An actor has one deadline, for the receive in progress. `Actor.Dated` says what it is. It asks for
nothing but the deadline (`upkeep_dated`), so every operation leaves it alone that has nothing to do
with it. These are all but three: a receive fixes the deadline and clears it, the removal of a
message clears it, and so does unwinding, where a guarded call catches the fault
(`ensures_unwind`).
-/

namespace ActorMachine

variable {α : Type} {deadline : Option Time}

namespace Actor

variable {p : Actor} {act : Action α}

/-- This is the deadline of the receive in progress, if there is one. -/
def Dated (deadline : Option Time) (p : Actor) : Prop :=
  p.receiveDeadline = deadline

/-- The deadline is all that is asked for. -/
theorem upkeep_dated :
    Upkeep (fun _ => True) (fun _ => True) (Dated deadline) where
  heap _ := trivial
  mailbox _ := trivial
  heap_closed _ _ _ := trivial
  mailbox_closed _ _ _ := trivial
  congr hp _ _ hdeadline := hdeadline.trans hp

/-- What leaves the deadline alone does so whether it fails or not. -/
theorem Dated.ensures (hp : Dated deadline p) (hact : Upholds (Dated deadline) act fun _ => True) :
    Ensures act p (fun _ q => Dated deadline q) fun _ q => Dated deadline q :=
  (hact p hp).mono (fun _ _ h => h.1) fun _ _ h => h

/-- A fault that a guarded call catches takes the deadline with it, even if there is no room for a
report. Without a guarded call there is nothing that unwinding changes. -/
theorem ensures_unwind (p : Actor) (fault : Fault) :
    Ensures (unwind fault) p
      (fun _ q => Dated (if p.frames.any Frame.guarded then none else p.receiveDeadline) q)
      (fun _ q => Dated (if p.frames.any Frame.guarded then none else p.receiveDeadline) q) := by
  have hnil : p.frames.dropWhile (fun f => !f.guarded) = [] ↔
      p.frames.any Frame.guarded = false := by
    simp [List.dropWhile_eq_nil_iff]
  rw [unwind, ensures_bind, ensures_get]
  cases hdrop : p.frames.dropWhile fun f => !f.guarded with
  | nil =>
    rw [hnil.1 hdrop]
    exact rfl
  | cons f outer =>
    have hcaught : p.frames.any Frame.guarded = true := by
      rw [← Bool.not_eq_false, ← hnil, hdrop]
      exact List.cons_ne_nil f outer
    -- The deadline is cleared before the report, so it does not matter what becomes of that.
    rw [hcaught, if_pos rfl, ensures_bind, truncateStack, ensures_modify, ensures_bind,
      ensures_modify]
    apply Dated.ensures
    · exact rfl
    · exact upkeep_pushFailure upkeep_dated fault

end Actor

end ActorMachine
