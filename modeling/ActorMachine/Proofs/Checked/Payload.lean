import ActorMachine.Proofs.Checked.Heap
import ActorMachine.Payload

/-!
# Copying that can crash

A captured buffer takes the bytes in use for granted, and a buffer that is rebuilt takes for granted
that it has got as many of them as are copied into it.

* `capture_eq`: nothing in a firm heap makes capturing crash.
* `secure_materialize`: nor does rebuilding a payload, whatever it consists of.
-/

namespace ActorMachine.Payload

open Crashing
open Heap (Firm)

variable {h : Heap} {α β : Type}

/-! ### What copying takes for granted -/

namespace Checked

/-- Captures a value whose content is nested at most `depth` references deep. -/
def captureWithin (h : Heap) : Nat → Value → ExceptT Failure Option Payload
  | _, .nil => return nil
  | _, .bool b => return bool b
  | _, .int i => return int i
  | _, .real x => return real x
  | _, .pid p => return pid p
  | _, .native id => return native id
  | 0, .ref _ => .mk none
  | depth + 1, .ref r => do
    match ← answer (faulty (h.deref r)) with
    | .string text => return string text
    | .fixedBuffer bytes => return fixedBuffer bytes
    | .buffer _ => return buffer (← answer (Heap.Checked.bufferBytes h r))
    | .closure routine upvalues =>
      return closure routine (← upvalues.toList.mapM (captureWithin h depth))
where
  /-- A result that is known is an answer. -/
  answer {α : Type} (result : Except Failure α) : ExceptT Failure Option α :=
    .mk (some result)

/-- Captures a value of a heap. -/
def capture (h : Heap) (v : Value) : Except Failure Payload :=
  (captureWithin h (h.slots.size + 1) v).run.getD (.error (.fault .staleHandle))

mutual

/-- Rebuilds a value in a heap. -/
def materialize : Payload → Crashing Heap Value
  | nil => return .nil
  | bool b => return .bool b
  | int i => return .int i
  | real x => return .real x
  | pid p => return .pid p
  | native id => return .native id
  | string text => .ref <$> Heap.Checked.allocString text
  | fixedBuffer bytes => do
    let r ← Heap.Checked.allocFixed bytes.size
    Heap.Checked.fillFixed r bytes
    return .ref r
  | buffer bytes => do
    let r ← Heap.Checked.allocBuffer bytes.size
    Heap.Checked.resizeBuffer r bytes.size
    Heap.Checked.fillBuffer r bytes
    return .ref r
  | closure routine upvalues => do
    let values ← materializeAll upvalues
    .ref <$> Heap.Checked.allocClosure routine values.toArray

/-- Rebuilds values in a heap, one after the other. -/
def materializeAll : List Payload → Crashing Heap (List Value)
  | [] => return []
  | p :: ps => do
    let v ← materialize p
    return v :: (← materializeAll ps)

end

end Checked

/-! ### Capturing -/

/-- An answer that is no crash. -/
def plainly (answer : ExceptT Fault Option α) : ExceptT Failure Option α :=
  .mk (answer.run.map faulty)

theorem plainly_bind (answer : ExceptT Fault Option α) (f : α → ExceptT Fault Option β) :
    plainly (answer >>= f) = plainly answer >>= fun a => plainly (f a) := by
  rcases answer with _ | _ | a <;> rfl

theorem plainly_mapM (f : α → ExceptT Fault Option β) (as : List α) :
    plainly (as.mapM f) = as.mapM fun a => plainly (f a) := by
  induction as with
  | nil => rfl
  | cons a as ih =>
    rw [List.mapM_cons, List.mapM_cons, plainly_bind]
    congr 1
    funext b
    rw [plainly_bind, ih]
    rfl

/-- The bytes of a buffer that is met are there. -/
theorem captureWithin_eq (hh : h.Housed) (depth : Nat) (v : Value) :
    Checked.captureWithin h depth v = plainly (captureWithin h depth v) := by
  induction depth generalizing v with
  | zero => cases v <;> rfl
  | succ depth ih =>
    cases v with
    | ref r =>
      have hrecursive :
          Checked.captureWithin h depth = fun v => plainly (captureWithin h depth v) :=
        funext ih
      rw [Checked.captureWithin, captureWithin, plainly_bind]
      congr 1
      funext object
      cases object with
      -- Only the bytes of a buffer are taken for granted, and closures are looked into.
      | buffer header =>
        dsimp only
        rw [plainly_bind, Heap.bufferBytes_eq hh]
        rfl
      | closure routine upvalues =>
        dsimp only
        rw [plainly_bind, plainly_mapM, hrecursive]
        rfl
      | _ => rfl
    | _ => rfl

theorem capture_eq (hh : h.Housed) (v : Value) :
    Checked.capture h v = faulty (capture h v) := by
  rw [Checked.capture, captureWithin_eq hh, capture, plainly]
  cases (captureWithin h (h.slots.size + 1) v).run <;> rfl

/-! ### Rebuilding -/

/-- A fixed buffer is as large as what is copied into it. -/
theorem secure_fixedBuffer (bytes : ByteArray) :
    Secure Firm (Checked.materialize (fixedBuffer bytes)) (materialize (fixedBuffer bytes))
      fun _ => True where
  runs h hh := by
    rw [Checked.materialize, materialize]
    refine ((Heap.secure_allocFixed bytes.size).runs h hh).bind ?_
    rw [Heap.allocFixed, ensures_bind, Heap.ensures_reserve]
    refine ⟨fun _ => ?_, fun _ => trivial⟩
    rw [Heap.ensures_insert]
    have hregion : (h.store (.fixedBuffer (zeroBytes bytes.size))).2.region h.nextHandle =
        .ok (zeroBytes bytes.size) := by
      rw [Heap.region_eq_ok_iff, Heap.lookup?_store hh.balanced.freeList, if_pos rfl]
    refine Runs.bind_sure ?_ fun _ => pure _
    refine runs_get_left (runs_look_left hregion ?_)
    exact runs_grant (sameSize_eq_ok (size_zeroBytes _).symm) (runs_sure _ _)
  upholds := by
    rw [materialize]
    refine (Heap.secure_allocFixed bytes.size).upholds.bind fun r _ => ?_
    exact (Heap.firm_writeFixed r 0 bytes).bind fun _ _ => upholds_pure trivial

/-- A buffer has got the size of what is copied into it. -/
theorem secure_buffer (bytes : ByteArray) :
    Secure Firm (Checked.materialize (buffer bytes)) (materialize (buffer bytes))
      fun _ => True where
  runs h hh := by
    rw [Checked.materialize, materialize]
    refine (Heap.secure_allocBuffer bytes.size).runs_bind hh fun r t ht hsize => ?_
    refine ((Heap.secure_resizeBuffer r hsize).runs t ht).bind ?_
    refine (Heap.performs_resizeBuffer ht.balanced ht.housed ht.limit_le r hsize).mono ?_
      fun _ _ _ => trivial
    rintro _ u ⟨v, hturns⟩
    refine Runs.bind_sure ?_ fun _ => pure _
    refine Heap.runs_fillBuffer hturns.housed fun header hheader => ?_
    -- What was resized to a size has it, whatever it held before.
    rw [← (hturns.after.eq_of_header hturns.housed hheader).1]
    simp only [ByteVector.resize, List.length_append, List.length_take, List.length_replicate]
    omega
  upholds := by
    rw [materialize]
    refine (Heap.secure_allocBuffer bytes.size).upholds.bind fun r hsize => ?_
    refine (Heap.secure_resizeBuffer r hsize).upholds.bind fun _ _ => ?_
    exact (Heap.firm_writeBuffer r 0 bytes).bind fun _ _ => upholds_pure trivial

mutual

/-- Whatever a payload consists of can be rebuilt without a crash. -/
theorem secure_materialize (payload : Payload) :
    Secure Firm (Checked.materialize payload) payload.materialize fun _ => True := by
  cases payload with
  | nil | bool | int | real | pid | native =>
    rw [Checked.materialize, materialize]
    exact secure_pure trivial
  | string text =>
    rw [Checked.materialize, materialize]
    exact (Heap.secure_allocString text).map fun _ _ => trivial
  | fixedBuffer bytes => exact secure_fixedBuffer bytes
  | buffer bytes => exact secure_buffer bytes
  | closure routine upvalues =>
    rw [Checked.materialize, materialize]
    refine (secure_materializeAll upvalues).bind fun values _ => ?_
    exact (Heap.secure_allocClosure routine _).map fun _ _ => trivial

theorem secure_materializeAll (payloads : List Payload) :
    Secure Firm (Checked.materializeAll payloads) (materializeAll payloads) fun _ => True := by
  cases payloads with
  | nil =>
    rw [Checked.materializeAll, materializeAll]
    exact secure_pure trivial
  | cons payload payloads =>
    rw [Checked.materializeAll, materializeAll]
    refine (secure_materialize payload).bind fun _ _ => ?_
    exact (secure_materializeAll payloads).bind fun _ _ => secure_pure trivial

end

end ActorMachine.Payload
