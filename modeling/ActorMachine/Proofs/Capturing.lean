import ActorMachine.Proofs.Content
import ActorMachine.Proofs.Heap.Closures
import ActorMachine.Proofs.Heap.Handles
import ActorMachine.Proofs.Machine.Reached

/-!
# Capturing comes to an end

A capture follows the upvalues of closures and keeps no record of where it has been. It comes to an
end because a closure can only be allocated over what is there already. Slots and their numbers have
no part in this, for slots are used again in any order: what goes down from a closure to its upvalues
is the time at which a handle first reached something.

* `Settles`: a capture has an answer, a payload or a fault, and has it at every depth that exceeds the
  number of slots.
* `Heap.Descends`: closures rank above what they have captured. `settles_of_descends` counts the slots
  below a closure, which bounds the depth.
* `Heap.arrival`, `Heap.Unforged`: the time at which a handle first reaches something, and histories
  in which no closure is allocated over a handle that was made up by hand.
* `Heap.descends_afterAll`: in such histories closures rank by their times.
* `captures_settle`: so captures come to an end in all heaps with such a history, and in those of all
  actors.
-/

namespace ActorMachine

variable {h : Heap} {v : Value} {x : Handle} {r : HeapRef}

/-! ### Ranks of closures -/

/-- Each closure ranks above what it has captured, be that still there or not. -/
def Heap.Descends (h : Heap) (rank : Handle → Nat) : Prop :=
  ∀ x routine upvalues, h.lookup? x = some (.closure routine upvalues) →
    ∀ r, .ref r ∈ upvalues → rank r.handle < rank x

namespace Payload

/-- A capture comes to an end: there is an answer, the same one at every depth above the number of
slots. -/
def Settles (h : Heap) (v : Value) : Prop :=
  ∀ depth, h.slots.size < depth → captureWithin h depth v = .mk (some (capture h v))

/-- A result is an answer, that is, the depth has sufficed. -/
def Answers {α : Type} (result : ExceptT Fault Option α) : Prop :=
  ∃ answer, result = .mk (some answer)

theorem Answers.bind {α β : Type} {result : ExceptT Fault Option α}
    {f : α → ExceptT Fault Option β} (hresult : Answers result)
    (hf : ∀ a, result = pure a → Answers (f a)) : Answers (result >>= f) := by
  obtain ⟨fault | a, rfl⟩ := hresult
  · exact ⟨.error fault, rfl⟩
  · exact hf a rfl

/-- Capturing values one after the other has an answer if capturing each of them has. -/
theorem answers_mapM {α β : Type} {f : α → ExceptT Fault Option β} {as : List α}
    (hf : ∀ a ∈ as, Answers (f a)) : Answers (as.mapM f) := by
  induction as with
  | nil => exact ⟨.ok [], rfl⟩
  | cons a as ih =>
    rw [List.mapM_cons]
    obtain ⟨ha, has⟩ := List.forall_mem_cons.1 hf
    exact ha.bind fun b _ => (ih has).bind fun bs _ => ⟨.ok (b :: bs), rfl⟩

/-- A slot of the heap is not among those below it. -/
theorem slotsBelow_lt_size {rank : Nat → Nat} {i : Nat} (hi : i < h.slots.size) :
    slotsBelow h rank i < h.slots.size := by
  have hsub : (Finset.range h.slots.size).filter (fun j => rank j < rank i) ⊂
      Finset.range h.slots.size :=
    Finset.filter_ssubset.2 ⟨i, Finset.mem_range.2 hi, Nat.lt_irrefl _⟩
  simpa [slotsBelow] using Finset.card_lt_card hsub

/-- A capture has an answer once the depth exceeds the number of slots below the value. -/
theorem answers_captureWithin (rank : Nat → Nat)
    (hrank : ∀ {x routine upvalues object}, h.lookup? x = some (.closure routine upvalues) →
      ∀ r, .ref r ∈ upvalues → h.lookup? r.handle = some object → rank r.handle.index < rank x.index)
    (depth : Nat) (v : Value)
    (hdepth : ∀ r, v = .ref r → 0 < depth ∧ ∀ object, h.lookup? r.handle = some object →
      slotsBelow h rank r.handle.index + 1 < depth) :
    Answers (captureWithin h depth v) := by
  -- Each closure on the way down has fewer slots below it, so the depth is never used up.
  induction depth generalizing v with
  | zero =>
    cases v with
    | ref r => exact absurd (hdepth r rfl).1 (Nat.lt_irrefl 0)
    | _ => exact ⟨_, rfl⟩
  | succ depth ih =>
    cases v with
    | ref r =>
      rw [captureWithin]
      refine Answers.bind ⟨h.deref r, rfl⟩ fun object hobject => ?_
      have hlook := (Heap.deref_eq_ok_iff.1 (Option.some.inj hobject)).1
      have hlt := (hdepth r rfl).2 object hlook
      cases object with
      | string text => exact ⟨_, rfl⟩
      | fixedBuffer bytes => exact ⟨_, rfl⟩
      | buffer header => exact Answers.bind ⟨h.bufferBytes r, rfl⟩ fun bytes _ => ⟨_, rfl⟩
      | closure routine upvalues =>
        have hups : Answers (upvalues.toList.mapM (captureWithin h depth)) := by
          refine answers_mapM fun u hu => ih u ?_
          rintro s rfl
          refine ⟨by omega, fun object hlook' => ?_⟩
          have hlt' := slotsBelow_lt (Heap.index_lt_of_lookup? hlook')
            (hrank hlook s (Array.mem_toList_iff.1 hu) hlook')
          omega
        exact hups.bind fun payloads _ => ⟨_, rfl⟩
    | _ => exact ⟨_, rfl⟩

/-- Where closures rank above what they have captured, captures come to an end. -/
theorem settles_of_descends {rank : Handle → Nat} (hdescends : h.Descends rank) (v : Value) :
    Settles h v := by
  -- A slot ranks as the handle of its object, which is the only one that leads there.
  have hanswers : Answers (captureWithin h (h.slots.size + 1) v) := by
    refine answers_captureWithin (fun i => rank ⟨i, h.generationAt i⟩) ?_ _ v ?_
    · intro x routine upvalues object hlook r hr hlook'
      rw [← Heap.eq_of_lookup? hlook rfl, ← Heap.eq_of_lookup? hlook' rfl]
      exact hdescends x routine upvalues hlook r hr
    · rintro r -
      refine ⟨Nat.succ_pos _, fun object hlook => Nat.succ_lt_succ ?_⟩
      exact slotsBelow_lt_size (Heap.index_lt_of_lookup? hlook)
  obtain ⟨answer, hanswer⟩ := hanswers
  have hcapture : capture h v = answer := by
    rw [capture, hanswer]
    rfl
  intro depth hdepth
  rw [hcapture]
  exact captureWithin_extends_of_le v hdepth _ hanswer

end Payload

namespace Heap

variable {config : HeapConfig} {op : Operation} {ops : List Operation} {t : Heap}
  {routine : Routine} {upvalues : Array Value}

/-! ### Histories -/

/-- Number of operations that are done before a handle first reaches something. -/
def arrival (x : Handle) : List Operation → Heap → Nat
  | [], _ => 0
  | op :: ops, h => if (h.lookup? x).isSome then 0 else arrival x ops (op.after h) + 1

/-- A handle arrives no later than it is seen to reach something. -/
theorem arrival_le {earlier later : List Operation}
    (hthere : ((afterAll earlier h).lookup? x).isSome) :
    arrival x (earlier ++ later) h ≤ earlier.length := by
  induction earlier generalizing h with
  | nil =>
    have hnow : (h.lookup? x).isSome := hthere
    cases later with
    | nil => exact Nat.le_refl 0
    | cons op later => simp [arrival, hnow]
  | cons op earlier ih =>
    rw [List.cons_append, arrival]
    split
    · exact Nat.zero_le _
    · exact Nat.succ_le_succ (ih hthere)

/-- A handle that has reached nothing before an operation arrives with it or later. -/
theorem lt_arrival {before later : List Operation}
    (hnone : ∀ earlier between, before = earlier ++ between →
      (afterAll earlier h).lookup? x = none) :
    before.length < arrival x (before ++ op :: later) h := by
  have hnow : h.lookup? x = none := hnone [] before rfl
  induction before generalizing h with
  | nil => simp [arrival, hnow]
  | cons op' before ih =>
    rw [List.cons_append, arrival, hnow]
    have hrest : ∀ earlier between, before = earlier ++ between →
        (afterAll earlier (op'.after h)).lookup? x = none :=
      fun earlier between heq => hnone (op' :: earlier) between (congrArg (op' :: ·) heq)
    exact Nat.succ_lt_succ (ih hrest (hrest [] before rfl))

/-- A reference was given out in the course of a history: its handle has reached something at some
time. Allocations answer such references, and there are such handles in headers. How the reference is
tagged plays no part. -/
def Issued (config : HeapConfig) (before : List Operation) (r : HeapRef) : Prop :=
  ∃ earlier later, before = earlier ++ later ∧
    ((afterAll earlier (empty config)).lookup? r.handle).isSome

/-- What an allocation has answered was given out. -/
theorem issued_of_made {earlier later : List Operation}
    (hmade : op.run (afterAll earlier (empty config)) = .ok (.made r) t) :
    Issued config (earlier ++ op :: later) r := by
  have hfree := (accounts_afterAll (accounts_empty config) earlier).1.balanced.freeList
  obtain ⟨-, object, hderef⟩ := new_of_made hfree hmade
  refine ⟨earlier ++ [op], later, by simp, ?_⟩
  rw [afterAll_append, afterAll_of_run hmade]
  exact Option.isSome_iff_exists.2 ⟨object, (deref_eq_ok_iff.1 hderef).1⟩

/-- In a history closures are only allocated over references that were given out before. -/
def Unforged (config : HeapConfig) (ops : List Operation) : Prop :=
  ∀ before routine upvalues later, ops = before ++ .allocClosure routine upvalues :: later →
    ∀ r, .ref r ∈ upvalues → Issued config before r

theorem unforged_nil : Unforged config [] := by
  intro before routine upvalues later heq
  simp at heq

/-- A history may go on by anything but a closure over a reference that was not given out. -/
theorem Unforged.concat (hforged : Unforged config ops)
    (hop : ∀ routine upvalues, op = .allocClosure routine upvalues →
      ∀ r, .ref r ∈ upvalues → Issued config ops r) : Unforged config (ops ++ [op]) := by
  intro before routine upvalues later heq r hr
  rcases List.eq_nil_or_concat' later with rfl | ⟨later, last, rfl⟩
  · obtain ⟨rfl, hlast⟩ := List.append_inj' heq rfl
    exact hop routine upvalues (List.cons.inj hlast).1 r hr
  · rw [← List.cons_append, ← List.append_assoc] at heq
    exact hforged before routine upvalues later (List.append_inj' heq rfl).1 r hr

/-- A closure of a heap was allocated in the history of the heap, under a handle that reached nothing
just before. -/
theorem exists_allocClosure
    (hlook : (afterAll ops (empty config)).lookup? x = some (.closure routine upvalues)) :
    ∃ before later, ops = before ++ .allocClosure routine upvalues :: later ∧
      (afterAll before (empty config)).lookup? x = none := by
  induction ops using List.reverseRecOn with
  | nil => simp [afterAll, lookup?, empty] at hlook
  | append_singleton ops op ih =>
    have hfree := (accounts_afterAll (accounts_empty config) ops).1.balanced.freeList
    rw [afterAll_append] at hlook
    -- The last operation has allocated it, unless it was there before.
    rcases closure_of_after hfree hlook with hbefore | ⟨rfl, hnone⟩
    · obtain ⟨before, later, rfl, hnone⟩ := ih hbefore
      exact ⟨before, later ++ [op], by simp, hnone⟩
    · exact ⟨ops, [], rfl, hnone⟩

/-- A handle that reaches something at the end of a history and nothing at some time before has
reached nothing until then. -/
theorem lookup?_eq_none_before {earlier between later : List Operation}
    (hclear : .clear ∉ earlier ++ between ++ later)
    (hfew : ∀ i, timesFreed i (earlier ++ between ++ later) (empty config) < 2 ^ 32)
    (hthere : ((afterAll (earlier ++ between ++ later) (empty config)).lookup? x).isSome)
    (hgone : (afterAll (earlier ++ between) (empty config)).lookup? x = none) :
    (afterAll earlier (empty config)).lookup? x = none := by
  by_contra hsome
  obtain ⟨object, hlook⟩ := Option.ne_none_iff_exists'.1 hsome
  have hacc := (accounts_afterAll (accounts_empty config) earlier).1
  rw [List.append_assoc] at hclear hthere
  have hfew' := hfew x.index
  rw [List.append_assoc, timesFreed_append] at hfew'
  rw [afterAll_append] at hgone hthere
  -- Otherwise it would reach nothing from the time on at which it did not.
  have hnone := lookup?_eq_none_of_between hacc
    (fun hmem => hclear (List.mem_append_right _ hmem))
    (Nat.lt_of_le_of_lt (Nat.le_add_left _ _) hfew') hlook hgone
  rw [hnone] at hthere
  cases hthere

/-- What a closure has captured has arrived before the closure, whatever slots they are in. -/
theorem descends_afterAll (hclear : .clear ∉ ops) (hforged : Unforged config ops)
    (hfew : ∀ i, timesFreed i ops (empty config) < 2 ^ 32) :
    (afterAll ops (empty config)).Descends fun x => arrival x ops (empty config) := by
  intro x routine upvalues hlook r hr
  obtain ⟨before, later, rfl, hnone⟩ := exists_allocClosure hlook
  obtain ⟨earlier, between, rfl, hthere⟩ := hforged _ routine upvalues later rfl r hr
  -- The upvalue was seen before the closure was allocated, and the closure not until then.
  calc arrival r.handle (earlier ++ between ++ .allocClosure routine upvalues :: later)
          (empty config)
      ≤ earlier.length := by
        rw [List.append_assoc]
        exact arrival_le hthere
    _ ≤ (earlier ++ between).length := by simp
    _ < arrival x (earlier ++ between ++ .allocClosure routine upvalues :: later)
          (empty config) := by
        refine lt_arrival fun earlier' between' heq => ?_
        rw [heq] at hclear hfew hlook hnone
        exact lookup?_eq_none_before hclear hfew (Option.isSome_iff_exists.2 ⟨_, hlook⟩) hnone

end Heap

/-- The heap of an actor has ranks for its closures. -/
theorem Machine.exists_descends {config : ActorConfig} {p : Actor}
    (hreached : Machine.Reached config p) : ∃ rank, p.heap.Descends rank := by
  obtain ⟨rank, hrank⟩ := (steady_of_reached hreached).sound.heap.layered
  exact ⟨fun x => rank x.index, fun x routine upvalues hlook => hrank hlook⟩

namespace Payload

open Heap (afterAll empty Unforged timesFreed arrival)

/-- Captures come to an end. They do so in every heap that has come about by operations other than
dropping everything, provided that closures are only allocated over references that were given out
before and that no slot loses as many objects as there are generations: there, what a closure has
captured has arrived before the closure, in whatever order slots are used again. And they do so in
the heap of every actor, whatever code it runs and whatever messages it gets. -/
theorem captures_settle :
    (∀ (config : HeapConfig) (ops : List Heap.Operation), .clear ∉ ops → Unforged config ops →
      (∀ i, timesFreed i ops (empty config) < 2 ^ 32) →
        (∀ v, Settles (afterAll ops (empty config)) v) ∧
          (afterAll ops (empty config)).Descends fun x => arrival x ops (empty config)) ∧
      ∀ (config : ActorConfig) (p : Actor), Machine.Reached config p →
        (∀ v, Settles p.heap v) ∧ ∃ rank, p.heap.Descends rank := by
  constructor
  · intro config ops hclear hforged hfew
    have hdescends := Heap.descends_afterAll hclear hforged hfew
    exact ⟨settles_of_descends hdescends, hdescends⟩
  · intro config p hreached
    obtain ⟨rank, hdescends⟩ := Machine.exists_descends hreached
    exact ⟨settles_of_descends hdescends, rank, hdescends⟩

/-- A closure over a string, and one over that closure in the slot that another string had before. -/
def reusing : List Heap.Operation :=
  [.allocString "gone", .allocString "kept",
    .allocClosure Machine.keeper #[.ref ⟨.string, ⟨1, 0⟩⟩], .release ⟨0, 0⟩,
    .allocClosure Machine.keeper #[.ref ⟨.closure, ⟨2, 0⟩⟩]]

/-- The string and the first closure were allocated before they were captured. -/
theorem unforged_reusing : Unforged {} reusing := by
  have hstring : Heap.Issued {} ([.allocString "gone"] ++ .allocString "kept" :: [])
      ⟨.string, ⟨1, 0⟩⟩ := Heap.issued_of_made rfl
  have hclosure : Heap.Issued {} ([.allocString "gone", .allocString "kept"] ++
      .allocClosure Machine.keeper #[.ref ⟨.string, ⟨1, 0⟩⟩] :: [.release ⟨0, 0⟩])
      ⟨.closure, ⟨2, 0⟩⟩ := Heap.issued_of_made rfl
  have hgone : Unforged {} ([] ++ [.allocString "gone"]) := Heap.unforged_nil.concat nofun
  have hkept : Unforged {} ([.allocString "gone"] ++ [.allocString "kept"]) := hgone.concat nofun
  have hfirst : Unforged {} ([.allocString "gone", .allocString "kept"] ++
      [.allocClosure Machine.keeper #[.ref ⟨.string, ⟨1, 0⟩⟩]]) := by
    refine hkept.concat ?_
    rintro _ _ ⟨⟩ r hr
    obtain rfl : r = ⟨.string, ⟨1, 0⟩⟩ := by simpa using hr
    exact hstring
  have hreleased : Unforged {} ([.allocString "gone", .allocString "kept",
      .allocClosure Machine.keeper #[.ref ⟨.string, ⟨1, 0⟩⟩]] ++ [.release ⟨0, 0⟩]) :=
    hfirst.concat nofun
  refine hreleased.concat ?_
  rintro _ _ ⟨⟩ r hr
  obtain rfl : r = ⟨.closure, ⟨2, 0⟩⟩ := by simpa using hr
  exact hclosure

/-- The closure in the first slot has captured the one in the last slot, which came before it. -/
theorem captures_settle_reusing :
    let h := afterAll reusing (empty {})
    .clear ∉ reusing ∧ Unforged {} reusing ∧ (∀ i, timesFreed i reusing (empty {}) < 2 ^ 32) ∧
      captureWithin h 4 (.ref ⟨.closure, ⟨0, 1⟩⟩) =
        .mk (some (capture h (.ref ⟨.closure, ⟨0, 1⟩⟩))) ∧
      arrival ⟨2, 0⟩ reusing (empty {}) < arrival ⟨0, 1⟩ reusing (empty {}) ∧
      ∀ v, Settles (Machine.started {} (.closure Machine.keeper [.string "a"]) [.nil]).heap v := by
  intro h
  have hclear : .clear ∉ reusing := by simp [reusing]
  have hfew : ∀ i, timesFreed i reusing (empty {}) < 2 ^ 32 := fun i =>
    Nat.lt_of_le_of_lt (Heap.timesFreed_le_length i _ _) (by decide)
  obtain ⟨hsettles, hdescends⟩ := captures_settle.1 {} reusing hclear unforged_reusing hfew
  have hlook : h.lookup? ⟨0, 1⟩ =
      some (.closure Machine.keeper #[.ref ⟨.closure, ⟨2, 0⟩⟩]) := rfl
  have hreached : Machine.Reached {} (Machine.started {} (.closure Machine.keeper [.string "a"])
      [.nil]) := Machine.reached_started (by decide +kernel)
  refine ⟨hclear, unforged_reusing, hfew, hsettles _ 4 (by decide), ?_,
    (captures_settle.2 {} _ hreached).1⟩
  exact hdescends _ _ _ hlook ⟨.closure, ⟨2, 0⟩⟩ (by simp)

/-- A closure over its own handle, which was made up before. -/
def circular : List Heap.Operation :=
  [.allocClosure Machine.keeper #[.ref ⟨.closure, ⟨0, 0⟩⟩]]

/-- Its capture never has an answer. -/
example (depth : Nat) :
    captureWithin (afterAll circular (empty {})) depth (.ref ⟨.closure, ⟨0, 0⟩⟩) = .mk none := by
  induction depth with
  | zero => rfl
  | succ depth ih =>
    have hderef : (afterAll circular (empty {})).deref ⟨.closure, ⟨0, 0⟩⟩ =
      .ok (.closure Machine.keeper #[.ref ⟨.closure, ⟨0, 0⟩⟩]) := rfl
    rw [captureWithin, hderef]
    change (List.mapM (captureWithin _ depth) [_] >>= _) = _
    rw [List.mapM_cons, ih]
    rfl

end Payload

end ActorMachine
