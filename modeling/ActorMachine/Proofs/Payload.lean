import ActorMachine.Payload
import ActorMachine.Proofs.Heap.Actions
import Mathlib.Data.Finset.Card

/-!
# Capturing and rebuilding

Values that a sound heap backs can leave it, and what comes in is backed.

* `exists_capture`: capturing such a value never fails. The ranks of a sound heap bound how deep
  its closures are nested, so the depth that `Payload.capture` allows is enough.
* `safeAt_materialize`: rebuilding a payload keeps a heap sound and gives a value that it backs.
-/

namespace ActorMachine.Payload

open Heap (SafeAt)

variable {h : Heap}

/-! ### Capturing -/

/-- Capturing some values succeeds if capturing each of them does. -/
theorem exists_mapM_captureWithin {depth : Nat} {vs : List Value}
    (hvs : ∀ v ∈ vs, ∃ payload, captureWithin h depth v = pure payload) :
    ∃ payloads, vs.mapM (captureWithin h depth) = pure payloads := by
  induction vs with
  | nil => exact ⟨[], rfl⟩
  | cons v vs ih =>
    obtain ⟨payload, hpayload⟩ := hvs v (by simp)
    obtain ⟨payloads, hpayloads⟩ := ih fun w hw => hvs w (by simp [hw])
    exact ⟨payload :: payloads, by simp [List.mapM_cons, hpayload, hpayloads]⟩

/-- Number of slots whose rank is below that of a slot. -/
def slotsBelow (h : Heap) (rank : Nat → Nat) (index : Nat) : Nat :=
  ((Finset.range h.slots.size).filter fun i => rank i < rank index).card

/-- Fewer slots lie below a slot of the heap than below any slot of a higher rank. -/
theorem slotsBelow_lt {rank : Nat → Nat} {i j : Nat} (hi : i < h.slots.size)
    (hij : rank i < rank j) : slotsBelow h rank i < slotsBelow h rank j := by
  -- The slot itself lies below the other one but not below itself.
  refine Finset.card_lt_card ⟨fun k hk => ?_, fun hsub => ?_⟩
  · obtain ⟨hk, hki⟩ := Finset.mem_filter.1 hk
    exact Finset.mem_filter.2 ⟨hk, hki.trans hij⟩
  · have hself := hsub (Finset.mem_filter.2 ⟨Finset.mem_range.2 hi, hij⟩)
    exact absurd (Finset.mem_filter.1 hself).2 (Nat.lt_irrefl _)

theorem slotsBelow_le (h : Heap) (rank : Nat → Nat) (index : Nat) :
    slotsBelow h rank index ≤ h.slots.size := by
  refine (Finset.card_filter_le _ _).trans ?_
  rw [Finset.card_range]

/-- Capturing a backed value succeeds once the depth exceeds the number of slots below it. -/
theorem exists_captureWithin {rank : Nat → Nat} (hs : h.Sound)
    (hrank : ∀ {handle routine upvalues}, h.lookup? handle = some (.closure routine upvalues) →
      ∀ r, Value.ref r ∈ upvalues → rank r.handle.index < rank handle.index)
    (depth : Nat) (v : Value) (hv : h.Backs v)
    (hdepth : ∀ r, v = .ref r → slotsBelow h rank r.handle.index < depth) :
    ∃ payload, captureWithin h depth v = pure payload := by
  -- Each closure on the way down has fewer slots below it, so the depth is never used up.
  induction depth generalizing v with
  | zero =>
    cases v with
    | ref r => exact absurd (hdepth r rfl) (Nat.not_lt_zero _)
    | _ => exact ⟨_, rfl⟩
  | succ depth ih =>
    cases v with
    | ref r =>
      obtain ⟨object, hderef, hkind⟩ := hv.deref
      obtain ⟨hlook, -⟩ := Heap.deref_eq_ok_iff.1 hderef
      rw [captureWithin, hderef]
      cases object with
      | string text => exact ⟨_, rfl⟩
      | fixedBuffer bytes => exact ⟨_, rfl⟩
      | buffer header =>
        obtain ⟨bytes, hbytes, -⟩ := hs.storage hlook
        have hheader := Heap.header_eq_ok_iff.2 ⟨hlook, hkind.symm⟩
        have hall := Heap.bufferBytes_of_header hheader hbytes
        exact ⟨.buffer (bytes.extract 0 header.size), by simp only [hall]; rfl⟩
      | closure routine upvalues =>
        have hups : ∀ u ∈ upvalues.toList,
            ∃ payload, captureWithin h depth u = pure payload := by
          intro u hu
          have hmem : u ∈ upvalues := by simpa using hu
          refine ih u (hs.upvalues hlook u hmem) fun s heq => ?_
          subst heq
          obtain ⟨⟨o, ho, -⟩, -⟩ := hs.upvalues hlook _ hmem
          have hlt := slotsBelow_lt (Heap.index_lt_of_lookup? ho) (hrank hlook s hmem)
          have hle := hdepth r rfl
          omega
        obtain ⟨payloads, hpayloads⟩ := exists_mapM_captureWithin hups
        exact ⟨.closure routine payloads, by
          change (upvalues.toList.mapM (captureWithin h depth) >>= _) = _
          rw [hpayloads]
          rfl⟩
    | _ => exact ⟨_, rfl⟩

/-- Whatever a sound heap backs can be captured. -/
theorem exists_capture (hs : h.Sound) {v : Value} (hv : h.Backs v) :
    ∃ payload, capture h v = .ok payload := by
  obtain ⟨rank, hrank⟩ := hs.layered
  obtain ⟨payload, hpayload⟩ := exists_captureWithin hs hrank (h.slots.size + 1) v hv
    fun r _ => Nat.lt_succ_of_le (slotsBelow_le h rank _)
  exact ⟨payload, by rw [capture, hpayload]; rfl⟩

/-! ### Rebuilding -/

mutual

/-- Rebuilding a payload is safe and gives a value that is backed. -/
theorem safeAt_materialize {h : Heap} (hs : h.Sound) (payload : Payload) :
    h.SafeAt payload.materialize fun v t => t.Backs v := by
  cases payload with
  | string text =>
    rw [materialize, SafeAt, ensures_map]
    exact Heap.safeAt_allocString hs text
  | fixedBuffer bytes =>
    rw [materialize]
    refine (Heap.safeAt_allocFixed hs _).bind fun r t ht _ hr => ?_
    refine (Heap.safeAt_writeFixed ht r 0 bytes).bind fun _ u hu htu _ => ?_
    exact ⟨hu, .refl u, htu _ hr⟩
  | buffer bytes =>
    rw [materialize]
    refine (Heap.safeAt_allocBuffer hs _).bind fun r t ht _ hr => ?_
    refine (Heap.safeAt_resizeBuffer ht r _).bind fun _ u hu htu _ => ?_
    refine (Heap.safeAt_writeBuffer hu r 0 bytes).bind fun _ w hw huw _ => ?_
    exact ⟨hw, .refl w, huw _ (htu _ hr)⟩
  | closure routine upvalues =>
    rw [materialize]
    -- The upvalues are backed before the closure is made, so it refers to nothing that is not
    -- there.
    refine (safeAt_materializeAll hs upvalues).bind fun values t ht _ hvalues => ?_
    rw [SafeAt, ensures_map]
    exact Heap.safeAt_allocClosure ht routine (by simpa using hvalues)
  | _ =>
    rw [materialize]
    exact ⟨hs, .refl h, trivial⟩

/-- Rebuilding several payloads is safe and gives values that are backed. -/
theorem safeAt_materializeAll {h : Heap} (hs : h.Sound) (payloads : List Payload) :
    h.SafeAt (materializeAll payloads) fun vs t => ∀ v ∈ vs, t.Backs v := by
  cases payloads with
  | nil =>
    rw [materializeAll]
    exact ⟨hs, .refl h, by simp⟩
  | cons payload payloads =>
    rw [materializeAll]
    refine (safeAt_materialize hs payload).bind fun v t ht _ hv => ?_
    refine (safeAt_materializeAll ht payloads).bind fun vs u hu htu hvs => ?_
    exact ⟨hu, .refl u, by simpa using ⟨htu v hv, hvs⟩⟩

end

end ActorMachine.Payload
