import ActorMachine.Proofs.Content
import ActorMachine.Proofs.Heap.Effects
import ActorMachine.Proofs.Heap.Operations

/-!
# Copying payloads into any heap

Materializing needs nothing of the heap but room: whatever handles were made up and stored in it,
the copy reaches nothing that was there before.

* `captureWithin_of_adds`: what was captured can be captured after something was added.
* `materialize_adds`: a payload for which there is room is added for exactly the bytes it is said to
  cost, and nested no deeper than there are new objects.
* `materialize_exact`: so it captures to itself in any heap that has come about by operations.
-/

namespace ActorMachine

variable {h t : Heap} {m : Nat}

namespace Heap

/-! ### Single objects -/

section

variable {ok : HeapRef → Heap → Prop} {fail : Fault → Heap → Prop}

/-- An object for which there is room is added. -/
theorem ensures_alloc (hfree : h.FreeList) (object : HeapObject) {bytes : Nat}
    (hbytes : object.charge = bytes) (hroom : bytes ≤ h.available)
    (hok : ∀ r t, Adds bytes h t → h.lookup? r.handle = none →
      t.lookup? r.handle = some object → r.kind = object.kind → ok r t) :
    Ensures (do reserve bytes; insert object) h ok fail := by
  subst hbytes
  rw [ensures_bind, ensures_reserve]
  refine ⟨fun _ => ?_, fun hshort => absurd hroom (Nat.not_le.2 hshort)⟩
  rw [ensures_insert]
  refine hok _ _ (adds_store hfree object) (lookup?_nextHandle hfree) ?_ rfl
  rw [lookup?_store hfree, if_pos rfl]

/-- A growable buffer is added, which has the capacity that is asked for and no bytes in use. -/
theorem ensures_allocBuffer (hfree : h.FreeList) {capacity : Nat}
    (hroom : capacity + HeapObject.headerBytes ≤ h.available)
    (hok : ∀ r t storage, Adds (capacity + HeapObject.headerBytes) h t →
      h.lookup? r.handle = none → h.lookup? storage = none →
      t.header r = .ok { size := 0, capacity, storage } →
      t.lookup? storage = some (.fixedBuffer (zeroBytes capacity)) → ok r t) :
    Ensures (allocBuffer capacity) h ok fail := by
  rw [allocBuffer, ensures_bind, ensures_reserve]
  refine ⟨fun _ => ?_, fun hshort => absurd hroom (Nat.not_le.2 hshort)⟩
  rw [ensures_bind, ensures_insert, ensures_insert]
  obtain ⟨hne, hfresh⟩ := fresh_storeBuffer hfree (zeroBytes capacity)
  have hadds := (adds_store hfree (.fixedBuffer (zeroBytes capacity))).trans
    (adds_store (freeList_store hfree) (.buffer { size := 0, capacity, storage := h.nextHandle }))
  rw [HeapObject.charge, size_zeroBytes] at hadds
  refine hok _ _ h.nextHandle hadds hfresh (lookup?_nextHandle hfree)
    (header_eq_ok_iff.2 ⟨?_, rfl⟩) ?_
  · rw [lookup?_storeBuffer hfree, if_pos rfl]
  · rw [lookup?_storeBuffer hfree, if_neg hne.symm, if_pos rfl]

end

variable {ok : Value → Heap → Prop} {fail : Fault → Heap → Prop}

/-- A fixed buffer is added and filled. -/
theorem ensures_copyFixed (hfree : h.FreeList) (bytes : ByteArray)
    (hroom : bytes.size ≤ h.available)
    (hok : ∀ r t, Adds bytes.size h t → h.lookup? r.handle = none →
      t.lookup? r.handle = some (.fixedBuffer bytes) → r.kind = .fixedBuffer → ok (.ref r) t) :
    Ensures (Payload.fixedBuffer bytes).materialize h ok fail := by
  rw [Payload.materialize, ensures_bind]
  refine ensures_alloc hfree _ (size_zeroBytes _) hroom fun r t hadds hfresh hlook hkind => ?_
  rw [ensures_bind, ensures_writeFixed hkind hlook]
  refine hok r _ (hadds.update hfresh hlook _) hfresh ?_ hkind
  rw [lookup?_update_of_lookup? _ hlook, if_pos rfl]
  exact congrArg (some ∘ HeapObject.fixedBuffer) (overwriteBytes_of_size_eq (size_zeroBytes _).symm)

/-- A growable buffer is added and filled. It is as large as it has to be from the beginning. -/
theorem ensures_copyBuffer (hfree : h.FreeList) (bytes : ByteArray)
    (hroom : bytes.size + HeapObject.headerBytes ≤ h.available)
    (hok : ∀ r t header, Adds (bytes.size + HeapObject.headerBytes) h t →
      h.lookup? r.handle = none → t.header r = .ok header → t.bufferBytes r = .ok bytes →
      ok (.ref r) t) :
    Ensures (Payload.buffer bytes).materialize h ok fail := by
  rw [Payload.materialize, ensures_bind]
  refine ensures_allocBuffer hfree hroom fun r t storage hadds hfresh hstorage hheader hzero => ?_
  have hkind := (header_eq_ok_iff.1 hheader).2
  rw [ensures_bind, resizeBuffer, ensures_observe_bind hheader]
  dsimp only
  rw [if_neg (Nat.lt_irrefl _)]
  -- There is capacity for all bytes, so the storage does not move.
  have hne := storage_ne (header_eq_ok_iff.1 hheader).1 hzero
  refine (ensures_setSize hheader hzero bytes.size).mono (fun _ u hsized => ?_) fun _ _ => id
  rw [ensures_bind]
  refine (ensures_writeBuffer (header_eq_ok_iff.2 ⟨hsized.lookup?_header, hkind⟩)
    (hsized.lookup?_storage hne) 0 bytes).mono (fun _ w hwritten => ?_) fun _ _ => id
  have hheader' := header_eq_ok_iff.2 ⟨hwritten.lookup?_header, hkind⟩
  refine hok r w _ ((hadds.rewrites hsized hfresh hstorage).rewrites hwritten hfresh hstorage)
    hfresh hheader' ?_
  rw [bufferBytes_of_header hheader' (hwritten.lookup?_storage hne), overwriteBytes_of_size_eq]
  · exact congrArg Except.ok ByteArray.extract_zero_size
  · rw [size_sizedBytes, size_zeroBytes]

end Heap

namespace Payload

open Heap (Adds)

/-! ### Captures as objects are added -/

theorem liftExcept_eq_pure_iff {α : Type} {result : Except Fault α} {a : α} :
    captureWithin.liftExcept result = pure a ↔ result = .ok a :=
  ⟨Option.some.inj, congrArg some⟩

/-- A buffer that was there is there with its bytes. -/
theorem bufferBytes_of_adds (hht : Adds m h t) {r : HeapRef} {bytes : ByteArray}
    (hbytes : h.bufferBytes r = .ok bytes) : t.bufferBytes r = .ok bytes := by
  obtain ⟨header, hheader, hbytes⟩ := except_bind_eq_ok_iff.1 hbytes
  obtain ⟨region, hregion, hbytes⟩ := except_bind_eq_ok_iff.1 hbytes
  obtain ⟨hbuf, hkind⟩ := Heap.header_eq_ok_iff.1 hheader
  rw [Heap.bufferBytes_of_header (Heap.header_eq_ok_iff.2 ⟨hht.kept hbuf, hkind⟩)
    (hht.kept (Heap.region_eq_ok_iff.1 hregion))]
  exact hbytes

/-- What was captured can be captured after something was added. -/
theorem captureWithin_of_adds (hht : Adds m h t) {depth : Nat} {v : Value} {p : Payload}
    (hcapture : captureWithin h depth v = pure p) : captureWithin t depth v = pure p := by
  -- The induction is on how deep is looked: all objects that are met are where they were before.
  induction depth generalizing v p with
  | zero => cases v <;> exact hcapture
  | succ depth ih =>
    cases v with
    | ref r =>
      rw [captureWithin] at hcapture ⊢
      obtain ⟨object, hobject, hcapture⟩ := bind_eq_pure_iff.1 hcapture
      obtain ⟨hlook, hkind⟩ := Heap.deref_eq_ok_iff.1 (liftExcept_eq_pure_iff.1 hobject)
      have hobject' := Heap.deref_eq_ok_iff.2 ⟨hht.kept hlook, hkind⟩
      refine bind_eq_pure_iff.2 ⟨object, liftExcept_eq_pure_iff.2 hobject', ?_⟩
      cases object with
      | string text | fixedBuffer bytes => exact hcapture
      | buffer header =>
        obtain ⟨bytes, hbytes, hcapture⟩ := bind_eq_pure_iff.1 hcapture
        have hbytes' := bufferBytes_of_adds hht (liftExcept_eq_pure_iff.1 hbytes)
        exact bind_eq_pure_iff.2 ⟨bytes, liftExcept_eq_pure_iff.2 hbytes', hcapture⟩
      | closure routine upvalues =>
        obtain ⟨payloads, hpayloads, hcapture⟩ := bind_eq_pure_iff.1 hcapture
        refine bind_eq_pure_iff.2 ⟨payloads, mapM_eq_pure_iff.2 ?_, hcapture⟩
        exact (mapM_eq_pure_iff.1 hpayloads).imp fun _ _ => ih
    | _ => exact hcapture

/-! ### Copies -/

/-- A single new object is captured at depth one. -/
theorem exists_depth_of_fresh (hadds : Adds m h t) {r : HeapRef} {object : HeapObject} {p : Payload}
    (hfresh : h.lookup? r.handle = none) (hlook : t.lookup? r.handle = some object)
    (hcapture : captureWithin t 1 (.ref r) = pure p) :
    ∃ depth, h.liveObjects + depth ≤ t.liveObjects ∧ captureWithin t depth (.ref r) = pure p :=
  ⟨1, hadds.liveObjects_lt hfresh hlook, hcapture⟩

mutual

/-- A payload for which there is room is added, for exactly the bytes that it is said to cost. It
can be captured at a depth for which there are new objects. -/
theorem materialize_adds {h : Heap} (hfree : h.FreeList) (p : Payload)
    (hroom : p.heapBytes ≤ h.available) :
    Ensures p.materialize h
      (fun v t => Adds p.heapBytes h t ∧
        ∃ depth, h.liveObjects + depth ≤ t.liveObjects ∧ captureWithin t depth v = pure p)
      (fun _ _ => False) := by
  cases p with
  | string text =>
    rw [materialize, ensures_map]
    refine Heap.ensures_alloc hfree (.string text) rfl hroom fun r t hadds hfresh hlook hkind => ?_
    refine ⟨hadds, exists_depth_of_fresh hadds hfresh hlook ?_⟩
    rw [captureWithin, Heap.deref_eq_ok_iff.2 ⟨hlook, hkind.symm⟩]
    rfl
  | fixedBuffer bytes =>
    refine Heap.ensures_copyFixed hfree bytes hroom fun r t hadds hfresh hlook hkind => ?_
    refine ⟨hadds, exists_depth_of_fresh hadds hfresh hlook ?_⟩
    rw [captureWithin, Heap.deref_eq_ok_iff.2 ⟨hlook, hkind.symm⟩]
    rfl
  | buffer bytes =>
    refine Heap.ensures_copyBuffer hfree bytes hroom fun r t header hadds hfresh hheader hbytes => ?_
    obtain ⟨hlook, hkind⟩ := Heap.header_eq_ok_iff.1 hheader
    refine ⟨hadds, exists_depth_of_fresh hadds hfresh hlook ?_⟩
    rw [captureWithin, Heap.deref_eq_ok_iff.2 ⟨hlook, hkind.symm⟩]
    simp only [hbytes]
    rfl
  | closure routine upvalues =>
    rw [heapBytes] at hroom ⊢
    rw [materialize, ensures_bind]
    refine (materializeAll_adds hfree upvalues (by omega)).mono ?_ fun _ _ => id
    rintro values t ⟨hadds, depth, hdepth, hcapture⟩
    have hlength : values.toArray.size = upvalues.length :=
      (mapM_eq_pure_iff.1 hcapture).length_eq
    have hroom' : HeapObject.closureBytes values.toArray.size ≤ t.available := by
      rw [hadds.available, hlength]
      omega
    rw [ensures_map, ← hlength, Nat.add_comm (HeapObject.closureBytes _)]
    refine Heap.ensures_alloc hadds.freeList (.closure routine values.toArray) rfl hroom'
      fun r u hadds' hfresh hlook hkind => ?_
    refine ⟨hadds.trans hadds', depth + 1, ?_, ?_⟩
    · have := hadds'.liveObjects_lt hfresh hlook
      omega
    · rw [captureWithin, Heap.deref_eq_ok_iff.2 ⟨hlook, hkind.symm⟩]
      -- The upvalues were there before the closure was.
      have hvalues : values.mapM (captureWithin u depth) = pure upvalues :=
        mapM_eq_pure_iff.2 ((mapM_eq_pure_iff.1 hcapture).imp fun _ _ =>
          captureWithin_of_adds hadds')
      change (values.mapM (captureWithin u depth) >>= _) = _
      rw [hvalues]
      rfl
  | _ =>
    rw [materialize]
    exact ⟨.refl hfree, 0, Nat.le_refl _, rfl⟩

/-- Several payloads are added one after the other. -/
theorem materializeAll_adds {h : Heap} (hfree : h.FreeList) (ps : List Payload)
    (hroom : heapBytesAll ps ≤ h.available) :
    Ensures (materializeAll ps) h
      (fun vs t => Adds (heapBytesAll ps) h t ∧
        ∃ depth, h.liveObjects + depth ≤ t.liveObjects ∧
          vs.mapM (captureWithin t depth) = pure ps)
      (fun _ _ => False) := by
  cases ps with
  | nil =>
    rw [materializeAll]
    exact ⟨.refl hfree, 0, Nat.le_refl _, rfl⟩
  | cons p ps =>
    rw [heapBytesAll] at hroom ⊢
    rw [materializeAll, ensures_bind]
    refine (materialize_adds hfree p (by omega)).mono ?_ fun _ _ => id
    rintro v t ⟨hadds, depth, hdepth, hcapture⟩
    have hroom' : heapBytesAll ps ≤ t.available := by
      rw [hadds.available]
      omega
    rw [ensures_bind]
    refine (materializeAll_adds hadds.freeList ps hroom').mono ?_ fun _ _ => id
    rintro vs u ⟨hadds', depth', hdepth', hcapture'⟩
    -- The greater of the two depths serves for all of them.
    refine ⟨hadds.trans hadds', max depth depth', ?_, mapM_eq_pure_iff.2 (.cons ?_ ?_)⟩
    · have := hadds.liveObjects_le
      have := hadds'.liveObjects_le
      omega
    · exact captureWithin_of_le (Nat.le_max_left _ _) (captureWithin_of_adds hadds' hcapture)
    · exact (mapM_eq_pure_iff.1 hcapture').imp fun _ _ =>
        captureWithin_of_le (Nat.le_max_right _ _)

end

/-- A copy is exact. In any heap that has come about by operations, whatever handles were made up
for them, a payload for which there is room is materialized: exactly as many bytes are charged as
were asked for, all objects that were there are under their handles as they were, and the value that
is answered captures to the payload. -/
theorem materialize_exact {config : HeapConfig} (hreached : Heap.Reached config h) (p : Payload)
    (hroom : Heap.reserve p.heapBytes h = .ok () h) :
    ∃ v t, p.materialize h = .ok v t ∧ t.used = h.used + p.heapBytes ∧
      (∀ x object, h.lookup? x = some object → t.lookup? x = some object) ∧
      capture t v = .ok p := by
  have hfree := (Heap.balanced_of_reached hreached).freeList
  have hle : p.heapBytes ≤ h.available := by
    by_contra hshort
    have hrefused := ((Heap.ensures_reserve _).1 (ensures_result _ h)).2 (Nat.not_le.1 hshort)
    cases hroom.symm.trans hrefused
  obtain ⟨v, t, hrun, hadds, depth, hdepth, hcapture⟩ := (materialize_adds hfree p hle).exists_ok
  refine ⟨v, t, hrun, hadds.used, fun _ _ => hadds.kept, ?_⟩
  -- There are no more objects than slots, so the capture goes deep enough.
  have hsize : t.liveObjects ≤ t.slots.size := Array.countP_le_size
  have hdeep : captureWithin t (t.slots.size + 1) v = pure p :=
    captureWithin_of_le (by omega) hcapture
  rw [capture, hdeep]
  rfl

/-- A closure has captured the handle that the next object in the first slot will have. -/
def trap : Heap :=
  [Heap.Operation.allocString "old", .allocClosure (.loose .blank) #[.ref ⟨.string, ⟨0, 1⟩⟩],
    .release ⟨0, 0⟩].foldl (fun h op => op.after h) (Heap.empty {})

/-- A closure over a string, a number that is none, buffers of both kinds and another closure. -/
def nested : Payload :=
  .closure (.loose .blank) [.string "text", .real ⟨0x7ff8000000000001⟩, .fixedBuffer ⟨#[1, 2]⟩,
    .buffer ⟨#[3, 4, 5]⟩, .closure (.loose .blank) [.nil, .string ""]]

/-- The copy of the string goes where the trap leads, which changes neither the trap nor the
copy. -/
theorem materialize_exact_trap :
    Heap.Reached {} trap ∧ Heap.reserve nested.heapBytes trap = .ok () trap ∧
      ∃ v t, nested.materialize trap = .ok v t ∧ t.used = trap.used + 321 ∧
        t.lookup? ⟨0, 1⟩ = some (.string "text") ∧
        t.lookup? ⟨1, 0⟩ = some (.closure (.loose .blank) #[.ref ⟨.string, ⟨0, 1⟩⟩]) ∧
        capture t v = .ok nested := by
  have hreached : Heap.Reached {} trap := Heap.Reached.empty.foldl _
  have hroom : Heap.reserve nested.heapBytes trap = .ok () trap := by rfl
  obtain ⟨v, t, hrun, hused, hkept, hcapture⟩ := materialize_exact hreached nested hroom
  have htext : (match nested.materialize trap with
      | .ok _ t => t.lookup? ⟨0, 1⟩
      | .error _ _ => none) = some (.string "text") := by rfl
  rw [hrun] at htext
  exact ⟨hreached, hroom, v, t, hrun, hused, htext, hkept _ _ (by rfl), hcapture⟩

end Payload

end ActorMachine
