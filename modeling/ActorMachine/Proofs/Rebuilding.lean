import ActorMachine.Proofs.Content

/-!
# Rebuilding what was captured

* `Grows`: something was added to a heap, and all that was there is there with its content.
* `Gains`: what was added has cost a certain number of bytes.
* `materialize_spec`: a payload for which there is room is rebuilt, for exactly the bytes that it is
  said to cost, and captures to itself. Without room for it, it is not.
-/

namespace ActorMachine

namespace Heap

variable {h t u : Heap} {r : HeapRef} {m n : Nat}

/-- Something was added to a heap. -/
structure Grows (h t : Heap) : Prop where
  /-- The heap is sound. -/
  sound : t.Sound
  /-- All that was backed is backed. -/
  carries : h.Carries t
  /-- All that was there has its content. -/
  ages : Ages 0 ∅ h t

theorem Grows.refl (hs : h.Sound) (hfits : h.Fits) : Grows h h :=
  ⟨hs, .refl h, .refl hfits ∅⟩

theorem Grows.trans (htu : Grows t u) (hht : Grows h t) : Grows h u :=
  ⟨htu.sound, htu.carries.trans hht.carries, htu.ages.trans hht.ages⟩

/-- What can be captured can still be captured. -/
theorem Grows.captureWithin_eq (hgrows : Grows h t) (hs : h.Sound) {v : Value} (hv : h.Backs v)
    (depth : Nat) : Payload.captureWithin t depth v = Payload.captureWithin h depth v :=
  Payload.captureWithin_eq_of_ages hs hgrows.sound hgrows.ages (by decide) hv
    (hgrows.carries v hv) (fun _ _ hmem => hmem) depth

/-- Something was added to a heap that has cost this many bytes. -/
structure Gains (bytes : Nat) (h t : Heap) : Prop extends Grows h t where
  /-- So many bytes less can be charged. -/
  room : t.available + bytes = h.available

theorem Gains.refl (hs : h.Sound) (hfits : h.Fits) : Gains 0 h h :=
  ⟨.refl hs hfits, rfl⟩

theorem Gains.trans (htu : Gains n t u) (hht : Gains m h t) : Gains (m + n) h u := by
  refine ⟨htu.toGrows.trans hht.toGrows, ?_⟩
  rw [← hht.room, ← htu.room]
  omega

/-- Something was to be added for which there was too little room. -/
structure Lacks (bytes : Nat) (h t : Heap) : Prop extends Grows h t where
  /-- There was less room than it costs. -/
  short : h.available < bytes

/-- What lacks room after something was added, lacks it along with that. -/
theorem Lacks.trans (htu : Lacks n t u) (hht : Gains m h t) : Lacks (m + n) h u := by
  refine ⟨htu.toGrows.trans hht.toGrows, ?_⟩
  have hshort := htu.short
  rw [← hht.room]
  omega

/-- What lacks room lacks it along with anything else. -/
theorem Lacks.mono (hlacks : Lacks m h t) (hle : m ≤ n) : Lacks n h t :=
  ⟨hlacks.toGrows, Nat.lt_of_lt_of_le hlacks.short hle⟩

/-! ### Allocation -/

/-- Storing an object takes the bytes that it is charged with. -/
theorem available_store (object : HeapObject) (hroom : object.charge ≤ h.available) :
    (h.store object).2.available + object.charge = h.available := by
  show h.config.heapLimit - (h.used + object.charge) + object.charge = h.config.heapLimit - h.used
  have : object.charge ≤ h.config.heapLimit - h.used := hroom
  omega

/-- An object other than a buffer is allocated if there is room for it. -/
theorem alloc_spec (hs : h.Sound) (hfits : h.Fits) (object : HeapObject)
    (hbuffer : object.kind ≠ .buffer)
    (hups : ∀ routine upvalues, object = .closure routine upvalues → ∀ v ∈ upvalues, h.Backs v)
    {bytes : Nat} (hbytes : object.charge = bytes) :
    Ensures (do reserve bytes; insert object) h
      (fun r t => Gains bytes h t ∧ t.Backs (.ref r) ∧ r.kind = object.kind ∧
        t.lookup? r.handle = some object ∧ h.lookup? r.handle = none)
      (fun _ t => Lacks bytes h t) := by
  subst hbytes
  rw [ensures_bind, ensures_reserve]
  refine ⟨fun hroom => ?_, fun hshort => ⟨.refl hs hfits, hshort⟩⟩
  rw [ensures_insert]
  obtain ⟨hsound, hcarries, hbacks⟩ := sound_store hs object hbuffer hups
  refine ⟨⟨⟨hsound, hcarries, ages_store hs hfits hbuffer hups⟩, available_store object hroom⟩,
    hbacks, rfl, ?_, lookup?_nextHandle hs.freeList⟩
  rw [lookup?_store hs.freeList, if_pos rfl]

/-- A buffer is allocated, without bytes in use, if there is room for it. -/
theorem allocBuffer_spec (hs : h.Sound) (hfits : h.Fits) (capacity : Nat) :
    Ensures (allocBuffer capacity) h
      (fun r t => Gains (capacity + HeapObject.headerBytes) h t ∧ t.Backs (.ref r) ∧
        h.lookup? r.handle = none ∧
        ∃ storage, t.header r = .ok { size := 0, capacity, storage })
      (fun _ t => Lacks (capacity + HeapObject.headerBytes) h t) := by
  rw [allocBuffer, ensures_bind, ensures_reserve]
  refine ⟨fun hroom => ?_, fun hshort => ⟨.refl hs hfits, hshort⟩⟩
  rw [ensures_bind, ensures_insert, ensures_insert]
  have hstored := sound_storeBuffer hs (zeroBytes capacity) 0
  have hages := ages_storeBuffer hs hfits (Nat.zero_le (zeroBytes capacity).size)
  simp only [size_zeroBytes, fst_store] at hstored hages
  obtain ⟨hsound, hcarries, hbacks⟩ := hstored
  -- The storage is charged with its bytes and the header with those of a header.
  have hfirst := available_store (h := h) (.fixedBuffer (zeroBytes capacity)) (by
    rw [HeapObject.charge, size_zeroBytes]
    omega)
  rw [HeapObject.charge, size_zeroBytes] at hfirst
  have hsecond := available_store (h := (h.store (.fixedBuffer (zeroBytes capacity))).2)
    (.buffer { size := 0, capacity, storage := h.nextHandle }) (by
      rw [HeapObject.charge]
      omega)
  rw [HeapObject.charge] at hsecond
  have hmade : (h.store (.fixedBuffer (zeroBytes capacity))).2.FreeList :=
    freeList_store hs.freeList
  refine ⟨⟨⟨hsound, hcarries, hages⟩, ?_⟩, hbacks, ?_, h.nextHandle, header_eq_ok_iff.2 ⟨?_, rfl⟩⟩
  · show (store (.buffer { size := 0, capacity, storage := h.nextHandle }) _).2.available + _ = _
    omega
  · exact (fresh_storeBuffer hs.freeList (zeroBytes capacity)).2
  · rw [lookup?_store hmade, if_pos rfl]

/-! ### Filling what was allocated -/

/-- As many bytes as there are take the place of those of a fixed buffer. -/
theorem writeFixed_spec (hs : h.Sound) (hfits : h.Fits) (hr : h.Backs (.ref r))
    (hkind : r.kind = .fixedBuffer) {old bytes : ByteArray}
    (hold : h.lookup? r.handle = some (.fixedBuffer old)) (hsize : bytes.size = old.size) :
    Ensures (writeFixed r 0 bytes) h
      (fun _ t => Ages 0 {r.handle} h t ∧ t.Sound ∧ h.Carries t ∧ t.available = h.available ∧
        t.lookup? r.handle = some (.fixedBuffer bytes))
      (fun _ _ => False) := by
  rw [writeFixed, ensures_bind, ensures_ofExcept]
  refine ⟨fun _ _ => ?_, fun fault htag => ?_⟩
  · rw [ensures_changeRegion hold]
    -- Only the bytes change, and not how many there are.
    have hsame := size_overwriteBytes old 0 bytes
    obtain ⟨hsound, hcarries⟩ := sound_update hs (.mapBytes (overwriteBytes · 0 bytes)) hold hsame
    refine ⟨ages_changeFixed hs hfits hr hold rfl hsame, hsound, hcarries, rfl, ?_⟩
    rw [lookup?_update_of_lookup? _ hold, if_pos rfl, HeapObject.mapBytes,
      overwriteBytes_of_size_eq hsize]
  · -- The reference is tagged as it has to be.
    change (if r.kind = .fixedBuffer then _ else _) = _ at htag
    rw [if_pos hkind] at htag
    cases htag

/-- As many bytes as there is capacity for take the place of those of a buffer. -/
theorem fillBuffer_spec (hs : h.Sound) (hfits : h.Fits) {bytes : ByteArray} {storage : Handle}
    (hheader : h.header r = .ok { size := 0, capacity := bytes.size, storage }) :
    Ensures (do resizeBuffer r bytes.size; writeBuffer r 0 bytes) h
      (fun _ t => Ages 0 {r.handle} h t ∧ t.Sound ∧ h.Carries t ∧ t.available = h.available ∧
        t.lookup? r.handle = some (.buffer { size := bytes.size, capacity := bytes.size, storage }) ∧
        t.bufferBytes r = .ok bytes)
      (fun _ _ => False) := by
  rw [ensures_bind]
  -- There is no need to grow, so the storage stays.
  have hresize : Ensures (resizeBuffer r bytes.size) h
      (fun _ t => Ages 0 {r.handle} h t ∧
        t.header r = .ok { size := bytes.size, capacity := bytes.size, storage } ∧
        t.used = h.used ∧ t.config = h.config) (fun _ _ => False) := by
    rw [resizeBuffer, ensures_observe_bind hheader]
    dsimp only
    rw [if_neg (Nat.lt_irrefl _)]
    exact setSize_spec hs hfits hheader (Nat.le_refl _)
  refine ((safeAt_resizeBuffer hs r bytes.size).and hresize).mono ?_ fun _ _ => And.right
  rintro _ t ⟨⟨ht, hht, -⟩, hages, hheader', hused, hconfig⟩
  obtain ⟨old, hold, -, hsize⟩ := exists_region ht hheader'
  obtain ⟨hbuf, hkind⟩ := header_eq_ok_iff.1 hheader'
  have hsame := size_overwriteBytes old 0 bytes
  rw [writeBuffer, ensures_observe_bind hheader', ensures_changeRegion hold]
  obtain ⟨hsound, hcarries⟩ := sound_update ht (.mapBytes (overwriteBytes · 0 bytes)) hold hsame
  have hlook : ∀ x, (t.update storage (.mapBytes (overwriteBytes · 0 bytes))).lookup? x =
      if x = storage then some (.fixedBuffer (overwriteBytes old 0 bytes)) else t.lookup? x :=
    fun _ => lookup?_update_of_lookup? _ hold
  rw [overwriteBytes_of_size_eq hsize.symm] at hlook
  have hthere := (hlook r.handle).trans (if_neg (storage_ne_of_buffer ht hbuf hbuf).symm)
  rw [hbuf] at hthere
  refine ⟨(ages_changeStorage ht hages.fits hbuf hold rfl hsame).trans hages, hsound,
    hcarries.trans hht, ?_, hthere, ?_⟩
  · show t.config.heapLimit - t.used = _
    rw [hused, hconfig]
    rfl
  · have hall := bufferBytes_of_header (header_eq_ok_iff.2 ⟨hthere, hkind⟩)
      ((hlook storage).trans (if_pos rfl))
    exact hall.trans (congrArg Except.ok ByteArray.extract_zero_size)

/-- What is changed of an object that was added belongs to what was added. -/
theorem Gains.fill (hht : Gains m h t) (hages : Ages 0 {r.handle} t u) (hsound : u.Sound)
    (hcarries : t.Carries u) (hroom : u.available = t.available)
    (hfresh : h.lookup? r.handle = none) : Gains m h u where
  sound := hsound
  carries := hcarries.trans hht.carries
  ages := by
    have hall := hages.trans (hht.ages.mono (Nat.le_refl 0) (Set.empty_subset {r.handle}))
    exact hall.of_fresh fun handle hmem => by rwa [Set.mem_singleton_iff.1 hmem]
  room := by rw [hroom, hht.room]

end Heap

namespace Payload

open Heap (Gains Lacks Grows)

variable {h : Heap}

/-- If there is room for a payload in a heap, it is rebuilt there and captures to itself. -/
def Materializes (payload : Payload) (h : Heap) : Prop :=
  Ensures payload.materialize h
    (fun v t => Gains payload.heapBytes h t ∧ t.Backs v ∧
      ∃ depth, captureWithin t depth v = pure payload)
    (fun _ t => Lacks payload.heapBytes h t)

theorem materializes_string (hs : h.Sound) (hfits : h.Fits) (text : String) :
    Materializes (.string text) h := by
  rw [Materializes, materialize, ensures_map]
  refine (Heap.alloc_spec hs hfits (.string text) nofun nofun rfl).mono ?_
    fun _ _ => id
  rintro r t ⟨hgains, hbacks, hkind, hlook, -⟩
  refine ⟨hgains, hbacks, 1, ?_⟩
  rw [captureWithin, Heap.deref_eq_ok_iff.2 ⟨hlook, hkind.symm⟩]
  rfl

/-- A fixed buffer is filled when it is there already, but nobody else knows it yet. -/
theorem materializes_fixedBuffer (hs : h.Sound) (hfits : h.Fits) (bytes : ByteArray) :
    Materializes (.fixedBuffer bytes) h := by
  rw [Materializes, materialize, ensures_bind]
  refine (Heap.alloc_spec hs hfits (.fixedBuffer (zeroBytes bytes.size)) nofun nofun
    (size_zeroBytes _)).mono ?_ fun _ _ => id
  rintro r t ⟨hgains, hbacks, hkind, hlook, hfresh⟩
  rw [ensures_bind]
  refine (Heap.writeFixed_spec hgains.sound hgains.ages.fits hbacks hkind hlook
    (size_zeroBytes _).symm).mono ?_ fun _ _ => False.elim
  rintro _ u ⟨hages, hsound, hcarries, hroom, hlook'⟩
  refine ⟨hgains.fill hages hsound hcarries hroom hfresh, hcarries _ hbacks, 1, ?_⟩
  rw [captureWithin, Heap.deref_eq_ok_iff.2 ⟨hlook', hkind.symm⟩]
  rfl

/-- So is a buffer, which is made with the capacity that it needs. -/
theorem materializes_buffer (hs : h.Sound) (hfits : h.Fits) (bytes : ByteArray) :
    Materializes (.buffer bytes) h := by
  rw [Materializes, materialize, ensures_bind]
  refine (Heap.allocBuffer_spec hs hfits bytes.size).mono ?_ fun _ _ => id
  rintro r t ⟨hgains, hbacks, hfresh, storage, hheader⟩
  rw [← bind_assoc, ensures_bind]
  refine (Heap.fillBuffer_spec hgains.sound hgains.ages.fits hheader).mono ?_
    fun _ _ => False.elim
  rintro _ u ⟨hages, hsound, hcarries, hroom, hlook, hbytes⟩
  have hkind := (Heap.header_eq_ok_iff.1 hheader).2
  refine ⟨hgains.fill hages hsound hcarries hroom hfresh, hcarries _ hbacks, 1, ?_⟩
  rw [captureWithin, Heap.deref_eq_ok_iff.2 ⟨hlook, hkind.symm⟩]
  simp only [hbytes]
  rfl

/-- The upvalues come first, and the closure is allocated after them, if there is room for both. -/
theorem materializes_closure (routine : Routine) {upvalues : List Payload}
    (hall : Ensures (materializeAll upvalues) h
      (fun vs t => Gains (heapBytesAll upvalues) h t ∧ (∀ v ∈ vs, t.Backs v) ∧
        ∃ depth, vs.mapM (captureWithin t depth) = pure upvalues)
      (fun _ t => Lacks (heapBytesAll upvalues) h t)) :
    Materializes (.closure routine upvalues) h := by
  rw [Materializes, materialize, ensures_bind]
  refine hall.mono ?_ fun _ _ hlacks => hlacks.mono (Nat.le_add_left _ _)
  rintro values t ⟨hgains, hbacks, depth, hdepth⟩
  have hlength : values.toArray.size = upvalues.length :=
    (mapM_eq_pure_iff.1 hdepth).length_eq
  have hbytes : heapBytes (.closure routine upvalues) =
      heapBytesAll upvalues + HeapObject.closureBytes values.toArray.size := by
    rw [heapBytes, hlength, Nat.add_comm]
  rw [ensures_map, hbytes]
  have hkind : (HeapObject.closure routine values.toArray).kind ≠ .buffer := by
    rintro ⟨⟩
  refine (Heap.alloc_spec hgains.sound hgains.ages.fits
    (.closure routine values.toArray) hkind ?_ rfl).mono ?_
    fun _ _ hlacks => hlacks.trans hgains
  · rintro _ _ heq v hv
    obtain ⟨-, rfl⟩ := HeapObject.closure.inj heq
    exact hbacks v (List.mem_toArray.1 hv)
  · rintro r u ⟨hgains', hr, hkind, hlook, -⟩
    refine ⟨hgains'.trans hgains, hr, depth + 1, ?_⟩
    rw [captureWithin, Heap.deref_eq_ok_iff.2 ⟨hlook, hkind.symm⟩]
    -- The closure is on top of the upvalues, which capture as they did before.
    have hsame : values.mapM (captureWithin u depth) = values.mapM (captureWithin t depth) :=
      mapM_congr fun v hv =>
        hgains'.toGrows.captureWithin_eq hgains.sound (hbacks v hv) depth
    change (values.mapM (captureWithin u depth) >>= _) = _
    rw [hsame, hdepth]
    rfl

mutual

/-- A payload is rebuilt if there is room for it, and captures to itself. -/
theorem materialize_spec {h : Heap} (hs : h.Sound) (hfits : h.Fits) (payload : Payload) :
    Ensures payload.materialize h
      (fun v t => Gains payload.heapBytes h t ∧ t.Backs v ∧
        ∃ depth, captureWithin t depth v = pure payload)
      (fun _ t => Lacks payload.heapBytes h t) := by
  cases payload with
  | string text => exact materializes_string hs hfits text
  | fixedBuffer bytes => exact materializes_fixedBuffer hs hfits bytes
  | buffer bytes => exact materializes_buffer hs hfits bytes
  | closure routine upvalues =>
    exact materializes_closure routine (materializeAll_spec hs hfits upvalues)
  -- All other payloads are values that need no heap.
  | _ =>
    rw [materialize]
    exact ⟨.refl hs hfits, trivial, 0, rfl⟩

/-- Several payloads are rebuilt if there is room for all of them, and capture to themselves. -/
theorem materializeAll_spec {h : Heap} (hs : h.Sound) (hfits : h.Fits) (payloads : List Payload) :
    Ensures (materializeAll payloads) h
      (fun vs t => Gains (heapBytesAll payloads) h t ∧ (∀ v ∈ vs, t.Backs v) ∧
        ∃ depth, vs.mapM (captureWithin t depth) = pure payloads)
      (fun _ t => Lacks (heapBytesAll payloads) h t) := by
  cases payloads with
  | nil =>
    rw [materializeAll]
    exact ⟨.refl hs hfits, by simp, 0, rfl⟩
  | cons payload payloads =>
    rw [materializeAll, ensures_bind, heapBytesAll]
    refine (materialize_spec hs hfits payload).mono ?_
      fun _ _ hlacks => hlacks.mono (Nat.le_add_right _ _)
    rintro v t ⟨hgains, hv, depth, hdepth⟩
    rw [ensures_bind]
    refine (materializeAll_spec hgains.sound hgains.ages.fits payloads).mono ?_
      fun _ _ hlacks => hlacks.trans hgains
    rintro vs u ⟨hgains', hvs, depth', hdepth'⟩
    -- What was rebuilt first is still there when the others are, and the larger depth does for all.
    refine ⟨hgains'.trans hgains, ?_, max depth depth', mapM_eq_pure_iff.2 (.cons ?_ ?_)⟩
    · simpa using ⟨hgains'.carries v hv, hvs⟩
    · have hthere := hgains'.toGrows.captureWithin_eq hgains.sound hv depth
      exact captureWithin_of_le (Nat.le_max_left _ _) (hthere.trans hdepth)
    · exact (mapM_eq_pure_iff.1 hdepth').imp fun _ _ =>
        captureWithin_of_le (Nat.le_max_right _ _)

end

end Payload

end ActorMachine
