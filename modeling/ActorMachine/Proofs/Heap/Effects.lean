import ActorMachine.Proofs.Heap.Ages
import ActorMachine.Proofs.Heap.Objects
import Mathlib.Data.List.Perm.Subperm

/-!
# What actions do to the other objects

Allocating an object and changing a buffer where it lies, in a heap of which nothing is known but
that free slots are vacant: there may be handles made up by hand everywhere.

* `Adds`: something was added for a number of bytes, and all that was there is there as it was.
* `Rewrites`: the header and the storage of a buffer were changed, and nothing else was.
* `ensures_setSize`, `ensures_writeBuffer`: setting the size of a buffer within its capacity and
  writing to it are such changes.
-/

namespace ActorMachine.Heap

variable {h t u : Heap} {x y : Handle} {object : HeapObject} {r : HeapRef} {header : BufferHeader}
  {bytes : ByteArray} {m n : Nat} {fail : Fault → Heap → Prop}

/-! ### Adding objects -/

/-- Something was added to a heap for this many bytes: all that was there is there as it was. -/
structure Adds (bytes : Nat) (h t : Heap) : Prop where
  /-- Free slots are vacant. -/
  freeList : t.FreeList
  /-- What could be looked up is the same. -/
  kept : ∀ {x object}, h.lookup? x = some object → t.lookup? x = some object
  /-- So many bytes more are held. -/
  used : t.used = h.used + bytes
  /-- The settings are the same. -/
  config : t.config = h.config

theorem Adds.refl (hfree : h.FreeList) : Adds 0 h h :=
  ⟨hfree, id, rfl, rfl⟩

theorem Adds.trans (hht : Adds m h t) (htu : Adds n t u) : Adds (m + n) h u where
  freeList := htu.freeList
  kept hlook := htu.kept (hht.kept hlook)
  used := by rw [htu.used, hht.used, Nat.add_assoc]
  config := htu.config.trans hht.config

theorem Adds.available (hht : Adds m h t) : t.available = h.available - m := by
  rw [Heap.available, hht.config, hht.used, Nat.sub_add_eq, Heap.available]

theorem adds_store (hfree : h.FreeList) (object : HeapObject) :
    Adds object.charge h (h.store object).2 :=
  ⟨freeList_store hfree, lookup?_store_of_lookup? hfree, rfl, rfl⟩

/-- No object is lost. -/
theorem Adds.liveObjects_le (hht : Adds m h t) : h.liveObjects ≤ t.liveObjects := by
  rw [← length_objects, ← length_objects]
  apply (List.Nodup.subperm h.nodup_objects _).length_le
  intro ⟨y, o⟩ hmem
  simp only [mem_objects] at hmem ⊢
  exact hht.kept hmem

/-- There are more objects if one is new. -/
theorem Adds.liveObjects_lt (hht : Adds m h t) (hfresh : h.lookup? x = none)
    (hlook : t.lookup? x = some object) : h.liveObjects < t.liveObjects := by
  rw [← length_objects, ← length_objects, ← Nat.succ_le_iff]
  -- The new object and the old ones are all among those that are there now.
  have hnodup : ((x, object) :: h.objects).Nodup :=
    List.nodup_cons.2 ⟨not_mem_objects hfresh object, h.nodup_objects⟩
  apply (List.Nodup.subperm hnodup _).length_le
  rintro ⟨y, o⟩ hmem
  rcases List.mem_cons.1 hmem with heq | hmem
  · obtain ⟨rfl, rfl⟩ := Prod.mk.inj heq
    exact mem_objects.2 hlook
  · exact mem_objects.2 (hht.kept (mem_objects.1 hmem))

/-- What was added may be changed. -/
theorem Adds.update (hht : Adds m h t) (hfresh : h.lookup? x = none)
    (hlook : t.lookup? x = some object) (change : HeapObject → HeapObject) :
    Adds m h (t.update x change) where
  freeList := freeList_update change hht.freeList
  kept {y o} hy := by
    have hne : y ≠ x := by rintro rfl; simp [hfresh] at hy
    rw [lookup?_update_of_lookup? change hlook, if_neg hne, hht.kept hy]
  used := hht.used
  config := hht.config

/-! ### Changing objects where they lie -/

/-- Writing to a fixed buffer does not fail. -/
theorem ensures_writeFixed {ok : Unit → Heap → Prop} (hkind : r.kind = .fixedBuffer)
    (hbytes : h.lookup? r.handle = some (.fixedBuffer bytes)) (position : Nat)
    (source : ByteArray) :
    Ensures (writeFixed r position source) h ok fail ↔
      ok () (h.update r.handle (.mapBytes (overwriteBytes · position source))) := by
  -- The tag is checked first, and here it is right.
  change Ensures (ofExcept (if r.kind = .fixedBuffer then .ok () else _) >>= _) h ok fail ↔ _
  rw [if_pos hkind, ensures_bind, ensures_ofExcept]
  constructor
  · rintro ⟨hok, -⟩
    exact (ensures_changeRegion hbytes _).1 (hok () rfl)
  · intro hok
    exact ⟨fun _ _ => (ensures_changeRegion hbytes _).2 hok, nofun⟩

/-- The header of a buffer and its storage are replaced by these. Nothing else changes. -/
structure Rewrites (x : Handle) (header : BufferHeader) (bytes : ByteArray) (h t : Heap) : Prop where
  /-- What can be looked up afterwards. -/
  lookup? : ∀ y, t.lookup? y =
    if y = x then some (.buffer header)
    else if y = header.storage then some (.fixedBuffer bytes) else h.lookup? y
  /-- As many bytes are held. -/
  used : t.used = h.used
  /-- The settings are the same. -/
  config : t.config = h.config
  /-- The free slots are the same. -/
  freeList : h.FreeList → t.FreeList

/-- A buffer lies where its header and its storage are found. -/
theorem Rewrites.refl (hbuf : h.lookup? x = some (.buffer header))
    (hbytes : h.lookup? header.storage = some (.fixedBuffer bytes)) :
    Rewrites x header bytes h h where
  lookup? y := by
    split_ifs with hx hs
    · rw [hx, hbuf]
    · rw [hs, hbytes]
    · rfl
  used := rfl
  config := rfl
  freeList := id

theorem Rewrites.lookup?_header (hht : Rewrites x header bytes h t) :
    t.lookup? x = some (.buffer header) := by
  rw [hht.lookup?, if_pos rfl]

theorem Rewrites.lookup?_storage (hht : Rewrites x header bytes h t) (hne : header.storage ≠ x) :
    t.lookup? header.storage = some (.fixedBuffer bytes) := by
  rw [hht.lookup?, if_neg hne, if_pos rfl]

/-- A header and a storage are no two objects of one handle. -/
theorem storage_ne (hbuf : h.lookup? x = some (.buffer header))
    (hbytes : h.lookup? y = some (.fixedBuffer bytes)) : y ≠ x := by
  rintro rfl
  simp [hbuf] at hbytes

/-- The header of a buffer that was rewritten is replaced by one for the same storage. -/
theorem Rewrites.changeHeader (hht : Rewrites x header bytes h t) {header' : BufferHeader}
    {change : HeapObject → HeapObject} (hchange : change (.buffer header) = .buffer header')
    (hstorage : header'.storage = header.storage) :
    Rewrites x header' bytes h (t.update x change) where
  lookup? y := by
    rw [lookup?_update_of_lookup? change hht.lookup?_header, hht.lookup?, hchange, hstorage]
    split_ifs <;> rfl
  used := hht.used
  config := hht.config
  freeList hfree := freeList_update change (hht.freeList hfree)

/-- The storage of a buffer that was rewritten is replaced by other bytes. -/
theorem Rewrites.changeRegion (hht : Rewrites x header bytes h t) {bytes' : ByteArray}
    {change : HeapObject → HeapObject} (hchange : change (.fixedBuffer bytes) = .fixedBuffer bytes')
    (hne : header.storage ≠ x) :
    Rewrites x header bytes' h (t.update header.storage change) where
  lookup? y := by
    rw [lookup?_update_of_lookup? change (hht.lookup?_storage hne), hht.lookup?, hchange]
    by_cases hy : y = header.storage
    · rw [if_pos hy, if_neg (hy ▸ hne), if_pos hy]
    · simp only [if_neg hy]
  used := hht.used
  config := hht.config
  freeList hfree := freeList_update change (hht.freeList hfree)

/-- The bytes of a storage after a size was set: those that come into use are zero. -/
def sizedBytes (bytes : ByteArray) (old new : Nat) : ByteArray :=
  if old < new then zeroFill bytes old new else bytes

theorem size_sizedBytes (bytes : ByteArray) (old new : Nat) :
    (sizedBytes bytes old new).size = bytes.size := by
  rw [sizedBytes]
  split
  next => exact size_zeroFill bytes old new
  next => rfl

/-- Setting the size of a buffer where it lies does not fail. -/
theorem ensures_setSize (hheader : h.header r = .ok header)
    (hbytes : h.lookup? header.storage = some (.fixedBuffer bytes)) (size : Nat) :
    Ensures (do
      let header ← observe (·.header r)
      changeHeader r fun header => { header with size }
      if header.size < size then
        changeRegion header.storage (zeroFill · header.size size)) h
      (fun _ t => Rewrites r.handle { header with size } (sizedBytes bytes header.size size) h t)
      fail := by
  obtain ⟨hbuf, -⟩ := header_eq_ok_iff.1 hheader
  have hne := storage_ne hbuf hbytes
  rw [ensures_observe_bind hheader, ensures_bind, ensures_changeHeader hheader]
  generalize hchange : HeapObject.mapHeader (fun header => { header with size }) = change
  -- The header comes first. The storage is found where it was, for it is another object.
  have hsized : Rewrites r.handle { header with size } bytes h (h.update r.handle change) :=
    (Rewrites.refl hbuf hbytes).changeHeader (by rw [← hchange, HeapObject.mapHeader]) rfl
  split
  next hlt =>
    rw [ensures_changeRegion (hsized.lookup?_storage hne), sizedBytes, if_pos hlt]
    exact hsized.changeRegion rfl hne
  next hle =>
    rw [sizedBytes, if_neg hle]
    exact hsized

/-- Nor does writing to it. -/
theorem ensures_writeBuffer (hheader : h.header r = .ok header)
    (hbytes : h.lookup? header.storage = some (.fixedBuffer bytes)) (position : Nat)
    (source : ByteArray) :
    Ensures (writeBuffer r position source) h
      (fun _ t => Rewrites r.handle header (overwriteBytes bytes position source) h t) fail := by
  obtain ⟨hbuf, -⟩ := header_eq_ok_iff.1 hheader
  rw [writeBuffer, ensures_observe_bind hheader, ensures_changeRegion hbytes]
  exact (Rewrites.refl hbuf hbytes).changeRegion rfl (storage_ne hbuf hbytes)

/-- A buffer that was added may be changed where it lies: it belongs to what was added. -/
theorem Adds.rewrites (hht : Adds m h t) (htu : Rewrites x header bytes t u)
    (hbuf : h.lookup? x = none) (hstorage : h.lookup? header.storage = none) : Adds m h u where
  freeList := htu.freeList hht.freeList
  kept {y object} hlook := by
    have hx : y ≠ x := by rintro rfl; simp [hbuf] at hlook
    have hs : y ≠ header.storage := by rintro rfl; simp [hstorage] at hlook
    rw [htu.lookup?, if_neg hx, if_neg hs, hht.kept hlook]
  used := by rw [htu.used, hht.used]
  config := by rw [htu.config, hht.config]

end ActorMachine.Heap
