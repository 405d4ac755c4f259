import ActorMachine.Proofs.Checked.Basic
import ActorMachine.Proofs.Heap.Tended

/-!
# Operations of the heap that can crash

The heap takes a lot for granted: that the slots of the free list are there and have no object,
that no more bytes are released than are held, that the bytes in use of a buffer lie within its
storage, and that no capacity is set that is smaller than the size.

* `Firm`: the invariant all of this follows from. The objects account for the bytes held, and every
  buffer has a storage of its own that is as large as its header says.
* `Checked.insert`, `Checked.release`, `Checked.collect` and so on: the operations with what they
  take for granted.
* `secure_insert`, `secure_setCapacity` and so on: none of them crashes on a firm heap, and the heap
  stays firm.
-/

namespace ActorMachine.Heap

open Crashing

variable {h t : Heap} {handle : Handle} {r : HeapRef} {α β : Type}

/-! ### Firm heaps -/

/-- The books of the heap are in order, and so are its buffers. -/
structure Firm (h : Heap) : Prop where
  /-- The objects account for the bytes that are held, and free slots are vacant. -/
  balanced : h.Balanced
  /-- Every buffer has a storage of its own. -/
  housed : h.Housed
  /-- The limit is the size of a machine word at most. -/
  limit_le : h.config.heapLimit ≤ Capacity.maxWord

theorem firm_empty {config : HeapConfig} (hlimit : config.heapLimit ≤ Capacity.maxWord) :
    (empty config).Firm where
  balanced := balanced_empty config
  housed := housed_of_tended hlimit .empty
  limit_le := hlimit

theorem Firm.evolves {gone : Set Handle} (hh : h.Firm) (hevolves : Evolves gone h t)
    (housed : t.Housed) : t.Firm where
  balanced := hh.balanced.evolves hevolves
  housed := housed
  limit_le := config_eq_of_evolves hevolves ▸ hh.limit_le

/-- Operations that do not meddle with storages leave the heap firm. -/
theorem Firm.run {op : Operation} (hh : h.Firm) (hclear : op ≠ .clear) (htame : op.Tame h) :
    Ensures op.run h (fun _ t => t.Firm) fun _ t => t.Firm := by
  have hevolves : Evolves _ h (op.after h) := (releases_after hclear hh.balanced.freeList).evolves
  refine ((run_spec hh.balanced hh.housed hh.limit_le htame).and (ensures_result _ h)).mono ?_ ?_
  · rintro reply t ⟨hdone, hrun⟩
    rw [Operation.after, hrun] at hevolves
    exact hh.evolves hevolves hdone.housed
  · rintro fault t ⟨hrefused, -⟩
    exact hrefused.unchanged ▸ hh

/-- So does an action that an operation is made of. -/
theorem upholds_of_operation (op : Operation) {act : Action α} {reply : α → Reply}
    (hop : op.run = reply <$> act) (hclear : op ≠ .clear) (htame : ∀ h : Heap, h.Firm → op.Tame h) :
    Upholds Firm act fun _ => True := by
  intro h hh
  have hrun := hh.run hclear (htame h hh)
  rw [hop, ensures_map] at hrun
  exact hrun.mono (fun _ _ ht => ⟨ht, trivial⟩) fun _ _ ht => ht

/-- Bytes may change wherever they are, as long as their number stays. -/
theorem Housed.changeBytes {bytes : ByteArray} {change : ByteArray → ByteArray} (hh : h.Housed)
    (hbytes : h.lookup? handle = some (.fixedBuffer bytes))
    (hsize : (change bytes).size = bytes.size) :
    (h.update handle (.mapBytes change)).Housed := by
  -- What has changed is not a buffer, so the buffers that there are were there before.
  have hbuffers : ∀ {x header},
      (h.update handle (.mapBytes change)).lookup? x = some (.buffer header) →
        h.lookup? x = some (.buffer header) := by
    intro x header hlook
    rw [lookup?_update_of_lookup? _ hbytes] at hlook
    split at hlook
    next => cases hlook
    next => exact hlook
  refine ⟨fun hlook => ?_, fun hlook hother => hh.unshared (hbuffers hlook) (hbuffers hother)⟩
  obtain ⟨hfits, region, hregion, hcapacity⟩ := hh.stored (hbuffers hlook)
  refine ⟨hfits, ?_⟩
  rw [lookup?_update_of_lookup? _ hbytes]
  split
  next heq =>
    obtain rfl := HeapObject.fixedBuffer.inj (Option.some.inj (hregion.symm.trans (heq ▸ hbytes)))
    exact ⟨change region, rfl, hsize.trans hcapacity⟩
  next => exact ⟨region, hregion, hcapacity⟩

theorem firm_changeRegion (handle : Handle) {change : ByteArray → ByteArray}
    (hchange : ∀ bytes, (change bytes).size = bytes.size) :
    Upholds Firm (changeRegion handle change) fun _ => True := by
  intro h hh
  suffices hhoused :
      Ensures (changeRegion handle change) h (fun _ t => t.Housed) fun _ t => t.Housed from
    ((evolving_changeRegion handle hchange h).and hhoused).mono
      (fun _ _ ht => ⟨hh.evolves ht.1 ht.2, trivial⟩) fun _ _ ht => hh.evolves ht.1 ht.2
  rw [changeRegion, ensures_bind, ensures_discard, ensures_observe]
  refine ⟨fun bytes hbytes => ?_, fun _ _ => hh.housed⟩
  exact hh.housed.changeBytes (region_eq_ok_iff.1 hbytes) (hchange bytes)

theorem firm_writeFixed (r : HeapRef) (position : Nat) (source : ByteArray) :
    Upholds Firm (writeFixed r position source) fun _ => True :=
  upholds_look fun _ _ => firm_changeRegion r.handle fun bytes => size_overwriteBytes bytes _ _

theorem firm_writeBuffer (r : HeapRef) (position : Nat) (source : ByteArray) :
    Upholds Firm (writeBuffer r position source) fun _ => True :=
  upholds_get_bind fun _ _ => upholds_look fun header _ =>
    firm_changeRegion header.storage fun bytes => size_overwriteBytes bytes _ _

/-! ### What the operations take for granted -/

namespace Checked

/-- Stores an object whose bytes were reserved. The slot that was freed last has to be vacant. -/
def insert (object : HeapObject) : Crashing Heap HeapRef := do
  match (← get).free with
  | index :: _ =>
    let slot ← grant (element (← get).slots index)
    grant (assert slot.object.isNone)
    sure (Heap.insert object)
  | [] => sure (Heap.insert object)

/-- Releases the object of a handle. -/
def release (handle : Handle) : Crashing Heap Unit := do
  match (← get).lookup? handle with
  | some object =>
    let _ ← grant (minus (← get).used object.charge)
    modify (Heap.release handle)
  | none => return ()

/-- Allocates a string. -/
def allocString (text : String) : Crashing Heap HeapRef := do
  sure (reserve text.utf8ByteSize)
  insert (.string text)

/-- Allocates a zero-filled fixed buffer. -/
def allocFixed (size : Nat) : Crashing Heap HeapRef := do
  sure (reserve size)
  insert (.fixedBuffer (zeroBytes size))

/-- Allocates an empty growable buffer. -/
def allocBuffer (capacity : Nat) : Crashing Heap HeapRef := do
  sure (reserve (capacity + HeapObject.headerBytes))
  let storage ← insert (.fixedBuffer (zeroBytes capacity))
  insert (.buffer { size := 0, capacity, storage := storage.handle })

/-- Allocates a closure. -/
def allocClosure (routine : Routine) (upvalues : Array Value) : Crashing Heap HeapRef := do
  sure (reserve (HeapObject.closureBytes upvalues.size))
  insert (.closure routine upvalues)

/-- The bytes in use of a growable buffer. -/
def bufferBytes (h : Heap) (r : HeapRef) : Except Failure ByteArray := do
  let header ← faulty (h.header r)
  let bytes ← faulty (h.region header.storage)
  granted (sliceBytes bytes 0 header.size)

/-- The byte in use at a position of a growable buffer. -/
def bufferByte (h : Heap) (r : HeapRef) (position : Nat) : Except Failure UInt8 := do
  let bytes ← bufferBytes h r
  granted (byte bytes position)

/-- Writes a byte over one in use of a growable buffer. -/
def setByte (r : HeapRef) (position : Nat) (b : UInt8) : Crashing Heap Unit := do
  let bytes ← ofExcept (bufferBytes (← get) r)
  let _ ← grant (byte bytes position)
  sure (writeBuffer r position ⟨#[b]⟩)

/-- Copies bytes over all those in use of a growable buffer. -/
def fillBuffer (r : HeapRef) (source : ByteArray) : Crashing Heap Unit := do
  let bytes ← ofExcept (bufferBytes (← get) r)
  grant (sameSize source bytes)
  sure (writeBuffer r 0 source)

/-- Copies bytes over all those of a fixed buffer. -/
def fillFixed (r : HeapRef) (source : ByteArray) : Crashing Heap Unit := do
  let bytes ← look ((← get).region r.handle)
  grant (sameSize source bytes)
  sure (writeFixed r 0 source)

/-- Moves the bytes of a buffer to a new storage, which must not be too small for them. -/
def setCapacity (r : HeapRef) (capacity : Nat) : Crashing Heap Unit := do
  let header ← sure (observe (·.header r))
  grant (assert (header.size ≤ capacity))
  sure (reserve capacity)
  let place ← grant (sliceBytes (zeroBytes capacity) 0 header.size)
  let bytes ← sure (observe (·.region header.storage))
  let inUse ← grant (sliceBytes bytes 0 header.size)
  grant (sameSize inUse place)
  let storage ← insert (.fixedBuffer (movedBytes bytes header.size capacity))
  sure (changeHeader r fun header => { header with storage := storage.handle, capacity })
  release header.storage

/-- Makes the capacity at least this large. -/
def reserveBuffer (r : HeapRef) (capacity : Nat) : Crashing Heap Unit := do
  let header ← sure (observe (·.header r))
  if header.capacity < capacity then
    setCapacity r capacity

/-- Sets the size of a buffer whose capacity is large enough for it. -/
def setSize (r : HeapRef) (size : Nat) : Crashing Heap Unit := do
  let header ← sure (observe (·.header r))
  sure (changeHeader r fun header => { header with size })
  if header.size < size then
    let bytes ← look ((← get).region header.storage)
    let _ ← grant (sliceBytes bytes header.size size)
    sure (changeRegion header.storage (zeroFill · header.size size))

/-- Sets the size of a buffer. -/
def resizeBuffer (r : HeapRef) (size : Nat) : Crashing Heap Unit := do
  let header ← sure (observe (·.header r))
  if header.capacity < size then
    setCapacity r (grownBufferCapacity header.capacity size)
  setSize r size

/-- Makes the capacity equal to the size. -/
def shrinkBuffer (r : HeapRef) : Crashing Heap Unit := do
  let header ← sure (observe (·.header r))
  setCapacity r header.size

/-- Releases the object of a slot unless the slot is marked, and counts it. -/
def sweepSlot (marks : Array Bool) (freed index : Nat) : Crashing Heap Nat := do
  let slot ← grant (element (← get).slots index)
  if slot.object.isSome ∧ ¬marks[index]?.getD false then
    release ⟨index, slot.generation⟩
    return freed + 1
  else
    return freed

/-- Releases every object that cannot be reached from the roots. How many bytes that makes is the
difference of what is held before and afterwards. -/
def collect (roots : List Value) : Crashing Heap Nat := do
  let before ← get
  let marks := before.marksFrom roots
  modify fun h => { h with stats := { h.stats with collections := h.stats.collections + 1 } }
  let freed ← (List.range before.slots.size).foldlM (sweepSlot marks) 0
  modify fun h => { h with sinceCollection := 0 }
  let _ ← grant (minus before.used (← get).used)
  return freed

end Checked

/-! ### Storing and releasing -/

/-- The slot that was freed last is vacant. -/
theorem runs_insert (hfree : h.FreeList) (object : HeapObject) :
    Runs (Checked.insert object) (insert object) h := by
  refine runs_get_left ?_
  cases hlist : h.free with
  | nil => exact runs_sure _ h
  | cons index rest =>
    obtain ⟨generation, hvacant⟩ := hfree.vacant index (hlist ▸ List.mem_cons_self)
    refine runs_get_left (runs_grant (element_eq_ok hvacant) ?_)
    exact runs_grant (assert_eq_ok rfl) (runs_sure _ h)

theorem runs_release (hb : h.Balanced) (handle : Handle) :
    Runs (Checked.release handle) (modify (Heap.release handle)) h := by
  refine runs_get_left ?_
  cases hlook : h.lookup? handle with
  | none =>
    show Runs (pure ()) _ h
    rw [Runs, sure_modify]
    show _ = EStateM.Result.ok () (h.release handle)
    rw [release_eq_self hlook]
    rfl
  | some object => exact runs_get_left (runs_grant (minus_eq_ok (hb.charge_le hlook)) rfl)

/-! ### Allocation -/

theorem secure_reserve (bytes : Nat) :
    Secure Firm (sure (reserve bytes)) (reserve bytes) fun _ => True :=
  secure_sure (upholds_get_bind fun _ _ => upholds_ofExcept fun _ _ => trivial)

theorem runs_alloc (hfree : h.FreeList) (bytes : Nat) (object : HeapObject) :
    Runs (do sure (reserve bytes); Checked.insert object) (do reserve bytes; insert object) h := by
  refine (runs_sure _ h).bind ?_
  rw [ensures_reserve]
  exact ⟨fun _ => runs_insert hfree object, fun _ => trivial⟩

theorem secure_allocString (text : String) :
    Secure Firm (Checked.allocString text) (allocString text) fun _ => True where
  runs _ hh := runs_alloc hh.balanced.freeList _ _
  upholds := upholds_of_operation (.allocString text) rfl nofun fun _ _ => trivial

theorem secure_allocFixed (size : Nat) :
    Secure Firm (Checked.allocFixed size) (allocFixed size) fun _ => True where
  runs _ hh := runs_alloc hh.balanced.freeList _ _
  upholds := upholds_of_operation (.allocate .fixedBuffer size) rfl nofun fun _ _ => trivial

theorem secure_allocClosure (routine : Routine) (upvalues : Array Value) :
    Secure Firm (Checked.allocClosure routine upvalues) (allocClosure routine upvalues)
      fun _ => True where
  runs _ hh := runs_alloc hh.balanced.freeList _ _
  upholds := upholds_of_operation (.allocClosure routine upvalues) rfl nofun fun _ _ => trivial

/-- What the limit leaves room for is a size that a machine word can hold. -/
theorem secure_allocBuffer (capacity : Nat) :
    Secure Firm (Checked.allocBuffer capacity) (allocBuffer capacity)
      fun _ => capacity ≤ Capacity.maxWord where
  runs h hh := by
    have hfree := hh.balanced.freeList
    refine (runs_sure _ h).bind ?_
    rw [ensures_reserve]
    refine ⟨fun _ => (runs_insert hfree _).bind ?_, fun _ => trivial⟩
    rw [ensures_insert]
    exact runs_insert (freeList_store hfree) _
  upholds h hh := by
    have hfirm : Upholds Firm (allocBuffer capacity) fun _ => True :=
      upholds_of_operation (.allocBuffer capacity) rfl nofun fun _ _ => trivial
    have hroom : Ensures (allocBuffer capacity) h (fun _ _ => capacity ≤ Capacity.maxWord)
        fun _ _ => True := by
      rw [allocBuffer, ensures_bind, ensures_reserve]
      refine ⟨fun hroom => ?_, fun _ => trivial⟩
      -- What is available is no more than the limit, and the limit is a word.
      have hlimit := hh.limit_le
      rw [available] at hroom
      show capacity ≤ Capacity.maxWord
      omega
    exact ((hfirm h hh).and hroom).mono (fun _ _ ht => ⟨ht.1.1, ht.2⟩) fun _ _ ht => ht.1

/-! ### Reading and writing the bytes in use -/

/-- The bytes in use lie within the storage. -/
theorem bufferBytes_eq (hh : h.Housed) (r : HeapRef) :
    Checked.bufferBytes h r = faulty (h.bufferBytes r) := by
  rw [Checked.bufferBytes, bufferBytes]
  cases hheader : h.header r with
  | error fault => rfl
  | ok header =>
    obtain ⟨hfits, bytes, hbytes, hsize⟩ := hh.stored (header_eq_ok_iff.1 hheader).1
    show (do
      let bytes ← faulty (h.region header.storage)
      granted (sliceBytes bytes 0 header.size)) = faulty (do
        let bytes ← h.region header.storage
        return bytes.extract 0 header.size)
    rw [region_eq_ok_iff.2 hbytes]
    show granted (sliceBytes bytes 0 header.size) = _
    rw [sliceBytes_eq_ok (Nat.zero_le _) (hsize ▸ hfits)]
    rfl

/-- There are as many of them as the header says. -/
theorem exists_bufferBytes {header : BufferHeader} (hh : h.Housed)
    (hheader : h.header r = .ok header) :
    ∃ bytes, h.lookup? header.storage = some (.fixedBuffer bytes) ∧ bytes.size = header.capacity ∧
      header.size ≤ bytes.size ∧ h.bufferBytes r = .ok (bytes.extract 0 header.size) ∧
      (bytes.extract 0 header.size).size = header.size := by
  obtain ⟨hfits, bytes, hbytes, hsize⟩ := hh.stored (header_eq_ok_iff.1 hheader).1
  refine ⟨bytes, hbytes, hsize, hsize ▸ hfits, bufferBytes_of_header hheader hbytes, ?_⟩
  rw [ByteArray.size_extract, Nat.min_eq_left (hsize ▸ hfits), Nat.sub_zero]

/-- Without a header there are none. -/
theorem bufferBytes_of_error {fault : Fault} (hheader : h.header r = .error fault) :
    h.bufferBytes r = .error fault := by
  rw [bufferBytes, hheader]
  rfl

theorem byte_extract {bytes : ByteArray} {position size : Nat} (hposition : position < size)
    (hsize : size ≤ bytes.size) :
    byte (bytes.extract 0 size) position = .ok (bytes[position]?.getD 0) := by
  have hlt : position < bytes.size := hposition.trans_le hsize
  have hdata : position < bytes.data.size := hlt
  rw [getElem?_pos bytes position hlt]
  refine element_eq_ok ?_
  rw [ByteArray.data_extract, Array.getElem?_extract]
  rw [if_pos (by omega), Nat.zero_add, Array.getElem?_eq_getElem hdata]
  rfl

/-- A position below the size is that of a byte. -/
theorem bufferByte_eq (hh : h.Housed) {position : Nat}
    (hposition : ∀ header, h.header r = .ok header → position < header.size) :
    Checked.bufferByte h r position = faulty (h.bufferByte r position) := by
  rw [Checked.bufferByte, bufferBytes_eq hh, bufferByte]
  cases hheader : h.header r with
  | error fault =>
    rw [bufferBytes_of_error hheader]
    rfl
  | ok header =>
    obtain ⟨bytes, hbytes, -, hle, hinUse, hsize⟩ := exists_bufferBytes hh hheader
    have hlt := hposition header hheader
    rw [hinUse]
    show granted (byte (bytes.extract 0 header.size) position) = faulty (do
      let bytes ← h.region header.storage
      return bytes[position]?.getD 0)
    rw [region_eq_ok_iff.2 hbytes, byte_extract hlt hle]
    rfl

/-- What is written to the bytes in use are as many as there are, or a single one. -/
theorem runs_writeBuffer (hh : h.Housed) {position : Nat} {source : ByteArray}
    {check : ByteArray → Except Crash β}
    (hcheck : ∀ header bytes, h.header r = .ok header → bytes.size = header.size →
      ∃ b, check bytes = .ok b) :
    Runs (do
      let bytes ← ofExcept (Checked.bufferBytes (← get) r)
      let _ ← grant (check bytes)
      sure (writeBuffer r position source)) (writeBuffer r position source) h := by
  refine runs_get_left ?_
  rw [bufferBytes_eq hh]
  cases hheader : h.header r with
  | error fault =>
    rw [bufferBytes_of_error hheader, writeBuffer, Runs, sure, observe_bind_of_error hheader]
    rfl
  | ok header =>
    obtain ⟨bytes, -, -, -, hinUse, hsize⟩ := exists_bufferBytes hh hheader
    obtain ⟨b, hb⟩ := hcheck header _ hheader hsize
    rw [hinUse]
    exact runs_grant hb (runs_sure _ h)

theorem runs_setByte (hh : h.Housed) {position : Nat}
    (hposition : ∀ header, h.header r = .ok header → position < header.size) (b : UInt8) :
    Runs (Checked.setByte r position b) (writeBuffer r position ⟨#[b]⟩) h := by
  refine runs_writeBuffer hh fun header _ hheader hsize => ⟨_, element_eq_of_lt ?_⟩
  exact (hposition header hheader).trans_eq hsize.symm

theorem runs_fillBuffer (hh : h.Housed) {source : ByteArray}
    (hsource : ∀ header, h.header r = .ok header → source.size = header.size) :
    Runs (Checked.fillBuffer r source) (writeBuffer r 0 source) h :=
  runs_writeBuffer hh fun header _ hheader hsize =>
    ⟨(), sameSize_eq_ok ((hsource header hheader).trans hsize.symm)⟩

/-! ### Capacities and sizes -/

/-- Something that can be looked up is. -/
theorem runs_observe {lookup : Heap → Except Fault α} {a : α} (hlookup : lookup h = .ok a)
    {f : α → Crashing Heap β} {g : α → Action β} (h' : Runs (f a) (g a) h) :
    Runs (sure (observe lookup) >>= f) (observe lookup >>= g) h := by
  refine (runs_sure _ h).bind ?_
  rw [ensures_observe]
  refine ⟨fun b hb => ?_, fun _ _ => trivial⟩
  obtain rfl := Except.ok.inj (hlookup.symm.trans hb)
  exact h'

/-- All that is moved are the bytes in use. They lie within the old storage and, unless the capacity
is too small for them, within the new one. -/
theorem runs_setCapacity {header : BufferHeader} (hh : h.Firm) (hheader : h.header r = .ok header)
    {capacity : Nat} (hcapacity : header.size ≤ capacity) :
    Runs (Checked.setCapacity r capacity) (setCapacity r capacity) h := by
  have hfree := hh.balanced.freeList
  obtain ⟨hbuf, hkind⟩ := header_eq_ok_iff.1 hheader
  obtain ⟨hfits, bytes, hbytes, hsize⟩ := hh.housed.stored hbuf
  refine runs_observe hheader (runs_grant (assert_eq_ok hcapacity) ?_)
  refine (runs_sure _ h).bind ?_
  rw [ensures_reserve]
  refine ⟨fun _ => ?_, fun _ => trivial⟩
  -- Both slices are as long as what is in use, so they can be copied onto each other.
  refine runs_grant (sliceBytes_eq_ok (Nat.zero_le _) (by rwa [size_zeroBytes])) ?_
  refine runs_observe (region_eq_ok_iff.2 hbytes) ?_
  refine runs_grant (sliceBytes_eq_ok (Nat.zero_le _) (hsize ▸ hfits)) ?_
  refine runs_grant (sameSize_eq_ok ?_) ?_
  · rw [ByteArray.size_extract, ByteArray.size_extract, size_zeroBytes, hsize,
      Nat.min_eq_left hfits, Nat.min_eq_left hcapacity]
  refine (runs_insert hfree _).bind ?_
  rw [ensures_insert]
  refine (runs_sure _ _).bind ?_
  have hlook : (h.store (.fixedBuffer (movedBytes bytes header.size capacity))).2.lookup? r.handle =
      some (.buffer header) := lookup?_store_of_lookup? hfree hbuf
  rw [ensures_changeHeader (header_eq_ok_iff.2 ⟨hlook, hkind⟩)]
  exact runs_release ((hh.balanced.store _).update hlook rfl) _

theorem secure_shrinkBuffer (r : HeapRef) :
    Secure Firm (Checked.shrinkBuffer r) (shrinkBuffer r) fun _ => True where
  runs h hh := by
    refine (runs_sure _ h).bind ?_
    rw [ensures_observe]
    exact ⟨fun header hheader => runs_setCapacity hh hheader (Nat.le_refl _), fun _ _ => trivial⟩
  upholds := upholds_of_operation (.shrinkBuffer r) rfl nofun fun _ _ => trivial

theorem secure_reserveBuffer (r : HeapRef) (capacity : Nat) :
    Secure Firm (Checked.reserveBuffer r capacity) (reserveBuffer r capacity) fun _ => True where
  runs h hh := by
    refine (runs_sure _ h).bind ?_
    rw [ensures_observe]
    refine ⟨fun header hheader => ?_, fun _ _ => trivial⟩
    split
    next hlt =>
      have hfits := (hh.housed.stored (header_eq_ok_iff.1 hheader).1).1
      exact runs_setCapacity hh hheader (hfits.trans hlt.le)
    next => rfl
  upholds := upholds_of_operation (.reserveBuffer r capacity) rfl nofun fun _ _ => trivial

/-- The bytes that a larger size adds lie within the storage. -/
theorem runs_setSize {header : BufferHeader} (hh : h.Housed) (hheader : h.header r = .ok header)
    {size : Nat} (hsize : size ≤ header.capacity) :
    Runs (Checked.setSize r size) (do
      let header ← observe (·.header r)
      changeHeader r fun header => { header with size }
      if header.size < size then
        changeRegion header.storage (zeroFill · header.size size)) h := by
  obtain ⟨hbuf, -⟩ := header_eq_ok_iff.1 hheader
  obtain ⟨-, bytes, hbytes, hcapacity⟩ := hh.stored hbuf
  refine runs_observe hheader ((runs_sure _ h).bind ?_)
  rw [ensures_changeHeader hheader]
  split
  next hlt =>
    -- The header has changed, but its storage has not.
    have hregion : (h.update r.handle (.mapHeader fun header => { header with size })).region
        header.storage = .ok bytes := by
      rw [region_eq_ok_iff, lookup?_update_of_lookup? _ hbuf,
        if_neg (storage_ne hbuf hbytes), hbytes]
    refine runs_get_left (runs_look_left hregion ?_)
    exact runs_grant (sliceBytes_eq_ok hlt.le (hcapacity ▸ hsize)) (runs_sure _ _)
  next => rfl

theorem runs_resizeBuffer (hh : h.Firm) (r : HeapRef) {size : Nat}
    (hsize : size ≤ Capacity.maxWord) :
    Runs (Checked.resizeBuffer r size) (resizeBuffer r size) h := by
  refine (runs_sure _ h).bind ?_
  rw [ensures_observe]
  refine ⟨fun header hheader => ?_, fun _ _ => trivial⟩
  obtain ⟨hbuf, hkind⟩ := header_eq_ok_iff.1 hheader
  have hfits := (hh.housed.stored hbuf).1
  dsimp only
  split
  next hlt =>
    have hgrown : size ≤ grownBufferCapacity header.capacity size :=
      Capacity.le_grow (Nat.lt_of_lt_of_le (by decide) (Nat.le_max_right _ _)) hsize
    have hle : header.size ≤ grownBufferCapacity header.capacity size := by omega
    refine (runs_setCapacity hh hheader hle).bind ?_
    have hset := setCapacity_spec hh.balanced.freeList hh.housed hheader hle
    refine hset.mono ?_ fun _ _ _ => trivial
    rintro _ t ⟨-, v, w, hturns, -, -, -, hw⟩
    -- The header is read again where it is now.
    obtain ⟨storage, hheader', -⟩ := hturns.after
    have hr : r = ⟨.buffer, r.handle⟩ := by rw [← hkind]
    rw [← hr] at hheader'
    exact runs_setSize hturns.housed hheader' (hgrown.trans_eq hw.symm)
  next hle => exact runs_setSize hh.housed hheader (Nat.not_lt.1 hle)

/-- A size that no machine word can hold is never asked for. -/
theorem secure_resizeBuffer (r : HeapRef) {size : Nat} (hsize : size ≤ Capacity.maxWord) :
    Secure Firm (Checked.resizeBuffer r size) (resizeBuffer r size) fun _ => True where
  runs _ hh := runs_resizeBuffer hh r hsize
  upholds := upholds_of_operation (.resizeBuffer r size) rfl nofun fun _ _ => hsize

/-! ### Collection -/

theorem runs_sweepSlot (hb : h.Balanced) (marks : Array Bool) (freed : Nat) {index : Nat}
    (hindex : index < h.slots.size) :
    Runs (Checked.sweepSlot marks freed index)
      (modifyGet fun h => sweepSlot marks (freed, h) index) h := by
  obtain ⟨⟨generation, occupant⟩, hslot⟩ : ∃ slot, h.slots[index]? = some slot :=
    ⟨_, Array.getElem?_eq_getElem hindex⟩
  refine runs_get_left (runs_grant (element_eq_ok hslot) ?_)
  rw [Runs, sure_modifyGet]
  show _ = EStateM.Result.ok (sweepSlot marks (freed, h) index).1
    (sweepSlot marks (freed, h) index).2
  rw [sweepSlot, hslot]
  cases occupant with
  | none => rfl
  | some object =>
    dsimp only
    by_cases hmark : marks[index]?.getD false = true
    · rw [if_neg (by simp [hmark]), if_pos hmark]
      rfl
    · rw [if_pos ⟨rfl, hmark⟩, if_neg hmark]
      -- An occupied slot is in no free list, so it can be released.
      have hreleased :
          Checked.release ⟨index, generation⟩ h = .ok () (h.release ⟨index, generation⟩) :=
        runs_release hb _
      simp only [bind, EStateM.bind, hreleased]
      rfl

/-- Every slot that is swept is there, for no sweep takes one away. -/
theorem runs_foldlM_sweepSlot (hb : h.Balanced) (marks : Array Bool) (freed : Nat)
    {indices : List Nat} (hindices : ∀ i ∈ indices, i < h.slots.size) :
    Runs (indices.foldlM (Checked.sweepSlot marks) freed)
      (modifyGet fun h => indices.foldl (sweepSlot marks) (freed, h)) h := by
  induction indices generalizing freed h with
  | nil => rfl
  | cons index indices ih =>
    obtain ⟨hindex, hrest⟩ := List.forall_mem_cons.1 hindices
    rw [List.foldlM_cons]
    refine Runs.bind
      (g := fun freed => modifyGet fun h => indices.foldl (sweepSlot marks) (freed, h))
      (runs_sweepSlot hb marks freed hindex) ?_
    have hevolves : Evolves Set.univ h (sweepSlot marks (freed, h) index).2 :=
      evolves_sweepSlot (Set.subset_univ _) freed index
    refine ih (hb.evolves hevolves) _ fun i hi => ?_
    have hslot := slots_sweepSlot marks freed index (Array.getElem?_eq_getElem (hrest i hi))
    rcases hslot with hkept | ⟨-, hleft⟩
    · exact (Array.getElem?_eq_some_iff.1 hkept).1
    · exact (Array.getElem?_eq_some_iff.1 hleft).1

/-- What is released was held. -/
theorem used_collect_le (hb : h.Balanced) (roots : List Value) :
    (h.collect roots).2.used ≤ h.used := by
  have hcollected := hb.evolves (evolves_collect roots h)
  rw [hb.used, hcollected.used, objects_collect,
    ← chargeOf_eq_of_perm (perm_kept_append_garbage h roots), chargeOf_append]
  exact Nat.le_add_right _ _

theorem runs_collect (hb : h.Balanced) (roots : List Value) :
    Runs (Checked.collect roots) (modifyGet (collect roots)) h := by
  let counted := { h with stats := { h.stats with collections := h.stats.collections + 1 } }
  have hchange : Change Set.univ h counted := .count h (h.stats.collections + 1) h.sinceCollection
  -- Counting the collection changes no slot.
  have hcounted : counted.Balanced := hb.change hchange
  have hswept : (List.range h.slots.size).foldlM (Checked.sweepSlot (h.marksFrom roots)) 0 counted =
      .ok (h.collect roots).1 ((List.range h.slots.size).foldl (sweepSlot (h.marksFrom roots))
        (0, counted)).2 :=
    runs_foldlM_sweepSlot hcounted _ 0 fun i hi => List.mem_range.1 hi
  refine runs_get_left ?_
  show (do
    let freed ← (List.range h.slots.size).foldlM (Checked.sweepSlot (h.marksFrom roots)) 0
    modify fun h => { h with sinceCollection := 0 }
    let _ ← grant (minus h.used (← get).used)
    return freed : Crashing Heap Nat) counted = _
  simp only [bind, EStateM.bind, hswept]
  show (grant (minus h.used (h.collect roots).2.used) >>= fun _ => pure (h.collect roots).1)
    (h.collect roots).2 = _
  -- A sweep frees objects only, so no more is in use than before.
  rw [minus_eq_ok (used_collect_le hb roots)]
  rfl

theorem secure_collect (roots : List Value) :
    Secure Firm (Checked.collect roots) (modifyGet (collect roots)) fun _ => True where
  runs _ hh := runs_collect hh.balanced roots
  upholds := upholds_of_operation (.collect roots) rfl nofun fun _ _ => trivial

end ActorMachine.Heap
