import ActorMachine.Proofs.Heap.Effects
import Mathlib.Logic.Relation

/-!
# Operations on a heap

What the holder of a heap can do with it, handles made up by hand included.

* `Operation`, `Reached`: the operations, and the heaps that come about by them in any order.
* `Change`, `Evolves`: single changes, and several of them. An object is stored for which there is
  room, released, or replaced by one of the same kind and charge. Only handles that are named in
  advance lose their objects.
* `ensures_setCapacity`, `setsSize_of_header`: what moving a buffer and setting its size come down
  to. The header of the buffer is changed, and those of the others are not.
* `releases_after`: every operation but dropping everything comes down to single changes, whether it
  fails or not, by which no objects go but those that it is there to release.
* `balanced_of_reached`: so the bytes held are at all times those charged for the objects.
-/

namespace ActorMachine.Heap

variable {h t : Heap} {handle : Handle} {header : BufferHeader} {r : HeapRef} {α β : Type}

/-! ### Operations -/

/-- What can be done with a heap. -/
inductive Operation
  /-- An object of a kind is allocated, with room for a number of bytes. -/
  | allocate (kind : ObjectKind) (size : Nat)
  /-- A string is allocated. -/
  | allocString (text : String)
  /-- An empty growable buffer is allocated. -/
  | allocBuffer (capacity : Nat)
  /-- A closure over some values is allocated, whatever they refer to. -/
  | allocClosure (routine : Routine) (upvalues : Array Value)
  /-- Bytes of a fixed buffer are overwritten. -/
  | writeFixed (r : HeapRef) (position : Nat) (source : ByteArray)
  /-- Bytes in use of a growable buffer are overwritten. -/
  | writeBuffer (r : HeapRef) (position : Nat) (source : ByteArray)
  /-- The capacity of a buffer is raised. -/
  | reserveBuffer (r : HeapRef) (capacity : Nat)
  /-- The size of a buffer is set. -/
  | resizeBuffer (r : HeapRef) (size : Nat)
  /-- The capacity of a buffer is cut down to its size. -/
  | shrinkBuffer (r : HeapRef)
  /-- The object of a handle is released. -/
  | release (handle : Handle)
  /-- What cannot be reached from some values is released. -/
  | collect (roots : List Value)
  /-- Everything is dropped. -/
  | clear

/-- What an operation answers. -/
inductive Reply
  /-- It is done. -/
  | done
  /-- An object was allocated. -/
  | made (r : HeapRef)
  /-- So many objects were released by a collection. -/
  | freed (count : Nat)
deriving DecidableEq

namespace Operation

/-- The action that an operation is. -/
def run : Operation → Action Reply
  | allocate kind size => .made <$> Heap.allocate kind size
  | allocString text => .made <$> Heap.allocString text
  | allocBuffer capacity => .made <$> Heap.allocBuffer capacity
  | allocClosure routine upvalues => .made <$> Heap.allocClosure routine upvalues
  | writeFixed r position source => (fun _ => .done) <$> Heap.writeFixed r position source
  | writeBuffer r position source => (fun _ => .done) <$> Heap.writeBuffer r position source
  | reserveBuffer r capacity => (fun _ => .done) <$> Heap.reserveBuffer r capacity
  | resizeBuffer r size => (fun _ => .done) <$> Heap.resizeBuffer r size
  | shrinkBuffer r => (fun _ => .done) <$> Heap.shrinkBuffer r
  | release handle => (fun _ => .done) <$> modify (Heap.release handle)
  | collect roots => .freed <$> modifyGet (Heap.collect roots)
  | clear => (fun _ => .done) <$> modify Heap.clear

/-- The heap after an operation, whether that has failed or not. -/
def after (op : Operation) (h : Heap) : Heap :=
  match op.run h with
  | .ok _ t => t
  | .error _ t => t

/-- What an operation ensures in both cases holds afterwards. -/
theorem after_of_ensures {op : Operation} {post : Heap → Prop}
    (hrun : Ensures op.run h (fun _ => post) fun _ => post) : post (op.after h) := by
  rw [after]
  cases hresult : op.run h with
  | ok _ t => exact hrun.of_ok hresult
  | error _ t => exact hrun.of_error hresult

theorem after_of_map {op : Operation} {act : Action Unit} {post : Heap → Prop}
    (hop : op.run = (fun _ => .done) <$> act) (hact : Ensures act h (fun _ => post) fun _ => post) :
    post (op.after h) := by
  apply after_of_ensures
  rw [hop, ensures_map]
  exact hact

end Operation

/-- The heaps that come about by operations in any order. -/
inductive Reached (config : HeapConfig) : Heap → Prop
  /-- There are no objects. -/
  | empty : Reached config (empty config)
  /-- Something was done. -/
  | next {h : Heap} (op : Operation) (before : Reached config h) : Reached config (op.after h)

/-- Several operations lead from a heap that comes about to another one. -/
theorem Reached.foldl {config : HeapConfig} (hreached : Reached config h) (ops : List Operation) :
    Reached config (ops.foldl (fun h op => op.after h) h) := by
  induction ops generalizing h with
  | nil => exact hreached
  | cons op ops ih => exact ih (.next op hreached)

/-! ### Single changes -/

/-- A single change of a heap, by which no object goes but that of a handle among `gone`. -/
inductive Change (gone : Set Handle) : Heap → Heap → Prop
  /-- An object is stored for which there is room. -/
  | store {h : Heap} {object : HeapObject} (room : object.charge ≤ h.available) :
      Change gone h (h.store object).2
  /-- The object of a handle, if it has one, is released. -/
  | release (h : Heap) {handle : Handle} (mem : handle ∈ gone) : Change gone h (h.release handle)
  /-- An object is replaced by one of the same kind and charge. -/
  | update {h : Heap} {handle : Handle} {object : HeapObject} {change : HeapObject → HeapObject}
      (live : h.lookup? handle = some object) (kind : (change object).kind = object.kind)
      (charge : (change object).charge = object.charge) :
      Change gone h (h.update handle change)
  /-- A collection is counted. -/
  | count (h : Heap) (collections sinceCollection : Nat) :
      Change gone h { h with sinceCollection, stats := { h.stats with collections } }

/-- Some changes lead from one heap to another. -/
abbrev Evolves (gone : Set Handle) : Heap → Heap → Prop :=
  Relation.ReflTransGen (Change gone)

variable {gone gone' : Set Handle}

theorem Change.mono (hchange : Change gone h t) (hgone : gone ⊆ gone') : Change gone' h t := by
  cases hchange with
  | store hroom => exact .store hroom
  | release hmem => exact .release h (hgone hmem)
  | update hlive hkind hcharge => exact .update hlive hkind hcharge
  | count => exact .count h _ _

/-- More handles may be named than lose their objects. -/
theorem Evolves.mono (hevolves : Evolves gone h t) (hgone : gone ⊆ gone') : Evolves gone' h t :=
  Relation.ReflTransGen.mono (fun _ _ hchange => Change.mono hchange hgone) _ _ hevolves

theorem Evolves.of_none (hevolves : Evolves ∅ h t) : Evolves gone h t :=
  hevolves.mono (Set.empty_subset gone)

/-- Nothing happens when a handle is released that reaches nothing. -/
theorem release_eq_self (hnone : h.lookup? handle = none) : h.release handle = h := by
  rw [Heap.release, hnone]

/-- The handles of the objects whose slots have no mark. -/
def unmarkedHandles (h : Heap) (marks : Array Bool) : Set Handle :=
  {x | (h.lookup? x).isSome ∧ marks[x.index]?.getD false = false}

theorem evolves_sweepSlot {marks : Array Bool} (hgone : unmarkedHandles h marks ⊆ gone)
    (freed index : Nat) : Evolves gone h (sweepSlot marks (freed, h) index).2 := by
  rw [sweepSlot]
  split
  next generation object hslot =>
    split
    next => exact .refl
    next hmark =>
      have hlook : h.lookup? ⟨index, generation⟩ = some object := lookup?_eq_some_iff.2 hslot
      exact .single (.release h (hgone ⟨by simp [hlook], Bool.eq_false_of_not_eq_true hmark⟩))
  next => exact .refl

/-- A sweep leaves no more objects without a mark than there were. -/
theorem unmarkedHandles_sweepSlot (marks : Array Bool) (freed index : Nat) :
    unmarkedHandles (sweepSlot marks (freed, h) index).2 marks ⊆ unmarkedHandles h marks := by
  rintro x ⟨hlive, hmark⟩
  refine ⟨?_, hmark⟩
  rw [lookup?_sweepSlot] at hlive
  split at hlive
  next => cases hlive
  next => exact hlive

theorem evolves_foldl_sweepSlot {marks : Array Bool} (hgone : unmarkedHandles h marks ⊆ gone)
    (indices : List Nat) (freed : Nat) :
    Evolves gone h (indices.foldl (sweepSlot marks) (freed, h)).2 := by
  induction indices generalizing freed h with
  | nil => exact .refl
  | cons index indices ih =>
    exact (evolves_sweepSlot hgone freed index).trans
      (ih ((unmarkedHandles_sweepSlot marks freed index).trans hgone) _)

/-- A collection counts itself, releases objects one after the other and starts counting anew. -/
theorem evolves_collect (roots : List Value) (h : Heap) :
    Evolves (unmarkedHandles h (h.marksFrom roots)) h (h.collect roots).2 := by
  let counted : Heap :=
    { h with stats := { h.stats with collections := h.stats.collections + 1 } }
  have hsame : unmarkedHandles counted (h.marksFrom roots) ⊆
      unmarkedHandles h (h.marksFrom roots) := Set.Subset.refl _
  have hcounted : Evolves (unmarkedHandles h (h.marksFrom roots)) h counted :=
    .single (.count h (h.stats.collections + 1) h.sinceCollection)
  exact (hcounted.trans (evolves_foldl_sweepSlot hsame _ _)).tail (.count _ _ 0)

/-! ### Changes that actions consist of -/

/-- Whether an action fails or not, it comes down to changes by which no object goes. -/
def Evolving (act : Action α) : Prop :=
  ∀ h, Ensures act h (fun _ t => Evolves ∅ h t) fun _ t => Evolves ∅ h t

theorem Evolving.bind {act : Action α} {f : α → Action β} (hact : Evolving act)
    (hf : ∀ a, Evolving (f a)) : Evolving (act >>= f) := by
  intro h
  rw [ensures_bind]
  refine (hact h).mono (fun a t ht => ?_) fun _ _ ht => ht
  exact (hf a t).mono (fun _ _ hu => ht.trans hu) fun _ _ hu => ht.trans hu

theorem Evolving.map {act : Action α} (hact : Evolving act) (f : α → β) : Evolving (f <$> act) := by
  intro h
  rw [ensures_map]
  exact hact h

theorem evolving_throw (fault : Fault) : Evolving (throw fault : Action α) := fun _ => .refl

theorem evolving_observe (look : Heap → Except Fault α) : Evolving (observe look) := by
  intro h
  rw [ensures_observe]
  exact ⟨fun _ _ => .refl, fun _ _ => .refl⟩

/-- Storing what was reserved for, and maybe less than that. -/
theorem evolving_alloc (object : HeapObject) {bytes : Nat} (hbytes : object.charge ≤ bytes) :
    Evolving (do reserve bytes; insert object) := by
  intro h
  rw [ensures_bind, ensures_reserve]
  refine ⟨fun hroom => ?_, fun _ => .refl⟩
  rw [ensures_insert]
  exact .single (.store (hbytes.trans hroom))

theorem evolving_allocFixed (size : Nat) : Evolving (allocFixed size) :=
  evolving_alloc _ (Nat.le_of_eq (size_zeroBytes size))

/-- The storage leaves room for the header. -/
theorem evolving_allocBuffer (capacity : Nat) : Evolving (allocBuffer capacity) := by
  intro h
  rw [allocBuffer, ensures_bind, ensures_reserve]
  refine ⟨fun hroom => ?_, fun _ => .refl⟩
  rw [ensures_bind, ensures_insert, ensures_insert]
  have hcharge : (HeapObject.fixedBuffer (zeroBytes capacity)).charge = capacity :=
    size_zeroBytes capacity
  have hused : (h.store (.fixedBuffer (zeroBytes capacity))).2.available = h.available - capacity := by
    change h.config.heapLimit - (h.used + _) = _
    rw [hcharge, available, Nat.sub_add_eq]
  have hstorage : Change ∅ h (h.store (.fixedBuffer (zeroBytes capacity))).2 :=
    .store (by omega)
  -- Room was reserved for both, so what the storage leaves is enough for the header.
  refine .tail (.single hstorage) (.store ?_)
  rw [hused, HeapObject.charge]
  omega

theorem evolving_allocate (kind : ObjectKind) (size : Nat) : Evolving (allocate kind size) := by
  cases kind with
  | fixedBuffer => exact evolving_allocFixed size
  | buffer => exact evolving_allocBuffer size
  | closure => exact evolving_throw _
  | string => exact evolving_alloc _ (Nat.zero_le size)

/-- Bytes are replaced by as many bytes. -/
theorem evolving_changeRegion {change : ByteArray → ByteArray} (handle : Handle)
    (hchange : ∀ bytes, (change bytes).size = bytes.size) :
    Evolving (changeRegion handle change) := by
  intro h
  rw [changeRegion, ensures_bind, ensures_discard, ensures_observe]
  refine ⟨fun bytes hbytes => ?_, fun _ _ => .refl⟩
  exact .single (.update (region_eq_ok_iff.1 hbytes) rfl (hchange bytes))

theorem evolving_writeFixed (r : HeapRef) (position : Nat) (source : ByteArray) :
    Evolving (writeFixed r position source) := by
  refine Evolving.bind (fun h => ?_) fun _ =>
    evolving_changeRegion _ fun bytes => size_overwriteBytes bytes position source
  rw [ensures_ofExcept]
  exact ⟨fun _ _ => .refl, fun _ _ => .refl⟩

theorem evolving_writeBuffer (r : HeapRef) (position : Nat) (source : ByteArray) :
    Evolving (writeBuffer r position source) :=
  (evolving_observe _).bind fun _ =>
    evolving_changeRegion _ fun bytes => size_overwriteBytes bytes position source

/-! ### Headers -/

/-- A change does not make an object out of nothing. -/
theorem lookup?_update_eq_none {x : Handle} (change : HeapObject → HeapObject)
    (hnone : h.lookup? x = none) : (h.update handle change).lookup? x = none := by
  rw [lookup?_update, hnone]
  split <;> rfl

/-- The header of the buffer that a handle reaches. -/
def headerAt? (h : Heap) (x : Handle) : Option BufferHeader :=
  match h.lookup? x with
  | some (.buffer header) => some header
  | _ => none

theorem headerAt?_eq_some_iff :
    h.headerAt? handle = some header ↔ h.lookup? handle = some (.buffer header) := by
  rw [headerAt?]
  split <;> simp_all

/-- From one heap to another the header of a buffer has been replaced, and those of the others are
the same. -/
def Reheads (x : Handle) (header : BufferHeader) (h t : Heap) : Prop :=
  ∀ y, t.headerAt? y = if y = x then some header else h.headerAt? y

/-- Changing a fixed buffer leaves the headers alone. -/
theorem headerAt?_update_region {bytes : ByteArray} (hregion : h.region handle = .ok bytes)
    (change : ByteArray → ByteArray) (y : Handle) :
    (h.update handle (.mapBytes change)).headerAt? y = h.headerAt? y := by
  have hbytes := region_eq_ok_iff.1 hregion
  rw [headerAt?, headerAt?, lookup?_update_of_lookup? _ hbytes]
  by_cases hy : y = handle
  · simp [hy, hbytes, HeapObject.mapBytes]
  · simp [hy]

theorem reheads_update (hheader : h.header r = .ok header) (change : BufferHeader → BufferHeader) :
    Reheads r.handle (change header) h (h.update r.handle (.mapHeader change)) := by
  intro y
  rw [headerAt?, headerAt?, lookup?_update_of_lookup? _ (header_eq_ok_iff.1 hheader).1]
  by_cases hy : y = r.handle
  · simp [hy, HeapObject.mapHeader]
  · simp [hy]

/-- A buffer was moved: its header, which was this one, points to a new storage of a capacity, and
the old storage is gone. -/
structure Moves (r : HeapRef) (capacity : Nat) (header : BufferHeader) (h t : Heap) : Prop where
  /-- The header was there. -/
  found : h.header r = .ok header
  /-- So was its storage. -/
  live : (h.lookup? header.storage).isSome
  /-- No other object goes but the old storage. -/
  evolves : Evolves {header.storage} h t
  /-- The old storage goes. -/
  gone : t.lookup? header.storage = none
  /-- The new storage is another one. -/
  reheads : ∃ storage, storage ≠ header.storage ∧
    Reheads r.handle { header with storage, capacity } h t

/-- What happens when the storage of a buffer is replaced by a new one of another capacity. -/
theorem moves_moveStorage {bytes : ByteArray} (hfree : h.FreeList)
    (hheader : h.header r = .ok header)
    (hregion : h.region header.storage = .ok bytes) {capacity : Nat}
    (hroom : capacity ≤ h.available) :
    Moves r capacity header h
      (((h.store (.fixedBuffer (movedBytes bytes header.size capacity))).2.update r.handle
        (.mapHeader fun header => { header with storage := h.nextHandle, capacity })).release
          header.storage) := by
  have hbuf := (header_eq_ok_iff.1 hheader).1
  have hbytes := region_eq_ok_iff.1 hregion
  have hmoved := size_movedBytes bytes header.size capacity
  have hnext := lookup?_nextHandle hfree
  have hlooks := lookup?_moveStorage hfree hbuf (movedBytes bytes header.size capacity)
    (mapHeader_moved header bytes h.nextHandle capacity)
  rw [hmoved] at hlooks
  refine ⟨hheader, by simp [hbytes], ?_, ?_, h.nextHandle, ?_, fun y => ?_⟩
  · have hstore : Change {header.storage} h
        (h.store (.fixedBuffer (movedBytes bytes header.size capacity))).2 :=
      .store (hmoved.trans_le hroom)
    have hthere : (h.store (.fixedBuffer (movedBytes bytes header.size capacity))).2.lookup?
        r.handle = some (.buffer header) := lookup?_store_of_lookup? hfree hbuf
    exact ((Relation.ReflTransGen.single hstore).tail (.update hthere rfl rfl)).tail
      (.release _ (Set.mem_singleton _))
  · rw [hlooks, if_pos rfl]
  · intro heq
    simp [← heq, hnext] at hbytes
  · rw [headerAt?, headerAt?, hlooks]
    -- Neither storage has a header, whether it is looked up before or after.
    by_cases hold : y = header.storage
    · simp [hold, hbytes, storage_ne hbuf hbytes]
    · rw [if_neg hold]
      by_cases hy : y = r.handle
      · simp [hy]
      · rw [if_neg hy, if_neg hy]
        by_cases hnew : y = h.nextHandle
        · simp [hnew, hnext]
        · rw [if_neg hnew]

/-- The new storage is stored when it was reserved for, and the old one is released at last. Nothing
happens when there is no buffer, or too little room. -/
theorem ensures_setCapacity (hfree : h.FreeList) (r : HeapRef) (capacity : Nat) :
    Ensures (setCapacity r capacity) h (fun _ t => ∃ header, Moves r capacity header h t)
      (fun _ t => t = h) := by
  rw [setCapacity, ensures_bind, ensures_observe]
  refine ⟨fun header hheader => ?_, fun _ _ => rfl⟩
  rw [ensures_bind, ensures_reserve]
  refine ⟨fun hroom => ?_, fun _ => rfl⟩
  rw [ensures_bind, ensures_observe]
  refine ⟨fun bytes hregion => ?_, fun _ _ => rfl⟩
  obtain ⟨hbuf, hkind⟩ := header_eq_ok_iff.1 hheader
  have hthere : (h.store (.fixedBuffer (movedBytes bytes header.size capacity))).2.header r =
      .ok header := header_eq_ok_iff.2 ⟨lookup?_store_of_lookup? hfree hbuf, hkind⟩
  rw [ensures_bind, ensures_insert, ensures_bind, ensures_changeHeader hthere, ensures_modify]
  exact ⟨header, moves_moveStorage hfree hheader hregion hroom⟩

/-- The size of a buffer was set where it lies, if there is one. -/
structure SetsSize (r : HeapRef) (size : Nat) (h t : Heap) : Prop where
  /-- No object goes. -/
  evolves : Evolves ∅ h t
  /-- None comes either. -/
  missing : ∀ x, h.lookup? x = none → t.lookup? x = none
  /-- Nothing has changed, or the header has got the size. -/
  reheads : t = h ∨ ∃ header, h.header r = .ok header ∧ Reheads r.handle { header with size } h t

theorem SetsSize.refl (r : HeapRef) (size : Nat) (h : Heap) : SetsSize r size h h :=
  ⟨.refl, fun _ => id, .inl rfl⟩

/-- Whether the bytes that come into use can be cleared or not, the size of the buffer is set. -/
theorem setsSize_of_header (r : HeapRef) (size : Nat) (h : Heap) :
    Ensures (do
      let header ← observe (·.header r)
      changeHeader r fun header => { header with size }
      if header.size < size then
        changeRegion header.storage (zeroFill · header.size size)) h
      (fun _ t => SetsSize r size h t) (fun _ t => SetsSize r size h t) := by
  rw [ensures_bind, ensures_observe]
  refine ⟨fun header hheader => ?_, fun _ _ => .refl r size h⟩
  rw [ensures_bind, ensures_changeHeader hheader]
  have hsized := reheads_update hheader fun header => { header with size }
  have hmissing : ∀ x, h.lookup? x = none → (h.update r.handle _).lookup? x = none :=
    fun x => lookup?_update_eq_none (.mapHeader fun header => { header with size })
  generalize hu : h.update r.handle (.mapHeader fun header => { header with size }) = u
    at hsized hmissing
  have hchange : Change ∅ h u := hu ▸ .update (header_eq_ok_iff.1 hheader).1 rfl rfl
  have hset : SetsSize r size h u := ⟨.single hchange, hmissing, .inr ⟨header, hheader, hsized⟩⟩
  split
  next =>
    rw [changeRegion, ensures_bind, ensures_discard, ensures_observe]
    -- A storage that was released before is not found, but the header is set by then.
    refine ⟨fun bytes hregion => ?_, fun _ _ => hset⟩
    refine ⟨.tail (.single hchange) ?_, fun x hx => ?_, .inr ⟨header, hheader, fun y => ?_⟩⟩
    · exact .update (region_eq_ok_iff.1 hregion) rfl (size_zeroFill bytes _ _)
    · exact lookup?_update_eq_none _ (hmissing x hx)
    · exact (headerAt?_update_region hregion _ y).trans (hsized y)
  next => exact hset

/-- Raising a capacity does nothing or moves the buffer. -/
theorem after_reserveBuffer (hfree : h.FreeList) (r : HeapRef) (capacity : Nat) :
    (Operation.reserveBuffer r capacity).after h = h ∨ ∃ header, header.capacity < capacity ∧
      Moves r capacity header h ((Operation.reserveBuffer r capacity).after h) := by
  have hrun : Ensures (reserveBuffer r capacity) h
      (fun _ t => t = h ∨ ∃ header, header.capacity < capacity ∧ Moves r capacity header h t)
      fun _ t => t = h ∨ ∃ header, header.capacity < capacity ∧ Moves r capacity header h t := by
    rw [reserveBuffer, ensures_bind, ensures_observe]
    refine ⟨fun header hheader => ?_, fun _ _ => .inl rfl⟩
    split
    next hlt =>
      refine (ensures_setCapacity hfree r capacity).mono ?_ fun _ _ => .inl
      rintro _ t ⟨header', hmoves⟩
      obtain rfl := Except.ok.inj (hheader.symm.trans hmoves.found)
      exact .inr ⟨header, hlt, hmoves⟩
    next => exact .inl rfl
  exact Operation.after_of_map rfl hrun

/-- So does cutting it down to the size. -/
theorem after_shrinkBuffer (hfree : h.FreeList) (r : HeapRef) :
    (Operation.shrinkBuffer r).after h = h ∨ ∃ header,
      Moves r header.size header h ((Operation.shrinkBuffer r).after h) := by
  have hrun : Ensures (shrinkBuffer r) h
      (fun _ t => t = h ∨ ∃ header, Moves r header.size header h t)
      fun _ t => t = h ∨ ∃ header, Moves r header.size header h t := by
    rw [shrinkBuffer, ensures_bind, ensures_observe]
    refine ⟨fun header hheader => ?_, fun _ _ => .inl rfl⟩
    refine (ensures_setCapacity hfree r header.size).mono ?_ fun _ _ => .inl
    rintro _ t ⟨header', hmoves⟩
    obtain rfl := Except.ok.inj (hheader.symm.trans hmoves.found)
    exact .inr ⟨header, hmoves⟩
  exact Operation.after_of_map rfl hrun

/-- What setting a size comes down to: the buffer is moved first if its capacity does not do. -/
def Resizes (r : HeapRef) (size : Nat) (h t : Heap) : Prop :=
  t = h ∨ (∃ header, h.header r = .ok header ∧ size ≤ header.capacity ∧ SetsSize r size h t) ∨
    ∃ header u, header.capacity < size ∧
      Moves r (grownBufferCapacity header.capacity size) header h u ∧ SetsSize r size u t

theorem after_resizeBuffer (hfree : h.FreeList) (r : HeapRef) (size : Nat) :
    Resizes r size h ((Operation.resizeBuffer r size).after h) := by
  have hrun : Ensures (resizeBuffer r size) h (fun _ t => Resizes r size h t)
      fun _ t => Resizes r size h t := by
    rw [resizeBuffer, ensures_bind, ensures_observe]
    refine ⟨fun header hheader => ?_, fun _ _ => .inl rfl⟩
    dsimp only
    split
    next hlt =>
      rw [ensures_bind]
      refine (ensures_setCapacity hfree r _).mono ?_ fun _ _ => .inl
      rintro _ u ⟨header', hmoves⟩
      -- The header that was moved is the one that was read.
      obtain rfl := Except.ok.inj (hheader.symm.trans hmoves.found)
      have hresizes : ∀ t, SetsSize r size u t → Resizes r size h t :=
        fun t hsets => .inr (.inr ⟨header, u, hlt, hmoves, hsets⟩)
      exact (setsSize_of_header r size u).mono (fun _ t => hresizes t) fun _ t => hresizes t
    next hle =>
      have hresizes : ∀ t, SetsSize r size h t → Resizes r size h t :=
        fun t hsets => .inr (.inl ⟨header, hheader, Nat.not_lt.1 hle, hsets⟩)
      exact (setsSize_of_header r size h).mono (fun _ t => hresizes t) fun _ t => hresizes t
  exact Operation.after_of_map rfl hrun

/-! ### Changes that operations consist of -/

/-- The storage of a buffer that has another one afterwards. -/
def relocated (r : HeapRef) (h t : Heap) : Set Handle :=
  {x | ∃ header header', h.header r = .ok header ∧ header.storage = x ∧
    t.header r = .ok header' ∧ header'.storage ≠ x}

theorem not_mem_relocated_self (r : HeapRef) (h : Heap) (x : Handle) : x ∉ relocated r h h := by
  rintro ⟨header, header', hheader, rfl, hheader', hne⟩
  obtain rfl := Except.ok.inj (hheader.symm.trans hheader')
  exact hne rfl

/-- A header that replaces another one is found. -/
theorem Reheads.header_eq {header' : BufferHeader} (hreheads : Reheads r.handle header' h t)
    (hheader : h.header r = .ok header) : t.header r = .ok header' := by
  have hthere := hreheads r.handle
  rw [if_pos rfl] at hthere
  exact header_eq_ok_iff.2 ⟨headerAt?_eq_some_iff.1 hthere, (header_eq_ok_iff.1 hheader).2⟩

/-- Setting a size does not replace the storage. -/
theorem SetsSize.relocated {u : Heap} {size : Nat} (hsets : SetsSize r size u t) :
    relocated r h t = relocated r h u := by
  rcases hsets.reheads with rfl | ⟨header, hheader, hreheads⟩
  · rfl
  · ext x
    simp only [Heap.relocated, hreheads.header_eq hheader, hheader, Set.mem_ofPred_eq,
      Except.ok.injEq]
    constructor
    · rintro ⟨old, _, hold, hx, rfl, hne⟩
      exact ⟨old, header, hold, hx, rfl, hne⟩
    · rintro ⟨old, _, hold, hx, rfl, hne⟩
      exact ⟨old, _, hold, hx, rfl, hne⟩

theorem Moves.relocated {capacity : Nat} (hmoves : Moves r capacity header h t) :
    relocated r h t = {header.storage} := by
  obtain ⟨storage, hne, hreheads⟩ := hmoves.reheads
  ext x
  simp only [Heap.relocated, hmoves.found, hreheads.header_eq hmoves.found, Set.mem_ofPred_eq,
    Except.ok.injEq, Set.mem_singleton_iff]
  constructor
  · rintro ⟨_, _, rfl, hx, -, -⟩
    exact hx.symm
  · rintro rfl
    exact ⟨header, _, rfl, rfl, rfl, hne⟩

/-- The handles whose objects an operation takes away. -/
def Operation.released (op : Operation) (h : Heap) : Set Handle :=
  match op with
  | release handle => {x | (h.lookup? x).isSome ∧ x = handle}
  | collect roots => unmarkedHandles h (h.marksFrom roots)
  | reserveBuffer r _ | resizeBuffer r _ | shrinkBuffer r => relocated r h (op.after h)
  | _ => ∅

/-- From one heap to another no other handles lose their objects than these, and these do. -/
structure Releases (gone : Set Handle) (h t : Heap) : Prop where
  /-- They have objects. -/
  live : ∀ x ∈ gone, (h.lookup? x).isSome
  /-- Nothing is released but them. -/
  evolves : Evolves gone h t
  /-- They are released. -/
  gone : ∀ x ∈ gone, t.lookup? x = none

theorem releases_of_evolving {op : Operation} (hrun : Evolving op.run) :
    Releases ∅ h (op.after h) :=
  ⟨fun _ => False.elim, Operation.after_of_ensures (hrun h), fun _ => False.elim⟩

theorem releases_relocated_self (r : HeapRef) (h : Heap) : Releases (relocated r h h) h h :=
  ⟨fun x hx => absurd hx (not_mem_relocated_self r h x), .refl,
    fun x hx => absurd hx (not_mem_relocated_self r h x)⟩

theorem Moves.releases {capacity : Nat} (hmoves : Moves r capacity header h t) :
    Releases (Heap.relocated r h t) h t := by
  rw [hmoves.relocated]
  exact ⟨fun x hx => hx ▸ hmoves.live, hmoves.evolves, fun x hx => hx ▸ hmoves.gone⟩

theorem SetsSize.releases {u : Heap} {size : Nat} (hsets : SetsSize r size u t)
    (hreleases : Releases (Heap.relocated r h u) h u) : Releases (Heap.relocated r h t) h t := by
  rw [hsets.relocated]
  exact ⟨hreleases.live, hreleases.evolves.trans hsets.evolves.of_none,
    fun x hx => hsets.missing x (hreleases.gone x hx)⟩

/-- Every operation but dropping everything comes down to single changes, whether it fails or not.
The objects that go are those of the handles that it releases. -/
theorem releases_after {op : Operation} (hclear : op ≠ .clear) (hfree : h.FreeList) :
    Releases (op.released h) h (op.after h) := by
  cases op with
  | allocate kind size => exact releases_of_evolving ((evolving_allocate kind size).map _)
  | allocString text =>
    exact releases_of_evolving ((evolving_alloc (.string text) (Nat.le_refl _)).map _)
  | allocBuffer capacity => exact releases_of_evolving ((evolving_allocBuffer capacity).map _)
  | allocClosure routine upvalues =>
    exact releases_of_evolving ((evolving_alloc (.closure routine upvalues) (Nat.le_refl _)).map _)
  | writeFixed r position source =>
    exact releases_of_evolving ((evolving_writeFixed r position source).map _)
  | writeBuffer r position source =>
    exact releases_of_evolving ((evolving_writeBuffer r position source).map _)
  | reserveBuffer r capacity =>
    change Releases (relocated r h _) h _
    rcases after_reserveBuffer hfree r capacity with heq | ⟨header, -, hmoves⟩
    · rw [heq]
      exact releases_relocated_self r h
    · exact hmoves.releases
  | resizeBuffer r size =>
    change Releases (relocated r h _) h _
    rcases after_resizeBuffer hfree r size with
      heq | ⟨-, -, -, hsets⟩ | ⟨header, u, -, hmoves, hsets⟩
    · rw [heq]
      exact releases_relocated_self r h
    · exact hsets.releases (releases_relocated_self r h)
    · exact hsets.releases hmoves.releases
  | shrinkBuffer r =>
    change Releases (relocated r h _) h _
    rcases after_shrinkBuffer hfree r with heq | ⟨header, hmoves⟩
    · rw [heq]
      exact releases_relocated_self r h
    · exact hmoves.releases
  | release handle =>
    refine ⟨fun _ => And.left, ?_, fun x hx => lookup?_release.trans (if_pos hx.2)⟩
    cases hlook : h.lookup? handle with
    | none =>
      change Evolves _ h (h.release handle)
      rw [release_eq_self hlook]
    | some object => exact .single (.release h ⟨by simp [hlook], rfl⟩)
  | collect roots =>
    refine ⟨fun _ => And.left, evolves_collect roots h, fun x hx => ?_⟩
    refine (lookup?_collect roots).trans (if_neg fun hmarked => ?_)
    simp [Operation.released, unmarkedHandles, hmarked] at hx
  | clear => exact absurd rfl hclear

/-! ### What changes preserve -/

theorem Balanced.change (hb : h.Balanced) (hchange : Change gone h t) : t.Balanced := by
  cases hchange with
  | store => exact hb.store _
  | release => exact hb.release _
  | update hlive _ hcharge => exact hb.update hlive hcharge
  | count => exact ⟨⟨hb.freeList.nodup, hb.freeList.vacant⟩, hb.used⟩

theorem Balanced.evolves (hb : h.Balanced) (hevolves : Evolves gone h t) : t.Balanced := by
  induction hevolves with
  | refl => exact hb
  | tail _ hchange ih => exact ih.change hchange

theorem balanced_clear (h : Heap) : h.clear.Balanced :=
  ⟨⟨List.nodup_nil, by simp [Heap.clear]⟩, rfl⟩

theorem config_eq_of_change (hchange : Change gone h t) : t.config = h.config := by
  cases hchange with
  | release => unfold Heap.release; split <;> rfl
  | _ => rfl

theorem config_eq_of_evolves (hevolves : Evolves gone h t) : t.config = h.config := by
  induction hevolves with
  | refl => rfl
  | tail _ hchange ih => rw [config_eq_of_change hchange, ih]

variable {config : HeapConfig}

/-- At all times the bytes held are those charged for the objects. -/
theorem balanced_of_reached (hreached : Reached config h) : h.Balanced := by
  induction hreached with
  | empty => exact balanced_empty config
  | @next h op _ ih =>
    by_cases hclear : op = .clear
    · subst hclear
      exact balanced_clear h
    · exact ih.evolves (releases_after hclear ih.freeList).evolves

/-- The settings of a heap are those that it was made with. -/
theorem config_of_reached (hreached : Reached config h) : h.config = config := by
  induction hreached with
  | empty => rfl
  | @next h op hbefore ih =>
    by_cases hclear : op = .clear
    · subst hclear
      exact ih
    · rw [config_eq_of_evolves
        (releases_after hclear (balanced_of_reached hbefore).freeList).evolves, ih]

end ActorMachine.Heap
