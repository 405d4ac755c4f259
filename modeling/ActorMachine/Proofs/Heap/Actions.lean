import ActorMachine.Heap.Buffer
import ActorMachine.Proofs.Heap.Sound

/-!
# Actions on sound heaps

`SafeAt h act post`: run on the sound heap `h`, the action leaves a sound heap that backs all
that `h` backs, whether it fails or not, and `post` holds of its result. Safe actions compose
(`SafeAt.bind`), and every allocation and every operation on a buffer is one.
-/

namespace ActorMachine.Heap

variable {h t : Heap} {r : HeapRef} {handle : Handle} {α β : Type}

/-! ### Looking up -/

theorem deref_eq_ok_iff {object : HeapObject} :
    h.deref r = .ok object ↔ h.lookup? r.handle = some object ∧ object.kind = r.kind := by
  simp only [deref, lookup]
  cases hlook : h.lookup? r.handle with
  | none => simp [bind, Except.bind]
  | some o =>
    by_cases hkind : o.kind = r.kind
    · simp only [bind, Except.bind, hkind, if_true, pure, Except.pure, Except.ok.injEq,
        Option.some.injEq]
      constructor
      · rintro rfl
        exact ⟨rfl, hkind⟩
      · exact And.left
    · simp only [bind, Except.bind, hkind, if_false, throw, throwThe, MonadExceptOf.throw,
        reduceCtorEq, Option.some.injEq, false_iff, not_and]
      rintro rfl
      exact hkind

/-- A value that the heap backs can be looked up. -/
theorem Backs.deref (hv : h.Backs (.ref r)) :
    ∃ object, h.deref r = .ok object ∧ object.kind = r.kind := by
  obtain ⟨⟨object, hlook, hkind⟩, -⟩ := hv
  exact ⟨object, deref_eq_ok_iff.2 ⟨hlook, hkind⟩, hkind⟩

/-- What is read off an object is read off the object that the reference reaches. -/
theorem deref_bind_eq_ok_iff {f : HeapObject → Except Fault α} {a : α} :
    (h.deref r >>= f) = .ok a ↔
      ∃ object, h.lookup? r.handle = some object ∧ object.kind = r.kind ∧ f object = .ok a := by
  simp only [except_bind_eq_ok_iff, deref_eq_ok_iff, and_assoc]

theorem header_eq_ok_iff {header : BufferHeader} :
    h.header r = .ok header ↔
      h.lookup? r.handle = some (.buffer header) ∧ r.kind = .buffer := by
  refine deref_bind_eq_ok_iff.trans ⟨fun ⟨object, hlook, hkind, hf⟩ => ?_, ?_⟩
  · cases object <;> cases hf
    exact ⟨hlook, hkind.symm⟩
  · exact fun ⟨hlook, hkind⟩ => ⟨_, hlook, hkind.symm, rfl⟩

theorem closure_eq_ok_iff {routine : Routine} {upvalues : Array Value} :
    h.closure r = .ok (routine, upvalues) ↔
      h.lookup? r.handle = some (.closure routine upvalues) ∧ r.kind = .closure := by
  refine deref_bind_eq_ok_iff.trans ⟨fun ⟨object, hlook, hkind, hf⟩ => ?_, ?_⟩
  · cases object <;> cases hf
    exact ⟨hlook, hkind.symm⟩
  · exact fun ⟨hlook, hkind⟩ => ⟨_, hlook, hkind.symm, rfl⟩

theorem string_eq_ok_iff {text : String} :
    h.string r = .ok text ↔ h.lookup? r.handle = some (.string text) ∧ r.kind = .string := by
  refine deref_bind_eq_ok_iff.trans ⟨fun ⟨object, hlook, hkind, hf⟩ => ?_, ?_⟩
  · cases object <;> cases hf
    exact ⟨hlook, hkind.symm⟩
  · exact fun ⟨hlook, hkind⟩ => ⟨_, hlook, hkind.symm, rfl⟩

theorem region_eq_ok_iff {bytes : ByteArray} :
    h.region handle = .ok bytes ↔ h.lookup? handle = some (.fixedBuffer bytes) := by
  simp only [region, lookup]
  cases hlook : h.lookup? handle with
  | none => simp [bind, Except.bind]
  | some o =>
    cases o <;> simp [bind, Except.bind, pure, Except.pure, throw, throwThe, MonadExceptOf.throw]

/-- The bytes in use of a buffer are the first ones of its storage. -/
theorem bufferBytes_of_header {header : BufferHeader} {bytes : ByteArray}
    (hheader : h.header r = .ok header)
    (hbytes : h.lookup? header.storage = some (.fixedBuffer bytes)) :
    h.bufferBytes r = .ok (bytes.extract 0 header.size) := by
  rw [bufferBytes, hheader]
  simp only [bind, Except.bind, region_eq_ok_iff.2 hbytes]
  rfl

/-! ### What the single actions do -/

section Rules

variable {fail : Fault → Heap → Prop}

@[simp]
theorem ensures_reserve {ok : Unit → Heap → Prop} (bytes : Nat) :
    Ensures (reserve bytes) h ok fail ↔
      (bytes ≤ h.available → ok () h) ∧
        (h.available < bytes → fail (.outOfMemory bytes h.available) h) := by
  rw [reserve, ensures_bind, ensures_get, ensures_ofExcept, room]
  split
  next hroom =>
    refine ⟨fun ⟨_, hfail⟩ => ⟨fun hle => absurd hroom (Nat.not_lt.2 hle), fun _ => hfail _ rfl⟩,
      fun ⟨_, hfail⟩ => ⟨by simp, ?_⟩⟩
    rintro _ ⟨⟩
    exact hfail hroom
  next hroom =>
    refine ⟨fun ⟨hok, _⟩ => ⟨fun _ => hok () rfl, fun hlt => absurd hlt hroom⟩,
      fun ⟨hok, _⟩ => ⟨fun _ _ => hok (Nat.not_lt.1 hroom), by simp⟩⟩

/-- Looking for room changes nothing. -/
theorem upholds_reserve {inv : Heap → Prop} (bytes : Nat) :
    Upholds inv (reserve bytes) fun _ => True :=
  upholds_get_bind fun _ _ => upholds_ofExcept fun _ _ => trivial

@[simp]
theorem ensures_observe {ok : α → Heap → Prop} (look : Heap → Except Fault α) :
    Ensures (observe look) h ok fail ↔
      (∀ a, look h = .ok a → ok a h) ∧ ∀ fault, look h = .error fault → fail fault h := by
  simp [observe]

/-- An action fails as the look does that it starts with. -/
theorem observe_bind_of_error {look : Heap → Except Fault α} {fault : Fault}
    (hlook : look h = .error fault) (f : α → Action β) :
    (observe look >>= f) h = .error fault h := by
  show (ofExcept (look h) >>= f) h = _
  rw [hlook]
  rfl

@[simp]
theorem ensures_insert {ok : HeapRef → Heap → Prop} (object : HeapObject) :
    Ensures (insert object) h ok fail ↔
      ok ⟨object.kind, h.nextHandle⟩ (h.store object).2 := by
  simp [insert, fst_store]

end Rules

/-! ### Safe actions -/

/-- Run on `h`, the action leaves a sound heap that backs what `h` backs, and `post` holds of its
result. -/
def SafeAt (h : Heap) (act : Action α) (post : α → Heap → Prop) : Prop :=
  Ensures act h (fun a t => t.Sound ∧ h.Carries t ∧ post a t)
    (fun _ t => t.Sound ∧ h.Carries t)

/-- Safe actions compose. -/
theorem SafeAt.bind {act : Action α} {f : α → Action β} {mid : α → Heap → Prop}
    {post : β → Heap → Prop} (hact : h.SafeAt act mid)
    (hf : ∀ a t, t.Sound → h.Carries t → mid a t → t.SafeAt (f a) post) :
    h.SafeAt (act >>= f) post := by
  rw [SafeAt, ensures_bind]
  refine Ensures.mono hact (fun a t ⟨ht, hht, hmid⟩ => ?_) (fun _ _ => id)
  refine Ensures.mono (hf a t ht hht hmid) ?_ ?_
  · rintro b u ⟨hu, htu, hpost⟩
    exact ⟨hu, htu.trans hht, hpost⟩
  · rintro _ u ⟨hu, htu⟩
    exact ⟨hu, htu.trans hht⟩

/-- An action that only looks is safe. -/
theorem safeAt_observe (hs : h.Sound) (look : Heap → Except Fault α) :
    h.SafeAt (observe look) fun a t => t = h ∧ look h = .ok a := by
  rw [SafeAt, ensures_observe]
  exact ⟨fun a ha => ⟨hs, .refl h, rfl, ha⟩, fun _ _ => ⟨hs, .refl h⟩⟩

theorem safeAt_reserve (hs : h.Sound) (bytes : Nat) :
    h.SafeAt (reserve bytes) fun _ t => t = h := by
  rw [SafeAt, ensures_reserve]
  exact ⟨fun _ => ⟨hs, .refl h, rfl⟩, fun _ => ⟨hs, .refl h⟩⟩

/-- A new object other than a buffer is backed. -/
theorem safeAt_insert {object : HeapObject} (hs : h.Sound) (hbuffer : object.kind ≠ .buffer)
    (hups : ∀ routine upvalues, object = .closure routine upvalues → ∀ v ∈ upvalues, h.Backs v) :
    h.SafeAt (insert object) fun r t => t.Backs (.ref r) := by
  rw [SafeAt, ensures_insert]
  exact sound_store hs object hbuffer hups

/-! ### Allocation -/

theorem safeAt_allocString (hs : h.Sound) (text : String) :
    h.SafeAt (allocString text) fun r t => t.Backs (.ref r) := by
  refine (safeAt_reserve hs _).bind fun _ t ht _ _ => ?_
  exact safeAt_insert ht (by simp [HeapObject.kind]) (by simp)

/-- With room for its text a string can be allocated, and it has that text. -/
theorem allocString_spec (hs : h.Sound) {text : String} (hroom : text.utf8ByteSize ≤ h.available) :
    Ensures (allocString text) h
      (fun r t => t.Sound ∧ h.Carries t ∧ t.Backs (.ref r) ∧ t.string r = .ok text)
      (fun _ _ => False) := by
  rw [allocString, ensures_bind, ensures_reserve]
  refine ⟨fun _ => ?_, fun hshort => absurd hshort (Nat.not_lt.2 hroom)⟩
  rw [ensures_insert]
  obtain ⟨ht, hht, hbacks⟩ := sound_store hs (.string text) (by simp [HeapObject.kind])
    (by simp)
  refine ⟨ht, hht, hbacks, ?_⟩
  have hlook : (h.store (.string text)).2.lookup? h.nextHandle = some (.string text) := by
    rw [lookup?_store hs.freeList, if_pos rfl]
  exact string_eq_ok_iff.2 ⟨hlook, rfl⟩

theorem safeAt_allocFixed (hs : h.Sound) (size : Nat) :
    h.SafeAt (allocFixed size) fun r t => t.Backs (.ref r) := by
  refine (safeAt_reserve hs _).bind fun _ t ht _ _ => ?_
  exact safeAt_insert ht (by simp [HeapObject.kind]) (by simp)

theorem safeAt_allocClosure {upvalues : Array Value} (hs : h.Sound) (routine : Routine)
    (hups : ∀ v ∈ upvalues, h.Backs v) :
    h.SafeAt (allocClosure routine upvalues) fun r t => t.Backs (.ref r) := by
  refine (safeAt_reserve hs _).bind fun _ t ht _ heq => ?_
  subst heq
  refine safeAt_insert ht (by simp [HeapObject.kind]) ?_
  rintro _ _ heq v hv
  obtain ⟨-, rfl⟩ := HeapObject.closure.inj heq
  exact hups v hv

theorem safeAt_allocBuffer (hs : h.Sound) (capacity : Nat) :
    h.SafeAt (allocBuffer capacity) fun r t => t.Backs (.ref r) := by
  refine (safeAt_reserve hs _).bind fun _ t ht _ _ => ?_
  rw [SafeAt, ensures_bind, ensures_insert, ensures_insert]
  -- Header and storage are stored without a chance to collect in between.
  have hstored := sound_storeBuffer ht (zeroBytes capacity) 0
  rw [size_zeroBytes] at hstored
  exact hstored

/-! ### Buffers -/

/-- Bytes can be changed in place as long as their number stays. -/
theorem safeAt_changeRegion {change : ByteArray → ByteArray} (hs : h.Sound) (handle : Handle)
    (hchange : ∀ bytes, (change bytes).size = bytes.size) :
    h.SafeAt (changeRegion handle change) fun _ _ => True := by
  rw [SafeAt, changeRegion, ensures_bind, ensures_discard, ensures_observe]
  refine ⟨fun bytes hregion => ?_, fun _ _ => ⟨hs, .refl h⟩⟩
  rw [ensures_modify]
  obtain ⟨hsound, hcarries⟩ := sound_update hs (HeapObject.mapBytes change)
    (region_eq_ok_iff.1 hregion) (hchange bytes)
  exact ⟨hsound, hcarries, trivial⟩

/-- A header can be changed in place as long as storage and capacity stay. -/
theorem safeAt_changeHeader (hs : h.Sound) (r : HeapRef) (change : BufferHeader → BufferHeader)
    (hchange : ∀ header, (change header).storage = header.storage ∧
      (change header).capacity = header.capacity) :
    h.SafeAt (changeHeader r change) fun _ _ => True := by
  rw [SafeAt, changeHeader, ensures_bind, ensures_discard, ensures_observe]
  refine ⟨fun header hheader => ?_, fun _ _ => ⟨hs, .refl h⟩⟩
  rw [ensures_modify]
  obtain ⟨hsound, hcarries⟩ := sound_update hs (HeapObject.mapHeader change)
    (header_eq_ok_iff.1 hheader).1 (hchange header)
  exact ⟨hsound, hcarries, trivial⟩

theorem safeAt_writeFixed (hs : h.Sound) (r : HeapRef) (position : Nat) (source : ByteArray) :
    h.SafeAt (writeFixed r position source) fun _ _ => True := by
  rw [SafeAt, writeFixed, ensures_bind, ensures_ofExcept]
  refine ⟨fun _ _ => ?_, fun _ _ => ⟨hs, .refl h⟩⟩
  exact safeAt_changeRegion hs r.handle fun bytes => size_overwriteBytes bytes position source

theorem safeAt_writeBuffer (hs : h.Sound) (r : HeapRef) (position : Nat) (source : ByteArray) :
    h.SafeAt (writeBuffer r position source) fun _ _ => True := by
  refine (safeAt_observe hs _).bind fun header t ht _ _ => ?_
  exact safeAt_changeRegion ht _ fun bytes => size_overwriteBytes bytes position source

/-- The header of a buffer that is moved says where the bytes are, and how many there are. -/
theorem mapHeader_moved (header : BufferHeader) (bytes : ByteArray) (storage : Handle)
    (capacity : Nat) :
    HeapObject.mapHeader (fun header => { header with storage, capacity }) (.buffer header) =
      .buffer { header with
        storage
        capacity := (movedBytes bytes header.size capacity).size } := by
  rw [HeapObject.mapHeader, size_movedBytes]

/-- Moving the bytes of a buffer leaves neither the buffer without storage nor a reference to
the storage that goes. -/
theorem safeAt_setCapacity (hs : h.Sound) (r : HeapRef) (capacity : Nat) :
    h.SafeAt (setCapacity r capacity) fun _ _ => True := by
  refine (safeAt_observe hs _).bind ?_
  rintro header _ - - ⟨rfl, hheader⟩
  refine (safeAt_reserve hs _).bind ?_
  rintro _ _ - - rfl
  refine (safeAt_observe hs _).bind ?_
  rintro bytes h - - ⟨rfl, hregion⟩
  obtain ⟨hbuf, hkind⟩ := header_eq_ok_iff.1 hheader
  obtain ⟨hstored, hcarries, -⟩ := sound_store hs
    (.fixedBuffer (movedBytes bytes header.size capacity)) (by simp [HeapObject.kind]) (by simp)
  -- If the header is not found again, the heap has but a storage that belongs to nobody.
  rw [SafeAt, ensures_bind, ensures_insert, ensures_bind, changeHeader, ensures_bind,
    ensures_discard, ensures_observe]
  refine ⟨fun header' hheader' => ?_, fun _ _ => ⟨hstored, hcarries⟩⟩
  rw [ensures_modify, ensures_modify]
  obtain ⟨hsound, hmoved⟩ := sound_moveStorage hs hbuf (movedBytes bytes header.size capacity)
    (HeapObject.mapHeader fun header => { header with storage := h.nextHandle, capacity })
    (mapHeader_moved header bytes _ capacity)
  exact ⟨hsound, hmoved, trivial⟩

theorem safeAt_reserveBuffer (hs : h.Sound) (r : HeapRef) (capacity : Nat) :
    h.SafeAt (reserveBuffer r capacity) fun _ _ => True := by
  refine (safeAt_observe hs _).bind fun header t ht _ _ => ?_
  split
  next => exact safeAt_setCapacity ht r capacity
  next => exact ⟨ht, .refl t, trivial⟩

theorem safeAt_resizeBuffer (hs : h.Sound) (r : HeapRef) (size : Nat) :
    h.SafeAt (resizeBuffer r size) fun _ _ => True := by
  refine (safeAt_observe hs _).bind fun header t ht _ _ => ?_
  -- The header is looked up again, for the storage may have moved.
  have hrest : ∀ u : Heap, u.Sound → u.SafeAt (do
      let header ← observe (·.header r)
      changeHeader r fun header => { header with size }
      if header.size < size then
        changeRegion header.storage (zeroFill · header.size size)) fun _ _ => True := by
    intro u hu
    refine (safeAt_observe hu _).bind fun header u hu _ _ => ?_
    refine (safeAt_changeHeader hu r (fun header => { header with size })
      fun _ => ⟨rfl, rfl⟩).bind fun _ u hu _ _ => ?_
    split
    next => exact safeAt_changeRegion hu _ fun bytes => size_zeroFill bytes _ _
    next => exact ⟨hu, .refl u, trivial⟩
  dsimp only
  split
  next => exact (safeAt_setCapacity ht r _).bind fun _ u hu _ _ => hrest u hu
  next => exact hrest t ht

theorem safeAt_shrinkBuffer (hs : h.Sound) (r : HeapRef) :
    h.SafeAt (shrinkBuffer r) fun _ _ => True :=
  (safeAt_observe hs _).bind fun header _ ht _ _ => safeAt_setCapacity ht r header.size

end ActorMachine.Heap
