import ActorMachine.Proofs.Ensures
import ActorMachine.Proofs.Heap.Tracing
import Mathlib.Tactic.SplitIfs

/-!
# Sound heaps

In a sound heap nothing refers to what is not there.

* `Backs`: a heap backs a value if the value's reference, if it is one, reaches an object of the
  kind it is tagged with.
* `Sound`: the invariant. Closures have captured values that the heap backs, every buffer has a
  storage of its own, and no closure reaches itself.
* `sound_store`, `sound_storeBuffer`, `sound_update`, `sound_moveStorage`, `sound_collect`: the
  ways in which a heap changes keep it sound and go on backing what they have to.
-/

namespace ActorMachine.Heap

variable {h t : Heap} {handle other : Handle} {object : HeapObject} {v : Value}

/-- A heap backs a value if the value is no reference, or one to an object of the kind that it
is tagged with and which is not the storage of a buffer. -/
def Backs (h : Heap) : Value → Prop
  | .ref r =>
    (∃ object, h.lookup? r.handle = some object ∧ object.kind = r.kind) ∧
      ∀ handle header, h.lookup? handle = some (.buffer header) → header.storage ≠ r.handle
  | _ => True

/-- No object of a sound heap refers to anything that is not there. -/
structure Sound (h : Heap) : Prop where
  /-- Free slots are vacant. -/
  freeList : h.FreeList
  /-- What a closure has captured is there. -/
  upvalues : ∀ {handle routine upvalues}, h.lookup? handle = some (.closure routine upvalues) →
    ∀ v ∈ upvalues, h.Backs v
  /-- The storage of a buffer is a fixed buffer of its capacity. -/
  storage : ∀ {handle header}, h.lookup? handle = some (.buffer header) →
    ∃ bytes, h.lookup? header.storage = some (.fixedBuffer bytes) ∧ bytes.size = header.capacity
  /-- No two buffers have the same storage. -/
  unshared : ∀ {handle header other header'}, h.lookup? handle = some (.buffer header) →
    h.lookup? other = some (.buffer header') → header.storage = header'.storage → handle = other
  /-- Closures capture downwards: none reaches itself. -/
  layered : ∃ rank : Nat → Nat, ∀ {handle routine upvalues},
    h.lookup? handle = some (.closure routine upvalues) →
      ∀ r, Value.ref r ∈ upvalues → rank r.handle.index < rank handle.index

/-- All that one heap backs, the other does. -/
def Carries (h t : Heap) : Prop :=
  ∀ v, h.Backs v → t.Backs v

theorem Carries.refl (h : Heap) : h.Carries h := fun _ hv => hv

theorem Carries.trans {u : Heap} (htu : t.Carries u) (hht : h.Carries t) : h.Carries u :=
  fun v hv => htu v (hht v hv)

theorem sound_empty (config : HeapConfig) : (empty config).Sound where
  freeList := ⟨List.nodup_nil, by simp [empty]⟩
  upvalues hlook := by simp [lookup?, empty] at hlook
  storage hlook := by simp [lookup?, empty] at hlook
  unshared hlook := by simp [lookup?, empty] at hlook
  layered := ⟨fun _ => 0, fun hlook => by simp [lookup?, empty] at hlook⟩

/-- One heap carries another if it has an object of the same kind wherever that has one which is not
the storage of a buffer, and if its buffers are stored where buffers were or where nothing was. -/
theorem carries_of_objects
    (hobjects : ∀ {x o}, h.lookup? x = some o →
      (∀ y header, h.lookup? y = some (.buffer header) → header.storage ≠ x) →
      ∃ o', t.lookup? x = some o' ∧ o'.kind = o.kind)
    (hbuffers : ∀ {x header}, t.lookup? x = some (.buffer header) →
      (∃ y header', h.lookup? y = some (.buffer header') ∧ header'.storage = header.storage) ∨
        h.lookup? header.storage = none) : h.Carries t := by
  rintro (_ | _ | _ | _ | _ | _ | r) hv <;> try trivial
  obtain ⟨⟨o, ho, hkind⟩, hstorage⟩ := hv
  obtain ⟨o', ho', hsame⟩ := hobjects ho hstorage
  refine ⟨⟨o', ho', hsame.trans hkind⟩, fun x header hx heq => ?_⟩
  rcases hbuffers hx with ⟨y, header', hy, hst⟩ | hnone
  · exact hstorage y header' hy (hst.trans heq)
  · rw [heq, ho] at hnone
    cases hnone

/-- Closures that were there before need no look: what they have captured is carried, and their
ranks are the same. -/
theorem Sound.of_closures (hs : h.Sound) (hfree : t.FreeList) (hcarries : h.Carries t)
    (hclosures : ∀ {x routine upvalues}, t.lookup? x = some (.closure routine upvalues) →
      h.lookup? x = some (.closure routine upvalues))
    (hstorage : ∀ {x header}, t.lookup? x = some (.buffer header) →
      ∃ bytes, t.lookup? header.storage = some (.fixedBuffer bytes) ∧
        bytes.size = header.capacity)
    (hunshared : ∀ {x header y header'}, t.lookup? x = some (.buffer header) →
      t.lookup? y = some (.buffer header') → header.storage = header'.storage → x = y) :
    t.Sound where
  freeList := hfree
  upvalues hx v hv := hcarries v (hs.upvalues (hclosures hx) v hv)
  storage := hstorage
  unshared := hunshared
  layered := by
    obtain ⟨rank, hrank⟩ := hs.layered
    exact ⟨rank, fun hx => hrank (hclosures hx)⟩

/-- A heap in which one buffer has got a new storage is sound if the other buffers and their
storages, the closures and the kinds of all that values refer to are what they were. -/
theorem sound_of_newStorage {header : BufferHeader} {bytes : ByteArray} (hs : h.Sound)
    (hfree : t.FreeList) (hfresh : h.lookup? header.storage = none)
    (hstored : t.lookup? header.storage = some (.fixedBuffer bytes))
    (hsize : bytes.size = header.capacity)
    (hbuffers : ∀ {x header'}, t.lookup? x = some (.buffer header') →
      (x = handle ∧ header' = header) ∨ x ≠ handle ∧ h.lookup? x = some (.buffer header'))
    (hstorages : ∀ {x header' o}, x ≠ handle → h.lookup? x = some (.buffer header') →
      h.lookup? header'.storage = some o → t.lookup? header'.storage = some o)
    (hclosures : ∀ {x routine upvalues}, t.lookup? x = some (.closure routine upvalues) →
      h.lookup? x = some (.closure routine upvalues))
    (hobjects : ∀ {x o}, h.lookup? x = some o →
      (∀ y header', h.lookup? y = some (.buffer header') → header'.storage ≠ x) →
      ∃ o', t.lookup? x = some o' ∧ o'.kind = o.kind) :
    t.Sound ∧ h.Carries t := by
  have hcarries : h.Carries t := by
    refine carries_of_objects hobjects fun hx => ?_
    rcases hbuffers hx with ⟨-, rfl⟩ | ⟨-, hx⟩
    · exact .inr hfresh
    · exact .inl ⟨_, _, hx, rfl⟩
  -- The new storage was nothing before, so it was the storage of no other buffer.
  have hapart : ∀ {x header'}, h.lookup? x = some (.buffer header') →
      header'.storage ≠ header.storage := by
    intro x header' hx heq
    obtain ⟨b, hb, -⟩ := hs.storage hx
    rw [heq, hfresh] at hb
    cases hb
  refine ⟨hs.of_closures hfree hcarries hclosures ?_ ?_, hcarries⟩
  · intro x header' hx
    rcases hbuffers hx with ⟨-, rfl⟩ | ⟨hne, hx⟩
    · exact ⟨bytes, hstored, hsize⟩
    · obtain ⟨b, hb, hsize'⟩ := hs.storage hx
      exact ⟨b, hstorages hne hx hb, hsize'⟩
  · intro x header₁ x' header₂ hx hx' heq
    rcases hbuffers hx with ⟨rfl, rfl⟩ | ⟨-, hy⟩ <;>
      rcases hbuffers hx' with ⟨rfl, rfl⟩ | ⟨-, hy'⟩
    · rfl
    · exact absurd heq.symm (hapart hy')
    · exact absurd heq (hapart hy)
    · exact hs.unshared hy hy' heq

/-- Some number lies above the ranks of all objects that a list of values refers to. -/
theorem exists_rank_above (rank : Nat → Nat) (vs : List Value) :
    ∃ bound, ∀ r, Value.ref r ∈ vs → rank r.handle.index < bound := by
  induction vs with
  | nil => exact ⟨0, by simp⟩
  | cons v vs ih =>
    obtain ⟨bound, hbound⟩ := ih
    refine ⟨max bound (((v.handle?.map fun x => rank x.index).getD 0) + 1), fun r hr => ?_⟩
    rcases List.mem_cons.1 hr with rfl | hr
    · show rank r.handle.index < max bound (rank r.handle.index + 1)
      omega
    · have := hbound r hr
      omega

/-! ### Storing -/

/-- The next object goes to a slot in which no handle reaches anything. -/
theorem index_ne_nextHandle (hfree : h.FreeList) (hlook : h.lookup? handle = some object) :
    handle.index ≠ h.nextHandle.index := by
  intro heq
  have hslot := lookup?_eq_some_iff.1 hlook
  rw [heq] at hslot
  cases hlist : h.free with
  | nil => simp [nextHandle, hlist] at hslot
  | cons i rest =>
    obtain ⟨generation, hvacant⟩ := hfree.vacant i (by simp [hlist])
    simp [nextHandle, hlist, hvacant] at hslot

/-- A closure that is stored ranks above all that it has captured. -/
theorem layered_store (hs : h.Sound) (object : HeapObject)
    (hups : ∀ routine upvalues, object = .closure routine upvalues → ∀ v ∈ upvalues, h.Backs v) :
    ∃ rank : Nat → Nat, ∀ {x routine upvalues},
      (h.store object).2.lookup? x = some (.closure routine upvalues) →
        ∀ r, Value.ref r ∈ upvalues → rank r.handle.index < rank x.index := by
  obtain ⟨rank, hrank⟩ := hs.layered
  have habove : ∃ bound, ∀ routine upvalues, object = .closure routine upvalues →
      ∀ r, Value.ref r ∈ upvalues → rank r.handle.index < bound := by
    cases object with
    | closure routine upvalues =>
      obtain ⟨bound, hbound⟩ := exists_rank_above rank upvalues.toList
      refine ⟨bound, fun _ _ heq r hr => ?_⟩
      obtain ⟨rfl, rfl⟩ := HeapObject.closure.inj heq
      exact hbound r (by simpa using hr)
    | _ => exact ⟨0, fun _ _ heq => nomatch heq⟩
  obtain ⟨bound, hbound⟩ := habove
  -- Nothing refers to the slot of the new object yet, so its rank may be chosen.
  have hkept : ∀ {r}, h.Backs (.ref r) → r.handle.index ≠ h.nextHandle.index := by
    rintro r ⟨⟨o, ho, -⟩, -⟩
    exact index_ne_nextHandle hs.freeList ho
  refine ⟨fun i => if i = h.nextHandle.index then bound else rank i, ?_⟩
  intro x routine upvalues hx r hr
  rw [lookup?_store hs.freeList] at hx
  split at hx
  next heq =>
    have hobject := Option.some.inj hx
    simp only [heq, if_true, if_neg (hkept (hups routine upvalues hobject _ hr))]
    exact hbound routine upvalues hobject r hr
  next =>
    simp only [if_neg (index_ne_nextHandle hs.freeList hx),
      if_neg (hkept (hs.upvalues hx _ hr))]
    exact hrank hx r hr

/-- Storing a closure over values that are there, or an object without references. -/
theorem sound_store (hs : h.Sound) (object : HeapObject) (hbuffer : object.kind ≠ .buffer)
    (hups : ∀ routine upvalues, object = .closure routine upvalues → ∀ v ∈ upvalues, h.Backs v) :
    (h.store object).2.Sound ∧ h.Carries (h.store object).2 ∧
      (h.store object).2.Backs (.ref ⟨object.kind, h.nextHandle⟩) := by
  have hlook : ∀ x, (h.store object).2.lookup? x =
      if x = h.nextHandle then some object else h.lookup? x := fun _ => lookup?_store hs.freeList
  have hkeep : ∀ {x o}, h.lookup? x = some o → (h.store object).2.lookup? x = some o :=
    lookup?_store_of_lookup? hs.freeList
  have hold : ∀ {x header}, (h.store object).2.lookup? x = some (.buffer header) →
      h.lookup? x = some (.buffer header) := by
    intro x header hx
    rw [hlook] at hx
    split at hx
    next => exact absurd (congrArg HeapObject.kind (Option.some.inj hx)) hbuffer
    next => exact hx
  -- What was there is still there, and no buffer is new.
  have hcarries : h.Carries (h.store object).2 :=
    carries_of_objects (fun hx _ => ⟨_, hkeep hx, rfl⟩) fun hx => .inl ⟨_, _, hold hx, rfl⟩
  refine ⟨⟨freeList_store hs.freeList, ?_, ?_, ?_, layered_store hs object hups⟩, hcarries, ?_⟩
  · intro x routine upvalues hx v hv
    rw [hlook] at hx
    split at hx
    next => exact hcarries v (hups routine upvalues (Option.some.inj hx) v hv)
    next => exact hcarries v (hs.upvalues hx v hv)
  · intro x header hx
    obtain ⟨bytes, hbytes, hsize⟩ := hs.storage (hold hx)
    exact ⟨bytes, hkeep hbytes, hsize⟩
  · intro x header x' header' hx hx' heq
    exact hs.unshared (hold hx) (hold hx') heq
  · refine ⟨⟨object, by rw [hlook, if_pos rfl], rfl⟩, fun x header hx heq => ?_⟩
    -- Storage of a buffer was there before, the new object was not.
    obtain ⟨bytes, hbytes, -⟩ := hs.storage (hold hx)
    exact ne_nextHandle hs.freeList hbytes heq

/-- A buffer header and its fresh storage are stored together. -/
theorem sound_storeBuffer (hs : h.Sound) (bytes : ByteArray) (size : Nat) :
    let made := h.store (.fixedBuffer bytes)
    let done := made.2.store (.buffer { size, capacity := bytes.size, storage := made.1 })
    done.2.Sound ∧ h.Carries done.2 ∧ done.2.Backs (.ref ⟨.buffer, done.1⟩) := by
  intro made done
  have hmade : made.2.FreeList := freeList_store hs.freeList
  have hne : done.1 ≠ made.1 := (fresh_storeBuffer hs.freeList bytes).1
  have hlook : ∀ x, done.2.lookup? x =
      if x = done.1 then some (.buffer { size, capacity := bytes.size, storage := made.1 })
      else if x = made.1 then some (.fixedBuffer bytes) else h.lookup? x :=
    lookup?_storeBuffer hs.freeList bytes _
  have hkeep : ∀ {x o}, h.lookup? x = some o → done.2.lookup? x = some o := fun hx =>
    lookup?_store_of_lookup? hmade (lookup?_store_of_lookup? hs.freeList hx)
  have hstorage : done.2.lookup? made.1 = some (.fixedBuffer bytes) := by
    rw [hlook, if_neg hne.symm, if_pos rfl]
  -- An object of the result is one of the two new ones, or it was there before.
  have hbuffers : ∀ {x header}, done.2.lookup? x = some (.buffer header) →
      (x = done.1 ∧ header = { size, capacity := bytes.size, storage := made.1 }) ∨
        x ≠ done.1 ∧ h.lookup? x = some (.buffer header) := by
    intro x header hx
    rw [hlook] at hx
    split_ifs at hx with hdone hstored
    · exact .inl ⟨hdone, (HeapObject.buffer.inj (Option.some.inj hx)).symm⟩
    · cases hx
    · exact .inr ⟨hdone, hx⟩
  have hclosures : ∀ {x routine upvalues}, done.2.lookup? x = some (.closure routine upvalues) →
      h.lookup? x = some (.closure routine upvalues) := by
    intro x routine upvalues hx
    rw [hlook] at hx
    split_ifs at hx
    · cases hx
    · cases hx
    · exact hx
  obtain ⟨hsound, hcarries⟩ := sound_of_newStorage hs (freeList_store hmade)
    (lookup?_nextHandle hs.freeList) hstorage rfl hbuffers (fun _ _ hb => hkeep hb) hclosures
    fun hx _ => ⟨_, hkeep hx, rfl⟩
  refine ⟨hsound, hcarries, ⟨_, by rw [hlook, if_pos rfl], rfl⟩, fun x header hx heq => ?_⟩
  -- The header is no storage: neither of itself nor of a buffer that was there before.
  rcases hbuffers hx with ⟨-, rfl⟩ | ⟨-, hx⟩
  · exact hne heq.symm
  · obtain ⟨b, hb, -⟩ := hs.storage hx
    rw [heq] at hb
    exact ne_nextHandle hmade (lookup?_store_of_lookup? hs.freeList hb) rfl

/-! ### Changing -/

/-- An object after a change that nothing which refers to it can notice: the same kind, the same
captured values, the same storage, as many bytes. -/
def SameShape : HeapObject → HeapObject → Prop
  | .fixedBuffer bytes, .fixedBuffer bytes' => bytes'.size = bytes.size
  | .buffer header, .buffer header' =>
    header'.storage = header.storage ∧ header'.capacity = header.capacity
  | object, object' => object' = object

theorem SameShape.refl (object : HeapObject) : SameShape object object := by
  cases object <;> simp [SameShape]

theorem SameShape.kind_eq {object' : HeapObject} (hshape : SameShape object object') :
    object'.kind = object.kind := by
  cases object <;> cases object' <;> simp_all [SameShape, HeapObject.kind]

/-- A change of shape-preserving kind under a handle keeps a heap sound. -/
theorem sound_update (hs : h.Sound) (change : HeapObject → HeapObject)
    (hobj : h.lookup? handle = some object) (hshape : SameShape object (change object)) :
    (h.update handle change).Sound ∧ h.Carries (h.update handle change) := by
  have hlook : ∀ x, (h.update handle change).lookup? x =
      if x = handle then some (change object) else h.lookup? x :=
    fun _ => lookup?_update_of_lookup? change hobj
  -- Every object has its counterpart in the other heap.
  have hto : ∀ {x o}, h.lookup? x = some o →
      ∃ o', (h.update handle change).lookup? x = some o' ∧ SameShape o o' := by
    intro x o hx
    by_cases heq : x = handle
    · subst heq
      obtain rfl := Option.some.inj (hx.symm.trans hobj)
      exact ⟨_, by rw [hlook, if_pos rfl], hshape⟩
    · exact ⟨o, by rw [hlook, if_neg heq, hx], .refl o⟩
  have hfrom : ∀ {x o'}, (h.update handle change).lookup? x = some o' →
      ∃ o, h.lookup? x = some o ∧ SameShape o o' := by
    intro x o' hx
    rw [hlook] at hx
    split at hx
    next heq => exact ⟨object, heq ▸ hobj, Option.some.inj hx ▸ hshape⟩
    next => exact ⟨o', hx, .refl o'⟩
  -- For buffers and closures this means that all that matters about them is the same.
  have hbuffer : ∀ {x header'}, (h.update handle change).lookup? x = some (.buffer header') →
      ∃ header, h.lookup? x = some (.buffer header) ∧ header'.storage = header.storage ∧
        header'.capacity = header.capacity := by
    intro x header' hx
    obtain ⟨o, ho, hsame⟩ := hfrom hx
    cases o <;> simp only [SameShape, reduceCtorEq] at hsame
    exact ⟨_, ho, hsame⟩
  have hclosure : ∀ {x routine upvalues},
      (h.update handle change).lookup? x = some (.closure routine upvalues) →
        h.lookup? x = some (.closure routine upvalues) := by
    intro x routine upvalues hx
    obtain ⟨o, ho, hsame⟩ := hfrom hx
    cases o <;> simp only [SameShape, reduceCtorEq] at hsame
    exact hsame ▸ ho
  have hcarries : h.Carries (h.update handle change) := by
    refine carries_of_objects (fun hx _ => ?_) fun hx => ?_
    · obtain ⟨o', ho', hsame⟩ := hto hx
      exact ⟨o', ho', hsame.kind_eq⟩
    · obtain ⟨header, hx', hst, -⟩ := hbuffer hx
      exact .inl ⟨_, header, hx', hst.symm⟩
  refine ⟨hs.of_closures (freeList_update change hs.freeList) hcarries hclosure ?_ ?_, hcarries⟩
  · intro x header' hx
    obtain ⟨header, hx', hst, hcap⟩ := hbuffer hx
    obtain ⟨bytes, hbytes, hsize⟩ := hs.storage hx'
    obtain ⟨o', ho', hsame⟩ := hto hbytes
    cases o' <;> simp only [SameShape, reduceCtorEq] at hsame
    exact ⟨_, hst ▸ ho', by rw [hsame, hsize, hcap]⟩
  · intro x header x' header' hx hx' heq
    obtain ⟨_, hy, hst, -⟩ := hbuffer hx
    obtain ⟨_, hy', hst', -⟩ := hbuffer hx'
    exact hs.unshared hy hy' (by rw [← hst, ← hst', heq])

/-- Three handles show that a buffer has got a new storage: the old storage is gone, the header is
new, and so is the storage. -/
theorem lookup?_moveStorage {header : BufferHeader} (hfree : h.FreeList)
    (hbuf : h.lookup? handle = some (.buffer header)) (bytes : ByteArray)
    {change : HeapObject → HeapObject}
    (hchange : change (.buffer header) =
      .buffer { header with storage := h.nextHandle, capacity := bytes.size }) (x : Handle) :
    (((h.store (.fixedBuffer bytes)).2.update handle change).release header.storage).lookup? x =
      if x = header.storage then none
      else if x = handle then
        some (.buffer { header with storage := h.nextHandle, capacity := bytes.size })
      else if x = h.nextHandle then some (.fixedBuffer bytes) else h.lookup? x := by
  have hstored : ∀ x, (h.store (.fixedBuffer bytes)).2.lookup? x =
      if x = h.nextHandle then some (.fixedBuffer bytes) else h.lookup? x :=
    fun _ => lookup?_store hfree
  have hthere : (h.store (.fixedBuffer bytes)).2.lookup? handle = some (.buffer header) :=
    lookup?_store_of_lookup? hfree hbuf
  rw [lookup?_release, lookup?_update_of_lookup? change hthere, hstored, hchange]

/-- The storage of a buffer is replaced by a new one, and the old one is released. -/
theorem sound_moveStorage {header : BufferHeader} (hs : h.Sound)
    (hbuf : h.lookup? handle = some (.buffer header)) (bytes : ByteArray)
    (change : HeapObject → HeapObject)
    (hchange : change (.buffer header) =
      .buffer { header with storage := h.nextHandle, capacity := bytes.size }) :
    let moved := ((h.store (.fixedBuffer bytes)).2.update handle change).release header.storage
    moved.Sound ∧ h.Carries moved := by
  intro moved
  obtain ⟨old, hold, -⟩ := hs.storage hbuf
  have hfresh : ∀ {x o}, h.lookup? x = some o → x ≠ h.nextHandle := ne_nextHandle hs.freeList
  have hlook := lookup?_moveStorage hs.freeList hbuf bytes hchange
  have hne : handle ≠ header.storage := by
    intro heq
    rw [← heq, hbuf] at hold
    cases hold
  have hnew : moved.lookup? h.nextHandle = some (.fixedBuffer bytes) := by
    rw [hlook, if_neg (hfresh hold).symm, if_neg (hfresh hbuf).symm, if_pos rfl]
  -- What is neither the buffer nor its old storage stays where it is.
  have hkeep : ∀ {x o}, h.lookup? x = some o → x ≠ header.storage → x ≠ handle →
      moved.lookup? x = some o := by
    intro x o hx h1 h2
    rw [hlook, if_neg h1, if_neg h2, if_neg (hfresh hx), hx]
  have hbuffers : ∀ {x header'}, moved.lookup? x = some (.buffer header') →
      (x = handle ∧ header' = { header with storage := h.nextHandle, capacity := bytes.size }) ∨
        x ≠ handle ∧ h.lookup? x = some (.buffer header') := by
    intro x header' hx
    rw [hlook] at hx
    split_ifs at hx with h1 h2 h3
    · exact .inl ⟨h2, (HeapObject.buffer.inj (Option.some.inj hx)).symm⟩
    · cases hx
    · exact .inr ⟨h2, hx⟩
  have hclosures : ∀ {x routine upvalues}, moved.lookup? x = some (.closure routine upvalues) →
      h.lookup? x = some (.closure routine upvalues) := by
    intro x routine upvalues hx
    rw [hlook] at hx
    split_ifs at hx with h1 h2 h3
    · cases hx
    · cases hx
    · exact hx
  have hfree : moved.FreeList :=
    freeList_release (freeList_update change (freeList_store hs.freeList))
  refine sound_of_newStorage hs hfree (lookup?_nextHandle hs.freeList) hnew rfl hbuffers ?_
    hclosures ?_
  · intro x header' o hxne hx hb
    -- Another buffer has another storage, so its storage stays.
    refine hkeep hb (fun heq => hxne (hs.unshared hx hbuf heq)) ?_
    rintro rfl
    obtain ⟨b, hb', -⟩ := hs.storage hx
    rw [hbuf] at hb'
    cases hb'
  · intro x o hx hstorage
    -- No reference reaches the storage of a buffer, so none reaches the old one.
    have h1 : x ≠ header.storage := (hstorage handle header hbuf).symm
    by_cases h2 : x = handle
    · rw [h2, hbuf] at hx
      obtain rfl := Option.some.inj hx
      exact ⟨.buffer { header with storage := h.nextHandle, capacity := bytes.size },
        by rw [hlook, if_neg h1, if_pos h2], rfl⟩
    · exact ⟨o, hkeep hx h1 h2, rfl⟩

/-! ### Collecting -/

/-- A collection keeps a heap sound and backs its roots as before. -/
theorem sound_collect (hs : h.Sound) (roots : List Value) :
    (h.collect roots).2.Sound ∧ ∀ v ∈ roots, h.Backs v → (h.collect roots).2.Backs v := by
  have hfrom : ∀ {x o}, (h.collect roots).2.lookup? x = some o →
      h.lookup? x = some o ∧ (h.marksFrom roots)[x.index]? = some true := by
    intro x o hx
    rw [lookup?_collect] at hx
    split at hx
    next hm => exact ⟨hx, hm⟩
    next => cases hx
  have hkeep : ∀ {x o}, h.lookup? x = some o → (h.marksFrom roots)[x.index]? = some true →
      (h.collect roots).2.lookup? x = some o := by
    intro x o hx hm
    rw [lookup?_collect, if_pos hm, hx]
  have hbacks : ∀ {r}, h.Backs (.ref r) → (h.marksFrom roots)[r.handle.index]? = some true →
      (h.collect roots).2.Backs (.ref r) := by
    rintro r ⟨⟨o, ho, hkind⟩, hstorage⟩ hm
    exact ⟨⟨o, hkeep ho hm, hkind⟩, fun x header hx => hstorage x header (hfrom hx).1⟩
  refine ⟨⟨freeList_collect roots hs.freeList, ?_, ?_, ?_, ?_⟩, ?_⟩
  · rintro x routine upvalues hx (_ | _ | _ | _ | _ | _ | r) hv <;> try trivial
    have hb := hs.upvalues (hfrom hx).1 _ hv
    -- What a closure that is left has captured was marked along with it.
    obtain ⟨⟨o, ho, -⟩, -⟩ := id hb
    refine hbacks hb (marksFrom_reference (hfrom hx).1 (hfrom hx).2 ?_ (by simp [ho]))
    exact List.mem_filterMap.2 ⟨.ref r, by simpa using hv, rfl⟩
  · intro x header hx
    -- So was the storage of a buffer that is left.
    obtain ⟨bytes, hbytes, hsize⟩ := hs.storage (hfrom hx).1
    refine ⟨bytes, hkeep hbytes ?_, hsize⟩
    exact marksFrom_reference (hfrom hx).1 (hfrom hx).2 (List.mem_singleton.2 rfl)
      (by simp [hbytes])
  · intro x header x' header' hx hx' heq
    exact hs.unshared (hfrom hx).1 (hfrom hx').1 heq
  · obtain ⟨rank, hrank⟩ := hs.layered
    exact ⟨rank, fun hx => hrank (hfrom hx).1⟩
  · rintro (_ | _ | _ | _ | _ | _ | r) hroot hv <;> try trivial
    obtain ⟨⟨o, ho, -⟩, -⟩ := id hv
    exact hbacks hv (marksFrom_root hroot rfl ho)

end ActorMachine.Heap
