import ActorMachine.Proofs.Heap.Actions
import Mathlib.Algebra.Group.Nat.Defs
import Mathlib.Data.Set.Insert

/-!
# How heaps age

Objects come and go, but a reference never reaches another object than the one it was made for, as
long as no slot is reused as often as there are generations.

* `Fits`: no buffer has more bytes in use than its storage holds.
* `Ages n written h t`: from `h` to `t` no slot has lost its object more than `n` times, and what a
  reference reaches is still there and has the content that it had, unless its slot has lost it or
  it is among the buffers that were written to.
* `Ages.sameContent`: what two heaps of this kind both back has the same content in both.
* `ages_store`, `ages_storeBuffer`, `ages_collect` and so on: what happens to a heap lets it age.
-/

namespace ActorMachine.Heap

variable {h t u : Heap} {n m : Nat} {written written' : Set Handle} {r : HeapRef}
  {handle other : Handle} {object object' : HeapObject} {header : BufferHeader}

/-! ### Content -/

/-- No buffer has more bytes in use than its capacity. -/
def Fits (h : Heap) : Prop :=
  ∀ handle header, h.lookup? handle = some (.buffer header) → header.size ≤ header.capacity

theorem fits_empty (config : HeapConfig) : (empty config).Fits := by
  intro handle header hlook
  simp [lookup?, empty] at hlook

/-- The bytes in use behind the header of a buffer. -/
def inUse (h : Heap) (header : BufferHeader) : Option ByteArray :=
  match h.lookup? header.storage with
  | some (.fixedBuffer bytes) => some (bytes.extract 0 header.size)
  | _ => none

theorem inUse_eq_of_lookup? {bytes : ByteArray}
    (h : t.lookup? header.storage = some (.fixedBuffer bytes)) :
    t.inUse header = some (bytes.extract 0 header.size) := by
  rw [inUse, h]

/-- Two objects of two heaps have the same content: they are the same, or buffers of the same bytes
in use. -/
def SameContent (h t : Heap) : HeapObject → HeapObject → Prop
  | .buffer header, .buffer header' => t.inUse header' = h.inUse header
  | object, object' => object' = object

theorem SameContent.trans {object'' : HeapObject} (htu : SameContent t u object' object'')
    (hht : SameContent h t object object') : SameContent h u object object'' := by
  cases object <;> cases object' <;> cases object'' <;> simp_all [SameContent]

/-- An object that is still there has its content if, in case it is a buffer, its storage is still
there. -/
theorem sameContent_self
    (hstorage : ∀ header, object = .buffer header →
      t.lookup? header.storage = h.lookup? header.storage) : SameContent h t object object := by
  cases object with
  | buffer header => simp only [SameContent, inUse, hstorage header rfl]
  | _ => rfl

/-! ### Ageing -/

/-- The slot of a handle has lost its object since, at most `n` times. -/
def Lost (n : Nat) (t : Heap) (handle : Handle) : Prop :=
  ∃ k ≤ n, 0 < k ∧ ∃ object,
    t.slots[handle.index]? = some ⟨handle.generation + UInt32.ofNat k, object⟩

/-- What has happened between two states of a heap: no slot has lost its object more than `n` times,
and what a reference reaches keeps its content until its slot loses it or it is written to. -/
structure Ages (n : Nat) (written : Set Handle) (h t : Heap) : Prop where
  /-- The bytes in use lie within the capacities. -/
  fits : t.Fits
  /-- A slot stays, and its generation tells how often it has lost its object. -/
  slots : ∀ {i : Nat} {slot : Slot}, h.slots[i]? = some slot → ∃ k ≤ n, ∃ object,
    t.slots[i]? = some ⟨slot.generation + UInt32.ofNat k, object⟩
  /-- An object stays, with its content if it was not written to, unless its slot has lost it. -/
  objects : ∀ {r : HeapRef} {object : HeapObject}, h.Backs (.ref r) →
    h.lookup? r.handle = some object →
    Lost n t r.handle ∨ t.Backs (.ref r) ∧ ∃ object', t.lookup? r.handle = some object' ∧
      (r.handle ∉ written → SameContent h t object object')

theorem Ages.mono (hages : Ages n written h t) (hn : n ≤ m) (hwritten : written ⊆ written') :
    Ages m written' h t where
  fits := hages.fits
  slots hslot := by
    obtain ⟨k, hk, object, hslot'⟩ := hages.slots hslot
    exact ⟨k, hk.trans hn, object, hslot'⟩
  objects hr hlook := by
    rcases hages.objects hr hlook with ⟨k, hk, hlost⟩ | ⟨ht, object', hlook', hsame⟩
    · exact .inl ⟨k, hk.trans hn, hlost⟩
    · exact .inr ⟨ht, object', hlook', fun hnot => hsame fun hmem => hnot (hwritten hmem)⟩

theorem Ages.of_le (hages : Ages n written h t) (hn : n ≤ m) : Ages m written h t :=
  hages.mono hn (Set.Subset.refl _)

/-- What was not there yet has not been written to. -/
theorem Ages.of_fresh (hages : Ages n written h t)
    (hfresh : ∀ handle ∈ written, h.lookup? handle = none) : Ages n ∅ h t where
  fits := hages.fits
  slots := hages.slots
  objects {r object} hr hlook := by
    rcases hages.objects hr hlook with hlost | ⟨ht, object', hlook', hsame⟩
    · exact .inl hlost
    · refine .inr ⟨ht, object', hlook', fun _ => hsame fun hmem => ?_⟩
      rw [hfresh _ hmem] at hlook
      cases hlook

theorem add_ofNat_zero (generation : UInt32) : generation + UInt32.ofNat 0 = generation :=
  UInt32.add_zero generation

theorem add_ofNat_add_ofNat (generation : UInt32) (k k' : Nat) :
    generation + UInt32.ofNat k + UInt32.ofNat k' = generation + UInt32.ofNat (k + k') := by
  rw [UInt32.ofNat_add, UInt32.add_assoc]

/-- The losses of two stretches of time add up. -/
theorem Ages.trans (htu : Ages m written t u) (hht : Ages n written h t) :
    Ages (n + m) written h u where
  fits := htu.fits
  slots hslot := by
    obtain ⟨k, hk, object, hslot⟩ := hht.slots hslot
    obtain ⟨k', hk', object', hslot⟩ := htu.slots hslot
    exact ⟨k + k', Nat.add_le_add hk hk', object', by rw [hslot, add_ofNat_add_ofNat]⟩
  objects hr hlook := by
    rcases hht.objects hr hlook with ⟨k, hk, hpos, object, hslot⟩ | ⟨hr', object', hlook', hsame⟩
    -- A slot that has lost its object once has done so, however often it does later.
    · obtain ⟨k', hk', object', hslot⟩ := htu.slots hslot
      exact .inl ⟨k + k', Nat.add_le_add hk hk', Nat.add_pos_left hpos _, object',
        by rw [hslot, add_ofNat_add_ofNat]⟩
    · rcases htu.objects hr' hlook' with ⟨k, hk, hlost⟩ | ⟨hr'', object'', hlook'', hsame'⟩
      · exact .inl ⟨k, hk.trans (Nat.le_add_left _ _), hlost⟩
      · exact .inr ⟨hr'', object'', hlook'', fun hnot => (hsame' hnot).trans (hsame hnot)⟩

/-- A reference does not reach anything any more once its slot has lost its object, unless that has
happened as often as there are generations. -/
theorem Lost.lookup? (hlost : Lost n t handle) (hn : n < 2 ^ 32) : t.lookup? handle = none := by
  obtain ⟨k, hk, hpos, object, hslot⟩ := hlost
  have hne : handle.generation + UInt32.ofNat k ≠ handle.generation := by
    intro heq
    -- The generation can only be the same again if it went round, and that takes more losses.
    have hzero : UInt32.ofNat k = 0 := by
      refine (UInt32.add_right_inj handle.generation).1 ?_
      rw [heq, UInt32.add_zero]
    have hmod := congrArg UInt32.toNat hzero
    rw [UInt32.toNat_ofNat', Nat.mod_eq_of_lt (Nat.lt_of_le_of_lt hk hn)] at hmod
    exact Nat.pos_iff_ne_zero.1 hpos hmod
  rw [Heap.lookup?, hslot]
  exact if_neg hne

/-- What both heaps back is the same object and has the same content, if it was not written to. -/
theorem Ages.sameContent (hages : Ages n written h t) (hn : n < 2 ^ 32) (hr : h.Backs (.ref r))
    (ht : t.Backs (.ref r)) (hnot : r.handle ∉ written) :
    ∃ object object', h.lookup? r.handle = some object ∧ t.lookup? r.handle = some object' ∧
      SameContent h t object object' := by
  obtain ⟨⟨object, hlook, -⟩, -⟩ := id hr
  rcases hages.objects hr hlook with hlost | ⟨-, object', hlook', hsame⟩
  · obtain ⟨⟨object', hlook', -⟩, -⟩ := ht
    rw [hlost.lookup? hn] at hlook'
    cases hlook'
  · exact ⟨object, object', hlook, hlook', hsame hnot⟩

/-! ### Without losses -/

/-- If every slot keeps its generation and all that was backed is backed, a heap has aged without
losses. -/
theorem ages_of_carries (hfits : t.Fits)
    (hslots : ∀ {i : Nat} {slot : Slot}, h.slots[i]? = some slot →
      ∃ object, t.slots[i]? = some ⟨slot.generation, object⟩)
    (hcarries : h.Carries t)
    (hobjects : ∀ {r object object'}, h.Backs (.ref r) → h.lookup? r.handle = some object →
      t.lookup? r.handle = some object' → r.handle ∉ written → SameContent h t object object') :
    Ages 0 written h t where
  fits := hfits
  slots hslot := by
    obtain ⟨object, hslot'⟩ := hslots hslot
    exact ⟨0, Nat.le_refl 0, object, by rw [hslot', add_ofNat_zero]⟩
  objects {r object} hr hlook := by
    have ht := hcarries _ hr
    obtain ⟨⟨object', hlook', -⟩, -⟩ := id ht
    exact .inr ⟨ht, object', hlook', hobjects hr hlook hlook'⟩

theorem Ages.refl (hfits : h.Fits) (written : Set Handle) : Ages 0 written h h := by
  refine ages_of_carries hfits (fun hslot => ⟨_, hslot⟩) (.refl h) ?_
  intro r object object' _ hlook hlook' _
  obtain rfl := Option.some.inj (hlook.symm.trans hlook')
  exact sameContent_self fun _ _ => rfl

/-- A heap that is the same has aged by less than any number. -/
theorem Ages.same (hfits : h.Fits) : Ages n written h h :=
  (refl hfits written).of_le (Nat.zero_le n)

/-- Objects that are still there have their content. -/
theorem sameContent_of_kept (hs : h.Sound)
    (hkeep : ∀ {x o}, h.lookup? x = some o → t.lookup? x = some o)
    (hlook : h.lookup? handle = some object) (hlook' : t.lookup? handle = some object') :
    SameContent h t object object' := by
  obtain rfl := Option.some.inj ((hkeep hlook).symm.trans hlook')
  refine sameContent_self fun header heq => ?_
  subst heq
  obtain ⟨bytes, hbytes, -⟩ := hs.storage hlook
  rw [hbytes, hkeep hbytes]

/-! ### Storing -/

/-- Storing leaves every slot its generation. -/
theorem slots_store {i : Nat} {slot : Slot} (hslot : h.slots[i]? = some slot)
    (object : HeapObject) :
    ∃ o, (h.store object).2.slots[i]? = some ⟨slot.generation, o⟩ := by
  obtain ⟨hlt, rfl⟩ := Array.getElem?_eq_some_iff.1 hslot
  cases hlist : h.free with
  | nil =>
    refine ⟨h.slots[i].object, ?_⟩
    simp [store, hlist, Array.getElem?_push, hlt, Nat.ne_of_lt hlt]
  | cons j rest =>
    by_cases hj : j = i
    · subst hj
      exact ⟨some object, by simp [store, nextHandle, hlist, hlt]⟩
    · exact ⟨h.slots[i].object, by simp [store, hlist, hj, hlt]⟩

/-- By a new object other than a buffer a heap ages without losses. -/
theorem ages_store (hs : h.Sound) (hfits : h.Fits) (hbuffer : object.kind ≠ .buffer)
    (hups : ∀ routine upvalues, object = .closure routine upvalues → ∀ v ∈ upvalues, h.Backs v) :
    Ages 0 ∅ h (h.store object).2 := by
  refine ages_of_carries (fun handle header hx => ?_) (fun hslot => slots_store hslot object)
    (sound_store hs object hbuffer hups).2.1 fun _ hlook hlook' _ => sameContent_of_kept hs
      (lookup?_store_of_lookup? hs.freeList) hlook hlook'
  rw [lookup?_store hs.freeList] at hx
  split at hx
  next => exact absurd (congrArg HeapObject.kind (Option.some.inj hx)) hbuffer
  next => exact hfits _ _ hx

/-- By a new buffer a heap ages without losses. -/
theorem ages_storeBuffer (hs : h.Sound) (hfits : h.Fits) {bytes : ByteArray} {size : Nat}
    (hsize : size ≤ bytes.size) :
    let made := h.store (.fixedBuffer bytes)
    let done := made.2.store (.buffer { size, capacity := bytes.size, storage := made.1 })
    Ages 0 ∅ h done.2 := by
  intro made done
  have hmade : made.2.FreeList := freeList_store hs.freeList
  -- Storing twice: first the bytes, then the header that points to them.
  refine ages_of_carries (fun handle header hx => ?_) (fun hslot => ?_)
    (sound_storeBuffer hs bytes size).2.1 fun _ hlook hlook' _ => sameContent_of_kept hs
      (fun hx => lookup?_store_of_lookup? hmade (lookup?_store_of_lookup? hs.freeList hx))
      hlook hlook'
  · rw [lookup?_store hmade] at hx
    split at hx
    next =>
      obtain rfl := HeapObject.buffer.inj (Option.some.inj hx)
      exact hsize
    next =>
      rw [lookup?_store hs.freeList] at hx
      split at hx
      next => cases hx
      next => exact hfits _ _ hx
  · obtain ⟨o, hslot'⟩ := slots_store hslot (.fixedBuffer bytes)
    exact slots_store hslot' _

/-! ### Collecting -/

/-- A sweep either leaves a slot as it is, or takes its object away. -/
theorem slots_sweepSlot (marks : Array Bool) (freed index : Nat) {i : Nat} {slot : Slot}
    (hslot : h.slots[i]? = some slot) :
    (sweepSlot marks (freed, h) index).2.slots[i]? = some slot ∨
      slot.object.isSome ∧
        (sweepSlot marks (freed, h) index).2.slots[i]? = some ⟨slot.generation + 1, none⟩ := by
  rw [sweepSlot]
  split
  next generation object hindex =>
    split
    next => exact .inl hslot
    next =>
      -- The handle with the generation of the slot reaches the object, so the release takes place.
      have hlook : h.lookup? ⟨index, generation⟩ = some object := lookup?_eq_some_iff.2 hindex
      have hlt := index_lt_of_lookup? hlook
      by_cases hi : index = i
      · subst hi
        obtain rfl := Option.some.inj (hslot.symm.trans hindex)
        refine .inr ⟨rfl, ?_⟩
        simp [release, hlook, hlt]
      · exact .inl (by simpa [release, hlook, hi] using hslot)
  next => exact .inl hslot

/-- So does a sweep of several slots, for a slot without an object is passed over. -/
theorem slots_foldl_sweepSlot (marks : Array Bool) (indices : List Nat) (freed : Nat) {i : Nat}
    {slot : Slot} (hslot : h.slots[i]? = some slot) :
    (indices.foldl (sweepSlot marks) (freed, h)).2.slots[i]? = some slot ∨
      slot.object.isSome ∧ (indices.foldl (sweepSlot marks) (freed, h)).2.slots[i]? =
        some ⟨slot.generation + 1, none⟩ := by
  induction indices generalizing freed h slot with
  | nil => exact .inl hslot
  | cons index indices ih =>
    rw [List.foldl_cons]
    rcases slots_sweepSlot marks freed index hslot with hsame | ⟨hsome, hlost⟩
    · exact ih _ hsame
    -- An emptied slot cannot be emptied again, so it loses its object once at most.
    · rcases ih _ hlost with hsame | ⟨hnone, -⟩
      · exact .inr ⟨hsome, hsame⟩
      · cases hnone

/-- In a collection a slot loses its object at most once. -/
theorem slots_collect (roots : List Value) {i : Nat} {slot : Slot}
    (hslot : h.slots[i]? = some slot) :
    (h.collect roots).2.slots[i]? = some slot ∨
      (h.collect roots).2.slots[i]? = some ⟨slot.generation + 1, none⟩ := by
  rcases slots_foldl_sweepSlot (h.marksFrom roots) (List.range h.slots.size) 0
    (h := { h with stats := { h.stats with collections := h.stats.collections + 1 } }) hslot with
    hsame | ⟨-, hlost⟩
  · exact .inl hsame
  · exact .inr hlost

/-- What a collection leaves was there before. -/
theorem lookup?_of_collect {roots : List Value}
    (hlook : (h.collect roots).2.lookup? handle = some object) : h.lookup? handle = some object := by
  rw [lookup?_collect] at hlook
  split at hlook
  next => exact hlook
  next => cases hlook

/-- A collection makes a heap older by one loss. What it leaves has its content. -/
theorem ages_collect (hs : h.Sound) (hfits : h.Fits) (roots : List Value) :
    Ages 1 ∅ h (h.collect roots).2 where
  fits _ _ hx := hfits _ _ (lookup?_of_collect hx)
  slots hslot := by
    rcases slots_collect roots hslot with hsame | hlost
    · exact ⟨0, Nat.zero_le 1, _, by rw [hsame, add_ofNat_zero]⟩
    · exact ⟨1, Nat.le_refl 1, none, hlost⟩
  objects {r object} hr hlook := by
    have hslot := lookup?_eq_some_iff.1 hlook
    -- Either the slot was marked, and then all it stands for was, or it was swept.
    rcases slots_collect roots hslot with hsame | hlost
    · have hkept : (h.collect roots).2.lookup? r.handle = some object :=
        lookup?_eq_some_iff.2 hsame
      obtain ⟨⟨o, ho, hkind⟩, hstorage⟩ := id hr
      obtain rfl := Option.some.inj (hlook.symm.trans ho)
      refine .inr ⟨⟨⟨object, hkept, hkind⟩, fun x header hx =>
        hstorage x header (lookup?_of_collect hx)⟩, object, hkept, fun _ => ?_⟩
      refine sameContent_self fun header heq => ?_
      subst heq
      obtain ⟨bytes, hbytes, -⟩ := ((sound_collect hs roots).1).storage hkept
      rw [hbytes, lookup?_of_collect hbytes]
    · exact .inl ⟨1, Nat.le_refl 1, Nat.one_pos, none, hlost⟩

/-! ### Changing -/

/-- A change leaves every slot its generation. -/
theorem slots_update (handle : Handle) {i : Nat} {slot : Slot} (hslot : h.slots[i]? = some slot)
    (change : HeapObject → HeapObject) :
    ∃ o, (h.update handle change).slots[i]? = some ⟨slot.generation, o⟩ := by
  -- An update keeps the generation of its slot as well as of the others.
  by_cases hi : handle.index = i
  · exact ⟨slot.object.map change, by simp [update, Array.getElem?_modify, hi, hslot]⟩
  · exact ⟨slot.object, by simpa [update, Array.getElem?_modify, hi] using hslot⟩

/-- A change that keeps the shape of an object is a matter of those that are written to: the object
itself and the buffer whose storage it is. -/
theorem ages_update (hs : h.Sound) (hfits : h.Fits) (change : HeapObject → HeapObject)
    (hobj : h.lookup? handle = some object) (hshape : SameShape object (change object))
    (hsize : ∀ header, change object = .buffer header → header.size ≤ header.capacity)
    (hwritten : ∀ {r}, h.Backs (.ref r) → r.handle ∉ written → r.handle ≠ handle ∧
      ∀ header, h.lookup? r.handle = some (.buffer header) → header.storage ≠ handle) :
    Ages 0 written h (h.update handle change) := by
  have hlook : ∀ x, (h.update handle change).lookup? x =
      if x = handle then some (change object) else h.lookup? x :=
    fun _ => lookup?_update_of_lookup? change hobj
  -- A buffer has its content elsewhere, so both the object and its storage have to be another one's.
  refine ages_of_carries (fun x header hx => ?_) (fun hslot => slots_update handle hslot change)
    (sound_update hs change hobj hshape).2 fun {r o o'} hr ho ho' hnot => ?_
  · rw [hlook] at hx
    split at hx
    next => exact hsize header (Option.some.inj hx)
    next => exact hfits _ _ hx
  · obtain ⟨hne, hstorage⟩ := hwritten hr hnot
    rw [hlook, if_neg hne] at ho'
    obtain rfl := Option.some.inj (ho.symm.trans ho')
    refine sameContent_self fun header heq => ?_
    subst heq
    rw [hlook, if_neg (hstorage header ho)]

/-- A buffer is no storage. -/
theorem storage_ne_of_buffer {header' : BufferHeader} (hs : h.Sound)
    (hbuf : h.lookup? handle = some (.buffer header))
    (hother : h.lookup? other = some (.buffer header')) : header'.storage ≠ handle := by
  rintro rfl
  obtain ⟨bytes, hbytes, -⟩ := hs.storage hother
  rw [hbuf] at hbytes
  cases hbytes

/-- Bytes of a buffer are changed in place. -/
theorem ages_changeStorage {bytes : ByteArray} (hs : h.Sound) (hfits : h.Fits)
    (hbuf : h.lookup? handle = some (.buffer header))
    (hbytes : h.lookup? header.storage = some (.fixedBuffer bytes))
    {change : HeapObject → HeapObject} {bytes' : ByteArray}
    (hchange : change (.fixedBuffer bytes) = .fixedBuffer bytes') (hsize : bytes'.size = bytes.size) :
    Ages 0 {handle} h (h.update header.storage change) := by
  refine ages_update hs hfits change hbytes (by rw [hchange]; exact hsize)
    (by simp [hchange]) fun {r} hr hnot => ⟨(hr.2 handle header hbuf).symm, fun header' hx heq => ?_⟩
  -- Another buffer with this storage would be the one that is written to.
  exact hnot (hs.unshared hx hbuf heq)

/-- The size of a buffer is changed within its capacity. -/
theorem ages_changeSize (hs : h.Sound) (hfits : h.Fits)
    (hbuf : h.lookup? handle = some (.buffer header)) {size : Nat} (hsize : size ≤ header.capacity)
    {change : HeapObject → HeapObject}
    (hchange : change (.buffer header) = .buffer { header with size }) :
    Ages 0 {handle} h (h.update handle change) := by
  refine ages_update hs hfits change hbuf (by rw [hchange]; exact ⟨rfl, rfl⟩) ?_
    fun hr hnot => ⟨hnot, fun header' hx => storage_ne_of_buffer hs hbuf hx⟩
  rw [hchange]
  rintro _ ⟨⟩
  exact hsize

/-- Bytes of a fixed buffer that is no storage are changed in place. -/
theorem ages_changeFixed {bytes : ByteArray} (hs : h.Sound) (hfits : h.Fits)
    (hr : h.Backs (.ref r)) (hbytes : h.lookup? r.handle = some (.fixedBuffer bytes))
    {change : HeapObject → HeapObject} {bytes' : ByteArray}
    (hchange : change (.fixedBuffer bytes) = .fixedBuffer bytes') (hsize : bytes'.size = bytes.size) :
    Ages 0 {r.handle} h (h.update r.handle change) :=
  ages_update hs hfits change hbytes (by rw [hchange]; exact hsize) (by simp [hchange])
    fun _ hnot => ⟨hnot, fun header hx => hr.2 _ header hx⟩

/-! ### Moving storages -/

/-- A release takes the object of a slot away or does nothing. -/
theorem slots_release (handle : Handle) {i : Nat} {slot : Slot} (hslot : h.slots[i]? = some slot) :
    ∃ k ≤ 1, ∃ o, (h.release handle).slots[i]? = some ⟨slot.generation + UInt32.ofNat k, o⟩ := by
  cases hlook : h.lookup? handle with
  | none => exact ⟨0, Nat.zero_le 1, slot.object, by simp [release, hlook, hslot]⟩
  | some object =>
    by_cases hi : handle.index = i
    · subst hi
      have hthere := lookup?_eq_some_iff.1 hlook
      obtain rfl := Option.some.inj (hslot.symm.trans hthere)
      refine ⟨1, Nat.le_refl 1, none, ?_⟩
      have hlt := index_lt_of_lookup? hlook
      simp [release, hlook, hlt]
    · refine ⟨0, Nat.zero_le 1, slot.object, ?_⟩
      simp [release, hlook, hi, hslot]

/-- By moving its bytes in use a buffer gets a new storage. The old one, which no reference reaches,
is lost. -/
theorem ages_moveStorage {bytes bytes' : ByteArray} (hs : h.Sound) (hfits : h.Fits)
    (hbuf : h.lookup? handle = some (.buffer header))
    (hbytes : h.lookup? header.storage = some (.fixedBuffer bytes))
    (hsize : header.size ≤ bytes'.size)
    (hsame : bytes'.extract 0 header.size = bytes.extract 0 header.size)
    {change : HeapObject → HeapObject}
    (hchange : change (.buffer header) =
      .buffer { header with storage := h.nextHandle, capacity := bytes'.size }) :
    Ages 1 ∅ h
      (((h.store (.fixedBuffer bytes')).2.update handle change).release header.storage) where
  fits x header' hx := by
    rw [lookup?_moveStorage hs.freeList hbuf bytes' hchange] at hx
    split at hx
    next => cases hx
    next =>
      split at hx
      next =>
        obtain rfl := HeapObject.buffer.inj (Option.some.inj hx)
        exact hsize
      next =>
        split at hx
        next => cases hx
        next => exact hfits _ _ hx
  slots hslot := by
    -- Only the release at the end takes an object away.
    obtain ⟨o, hstored⟩ := slots_store hslot (.fixedBuffer bytes')
    obtain ⟨o', hupdated⟩ := slots_update handle hstored change
    obtain ⟨k, hk, o'', hreleased⟩ := slots_release header.storage hupdated
    exact ⟨k, hk, o'', hreleased⟩
  objects {r object} hr hlook := by
    have hlooks := lookup?_moveStorage hs.freeList hbuf bytes' hchange
    have hfresh : ∀ {x o}, h.lookup? x = some o → x ≠ h.nextHandle := ne_nextHandle hs.freeList
    refine .inr ⟨(sound_moveStorage hs hbuf bytes' change hchange).2 _ hr, ?_⟩
    rw [hlooks, if_neg (hr.2 handle header hbuf).symm]
    by_cases heq : r.handle = handle
    -- The buffer has its bytes in the new storage.
    · rw [if_pos heq]
      rw [heq, hbuf] at hlook
      obtain rfl := Option.some.inj hlook
      refine ⟨_, rfl, fun _ => ?_⟩
      have hnew := hlooks h.nextHandle
      rw [if_neg (hfresh hbytes).symm, if_neg (hfresh hbuf).symm, if_pos rfl] at hnew
      rw [SameContent, inUse_eq_of_lookup? hbytes, inUse_eq_of_lookup? hnew, hsame]
    -- The other objects are where they were, and so are the storages of the other buffers.
    · rw [if_neg heq, if_neg (hfresh hlook), hlook]
      refine ⟨object, rfl, fun _ => sameContent_self fun header' hobject => ?_⟩
      subst hobject
      obtain ⟨b, hb, -⟩ := hs.storage hlook
      have hne : header'.storage ≠ header.storage := fun hst => heq (hs.unshared hlook hbuf hst)
      rw [hlooks, if_neg hne, if_neg (storage_ne_of_buffer hs hbuf hlook), if_neg (hfresh hb)]

/-! ### Actions -/

/-- With the header of a buffer its bytes can be looked up. -/
theorem exists_region (hs : h.Sound) (hheader : h.header r = .ok header) :
    ∃ bytes, h.lookup? header.storage = some (.fixedBuffer bytes) ∧
      h.region header.storage = .ok bytes ∧ bytes.size = header.capacity := by
  obtain ⟨bytes, hbytes, hsize⟩ := hs.storage (header_eq_ok_iff.1 hheader).1
  exact ⟨bytes, hbytes, region_eq_ok_iff.2 hbytes, hsize⟩

/-- What can be looked up is looked up. -/
theorem ensures_observe_bind {α β : Type} {look : Heap → Except Fault α} {a : α}
    {f : α → Action β} {ok : β → Heap → Prop} {fail : Fault → Heap → Prop} (hlook : look h = .ok a) :
    Ensures (observe look >>= f) h ok fail ↔ Ensures (f a) h ok fail := by
  rw [ensures_bind, ensures_observe]
  simp [hlook]

/-- Changing the bytes of a buffer in place does not fail. -/
theorem ensures_changeRegion {ok : Unit → Heap → Prop} {fail : Fault → Heap → Prop}
    {bytes : ByteArray} (hbytes : h.lookup? handle = some (.fixedBuffer bytes))
    (change : ByteArray → ByteArray) :
    Ensures (changeRegion handle change) h ok fail ↔
      ok () (h.update handle (.mapBytes change)) := by
  rw [changeRegion, ensures_bind, ensures_discard, ensures_observe]
  simp only [region_eq_ok_iff.2 hbytes, Except.ok.injEq, forall_eq', reduceCtorEq, false_implies,
    implies_true, and_true]
  exact Iff.rfl

/-- Nor does changing its header. -/
theorem ensures_changeHeader {ok : Unit → Heap → Prop} {fail : Fault → Heap → Prop}
    (hheader : h.header r = .ok header) (change : BufferHeader → BufferHeader) :
    Ensures (changeHeader r change) h ok fail ↔
      ok () (h.update r.handle (.mapHeader change)) := by
  rw [changeHeader, ensures_bind, ensures_discard, ensures_observe]
  simp only [hheader, Except.ok.injEq, forall_eq', reduceCtorEq, false_implies, implies_true,
    and_true]
  exact Iff.rfl

/-- Writing to a buffer makes a heap older only where it is written to. -/
theorem ages_writeBuffer (hs : h.Sound) (hfits : h.Fits) (r : HeapRef) (position : Nat)
    (source : ByteArray) :
    Ensures (writeBuffer r position source) h (fun _ t => Ages 0 {r.handle} h t)
      (fun _ t => t = h) := by
  rw [writeBuffer, ensures_bind, ensures_observe]
  refine ⟨fun header hheader => ?_, fun _ _ => rfl⟩
  obtain ⟨bytes, hbytes, -⟩ := exists_region hs hheader
  rw [ensures_changeRegion hbytes]
  exact ages_changeStorage hs hfits (header_eq_ok_iff.1 hheader).1 hbytes rfl
    (size_overwriteBytes bytes position source)

/-- What is written from the beginning on is followed by what was there. -/
theorem data_overwriteBytes_zero {bytes source : ByteArray} (hsize : source.size ≤ bytes.size) :
    (overwriteBytes bytes 0 source).data =
      source.data ++ bytes.data.extract source.size bytes.data.size := by
  have hmin : min source.data.size bytes.data.size = source.data.size :=
    Nat.min_eq_left hsize
  simp only [overwriteBytes, ByteArray.copySlice, ByteArray.size, Nat.zero_add, Nat.sub_zero, hmin,
    Nat.min_self, Array.extract_size, Array.extract_zero, Array.empty_append]

/-- As many bytes as there are take the place of all of them. -/
theorem overwriteBytes_of_size_eq {bytes source : ByteArray} (hsize : source.size = bytes.size) :
    overwriteBytes bytes 0 source = source := by
  have hdata : source.size = bytes.data.size := hsize
  apply ByteArray.ext
  rw [data_overwriteBytes_zero (Nat.le_of_eq hsize), hdata,
    Array.extract_eq_empty_of_le (Nat.min_le_right _ _), Array.append_empty]

/-- Bytes that are moved to a place where there is room for them are the same. -/
theorem extract_movedBytes {bytes : ByteArray} {size capacity : Nat} (hsize : size ≤ bytes.size)
    (hcapacity : size ≤ capacity) :
    (movedBytes bytes size capacity).extract 0 size = bytes.extract 0 size := by
  have hcut : (bytes.extract 0 size).size = size := by
    rw [ByteArray.size_extract]
    omega
  have hdata : (bytes.extract 0 size).data.size = size := hcut
  apply ByteArray.ext
  rw [ByteArray.data_extract, movedBytes,
    data_overwriteBytes_zero (by rw [hcut, size_zeroBytes]; exact hcapacity), Array.extract_append,
    hdata, Nat.sub_self, Array.extract_zero, Array.append_empty]
  exact Array.extract_eq_self_of_le (Nat.le_of_eq hdata)

/-- Moving a buffer to a storage that is large enough for its bytes in use keeps them, or there is
no room and nothing has happened. -/
theorem ages_setCapacity (hs : h.Sound) (hfits : h.Fits) {capacity : Nat}
    (hcapacity : ∀ header, h.header r = .ok header → header.size ≤ capacity) :
    Ensures (setCapacity r capacity) h
      (fun _ t => Ages 1 ∅ h t ∧ t.Sound ∧ ∀ header, h.header r = .ok header →
        ∃ storage, t.header r = .ok { header with storage, capacity })
      (fun _ t => t = h) := by
  rw [setCapacity, ensures_bind, ensures_observe]
  refine ⟨fun header hheader => ?_, fun _ _ => rfl⟩
  rw [ensures_bind, ensures_reserve]
  refine ⟨fun _ => ?_, fun _ => rfl⟩
  obtain ⟨bytes, hbytes, hregion, hsize⟩ := exists_region hs hheader
  rw [ensures_observe_bind hregion, ensures_bind, ensures_insert, ensures_bind]
  obtain ⟨hbuf, hkind⟩ := header_eq_ok_iff.1 hheader
  have hthere : (h.store (.fixedBuffer (movedBytes bytes header.size capacity))).2.header r =
      .ok header := header_eq_ok_iff.2 ⟨lookup?_store_of_lookup? hs.freeList hbuf, hkind⟩
  rw [ensures_changeHeader hthere, ensures_modify]
  have hmoved := size_movedBytes bytes header.size capacity
  have hroom : header.size ≤ capacity := hcapacity header hheader
  -- Here the bytes in use have to lie within the capacity: otherwise some would be left behind.
  have hin : header.size ≤ bytes.size := hsize ▸ hfits _ _ hbuf
  have hchange : HeapObject.buffer { header with storage := h.nextHandle, capacity } =
      .buffer { header with
        storage := h.nextHandle
        capacity := (movedBytes bytes header.size capacity).size } := by rw [hmoved]
  refine ⟨ages_moveStorage hs hfits hbuf hbytes (by rwa [hmoved]) (extract_movedBytes hin hroom)
    hchange, (sound_moveStorage hs hbuf _ _ hchange).1, fun header' hheader' => ?_⟩
  obtain rfl := Except.ok.inj (hheader.symm.trans hheader')
  refine ⟨h.nextHandle, header_eq_ok_iff.2 ⟨?_, hkind⟩⟩
  refine (lookup?_moveStorage hs.freeList hbuf _ hchange r.handle).trans ?_
  rw [if_neg (storage_ne_of_buffer hs hbuf hbuf).symm, if_pos rfl, hmoved]

/-- Raising the capacity of a buffer keeps its bytes in use. -/
theorem ages_reserveBuffer (hs : h.Sound) (hfits : h.Fits) (r : HeapRef) (capacity : Nat) :
    Ensures (reserveBuffer r capacity) h (fun _ t => Ages 1 ∅ h t) (fun _ t => t = h) := by
  rw [reserveBuffer, ensures_bind, ensures_observe]
  refine ⟨fun header hheader => ?_, fun _ _ => rfl⟩
  split
  next hlt =>
    refine (ages_setCapacity hs hfits fun header' hheader' => ?_).mono (fun _ _ => And.left)
      fun _ _ => id
    obtain rfl := Except.ok.inj (hheader.symm.trans hheader')
    exact (hfits _ _ (header_eq_ok_iff.1 hheader).1).trans (Nat.le_of_lt hlt)
  next => exact (Ages.refl hfits ∅).mono (Nat.zero_le 1) (Set.empty_subset _)

/-- So does cutting it down to the size. -/
theorem ages_shrinkBuffer (hs : h.Sound) (hfits : h.Fits) (r : HeapRef) :
    Ensures (shrinkBuffer r) h (fun _ t => Ages 1 ∅ h t) (fun _ t => t = h) := by
  rw [shrinkBuffer, ensures_bind, ensures_observe]
  refine ⟨fun header hheader => ?_, fun _ _ => rfl⟩
  refine (ages_setCapacity hs hfits fun header' hheader' => ?_).mono (fun _ _ => And.left)
    fun _ _ => id
  obtain rfl := Except.ok.inj (hheader.symm.trans hheader')
  exact Nat.le_refl _

/-- Within its capacity the size of a buffer can be set. -/
theorem setSize_spec (hs : h.Sound) (hfits : h.Fits) (hheader : h.header r = .ok header)
    {size : Nat} (hsize : size ≤ header.capacity) :
    Ensures (do
      let header ← observe (·.header r)
      changeHeader r fun header => { header with size }
      if header.size < size then
        changeRegion header.storage (zeroFill · header.size size)) h
      (fun _ t => Ages 0 {r.handle} h t ∧ t.header r = .ok { header with size } ∧
        t.used = h.used ∧ t.config = h.config)
      (fun _ _ => False) := by
  obtain ⟨hbuf, hkind⟩ := header_eq_ok_iff.1 hheader
  obtain ⟨bytes, hbytes, -⟩ := exists_region hs hheader
  rw [ensures_observe_bind hheader, ensures_bind, ensures_changeHeader hheader]
  generalize hchange : HeapObject.mapHeader (fun header => { header with size }) = change
  have hchanged : change (.buffer header) = .buffer { header with size } := by
    rw [← hchange, HeapObject.mapHeader]
  -- First the header is written. What is read of it afterwards is the new size.
  have hages := ages_changeSize hs hfits hbuf hsize hchanged
  have hsound : (h.update r.handle change).Sound :=
    (sound_update hs change hbuf (by rw [hchanged]; exact ⟨rfl, rfl⟩)).1
  have hlook : ∀ x, (h.update r.handle change).lookup? x =
      if x = r.handle then some (change (.buffer header)) else h.lookup? x :=
    fun _ => lookup?_update_of_lookup? change hbuf
  have hthere : (h.update r.handle change).lookup? r.handle =
      some (.buffer { header with size }) := by
    rw [hlook, if_pos rfl, hchanged]
  split
  next hgrows =>
    -- The bytes that come into use are zeroed in the storage, which is not where the header is.
    have hne : header.storage ≠ r.handle := storage_ne_of_buffer hs hbuf hbuf
    have hregion : (h.update r.handle change).lookup? header.storage =
        some (.fixedBuffer bytes) := by
      rw [hlook, if_neg hne, hbytes]
    rw [ensures_changeRegion hregion]
    have hsize' := size_zeroFill bytes header.size size
    refine ⟨(ages_changeStorage hsound hages.fits hthere hregion rfl hsize').trans hages,
      header_eq_ok_iff.2 ⟨?_, hkind⟩, rfl, rfl⟩
    rw [lookup?_update_of_lookup? _ hregion, if_neg hne.symm, hthere]
  next => exact ⟨hages, header_eq_ok_iff.2 ⟨hthere, hkind⟩, rfl, rfl⟩

/-- Setting the size of a buffer makes a heap older only where it is written to, or there is no room
and nothing has happened. -/
theorem ages_resizeBuffer (hs : h.Sound) (hfits : h.Fits) (r : HeapRef) {size : Nat}
    (hsize : size ≤ Capacity.maxWord) :
    Ensures (resizeBuffer r size) h (fun _ t => Ages 1 {r.handle} h t) (fun _ t => t = h) := by
  rw [resizeBuffer, ensures_bind, ensures_observe]
  refine ⟨fun header hheader => ?_, fun _ _ => rfl⟩
  dsimp only
  split
  next hlt =>
    -- It moves to a larger storage first, and the size is set where it is then.
    have hgrown : size ≤ grownBufferCapacity header.capacity size :=
      Capacity.le_grow (Nat.lt_of_lt_of_le (by decide) (Nat.le_max_right _ _)) hsize
    rw [ensures_bind]
    refine (ages_setCapacity hs hfits fun header' hheader' => ?_).mono ?_ fun _ _ => id
    · obtain rfl := Except.ok.inj (hheader.symm.trans hheader')
      exact (hfits _ _ (header_eq_ok_iff.1 hheader).1).trans (Nat.le_of_lt (hlt.trans_le hgrown))
    · rintro _ t ⟨hages, ht, hmoved⟩
      obtain ⟨storage, hheader'⟩ := hmoved header hheader
      refine (setSize_spec ht hages.fits hheader' hgrown).mono ?_ fun _ _ => False.elim
      exact fun _ u hu => hu.1.trans (hages.mono (Nat.le_refl 1) (Set.empty_subset _))
  next hle =>
    refine (setSize_spec hs hfits hheader (Nat.not_lt.1 hle)).mono ?_ fun _ _ => False.elim
    exact fun _ t ht => ht.1.of_le (Nat.zero_le 1)

end ActorMachine.Heap
