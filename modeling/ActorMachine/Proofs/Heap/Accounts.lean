import ActorMachine.Proofs.Heap.Operations
import Mathlib.Order.Basic

/-!
# The accounts of a heap

What a heap keeps written down about itself is right after any operations, successful or not.

* `Accounts`: the free list names the slots without an object, each once, and the bytes held are
  those charged for the objects and within the limit. Each single change preserves this, and so does
  dropping everything.
* `fits_after`: no operation makes the bytes in use of a buffer more than its capacity, provided
  that it asks for no size that no machine has.
* `Tallies`: what came and did not go is there. Single changes preserve this; dropping everything
  does not.
* `Way`, `Course`: the heaps that are passed on the way, those inside the operations included. The
  peak is the greatest number of bytes that one of them holds.
-/

namespace ActorMachine.Heap

variable {h t u : Heap} {handle : Handle} {object : HeapObject} {r : HeapRef}
  {header : BufferHeader} {gone : Set Handle} {config : HeapConfig} {passed : List Heap}

/-- The heap after some operations, one after the other. -/
def afterAll (ops : List Operation) (h : Heap) : Heap :=
  ops.foldl (fun h op => op.after h) h

/-! ### Slots and bytes -/

/-- The accounts of a heap about its slots and its bytes are right. -/
structure Accounts (h : Heap) : Prop where
  /-- No slot is listed as free twice. -/
  nodup : h.free.Nodup
  /-- The free slots are those without an object. -/
  mem_free : ∀ i, i ∈ h.free ↔ ∃ generation, h.slots[i]? = some ⟨generation, none⟩
  /-- The bytes held are those charged for the objects. -/
  used : h.used = chargeOf h.objects
  /-- They are within the limit. -/
  used_le : h.used ≤ h.config.heapLimit

theorem Accounts.balanced (hacc : h.Accounts) : h.Balanced :=
  ⟨⟨hacc.nodup, fun i hi => (hacc.mem_free i).1 hi⟩, hacc.used⟩

/-- That free slots are vacant is known of balanced heaps. What is left is the converse. -/
theorem Balanced.accounts (hb : h.Balanced)
    (hvacant : ∀ i generation, h.slots[i]? = some ⟨generation, none⟩ → i ∈ h.free)
    (hused : h.used ≤ h.config.heapLimit) : h.Accounts where
  nodup := hb.freeList.nodup
  mem_free i := ⟨hb.freeList.vacant i, fun ⟨generation, hslot⟩ => hvacant i generation hslot⟩
  used := hb.used
  used_le := hused

theorem accounts_empty (config : HeapConfig) : (empty config).Accounts :=
  (balanced_empty config).accounts (by simp [empty]) (Nat.zero_le _)

theorem accounts_clear (h : Heap) : h.clear.Accounts :=
  (balanced_clear h).accounts (by simp [clear]) (Nat.zero_le _)

/-- Storing fills the first free slot, and leaves the others vacant. -/
theorem mem_free_store (hacc : h.Accounts) (object : HeapObject) {i : Nat} {generation : UInt32}
    (hslot : (h.store object).2.slots[i]? = some ⟨generation, none⟩) :
    i ∈ (h.store object).2.free := by
  cases hlist : h.free with
  | nil =>
    -- Without a free slot a new one is appended and filled, so a vacant one was vacant before.
    have hold : h.slots[i]? = some ⟨generation, none⟩ := by
      simp only [store, hlist, Array.getElem?_push] at hslot
      split at hslot
      next => simp at hslot
      next => exact hslot
    have hmem := (hacc.mem_free i).2 ⟨generation, hold⟩
    simp [hlist] at hmem
  | cons j rest =>
    by_cases hj : j = i
    · -- The slot that was filled is not vacant.
      subst hj
      simp only [store, hlist, Array.getElem?_setIfInBounds_self] at hslot
      split at hslot <;> simp at hslot
    · have hold : h.slots[i]? = some ⟨generation, none⟩ := by
        simpa [store, hlist, hj] using hslot
      have hmem := (hacc.mem_free i).2 ⟨generation, hold⟩
      simpa [store, hlist, Ne.symm hj] using hmem

/-- A slot that is vacant after a release was so before, or it is that of the handle. -/
theorem mem_free_release (hacc : h.Accounts) {i : Nat} {generation : UInt32}
    (hslot : (h.release handle).slots[i]? = some ⟨generation, none⟩) :
    i ∈ (h.release handle).free := by
  cases hlook : h.lookup? handle with
  | none =>
    simp only [release, hlook] at hslot ⊢
    exact (hacc.mem_free i).2 ⟨generation, hslot⟩
  | some object =>
    by_cases hi : handle.index = i
    · simp [release, hlook, hi]
    · have hold : h.slots[i]? = some ⟨generation, none⟩ := by
        simpa [release, hlook, hi] using hslot
      have hmem := (hacc.mem_free i).2 ⟨generation, hold⟩
      simpa [release, hlook, Ne.symm hi] using hmem

/-- A change of an object makes no slot vacant. -/
theorem mem_free_update (hacc : h.Accounts) (change : HeapObject → HeapObject) {i : Nat}
    {generation : UInt32}
    (hslot : (h.update handle change).slots[i]? = some ⟨generation, none⟩) :
    i ∈ (h.update handle change).free := by
  refine (hacc.mem_free i).2 ⟨generation, ?_⟩
  by_cases hi : handle.index = i
  · simp only [update, Array.getElem?_modify, hi, if_true, Option.map_eq_some_iff] at hslot
    obtain ⟨⟨generation', occupant⟩, hold, heq⟩ := hslot
    obtain ⟨rfl, hnone⟩ := Slot.mk.inj heq
    have hvacant : occupant = none := Option.map_eq_none_iff.1 hnone
    rw [hold, hvacant]
  · simpa [update, Array.getElem?_modify, hi] using hslot

theorem Accounts.change (hacc : h.Accounts) (hchange : Change gone h t) : t.Accounts := by
  refine (hacc.balanced.change hchange).accounts (fun i generation hslot => ?_) ?_
  · cases hchange with
    | store => exact mem_free_store hacc _ hslot
    | release => exact mem_free_release hacc hslot
    | update => exact mem_free_update hacc _ hslot
    | count => exact (hacc.mem_free i).2 ⟨generation, hslot⟩
  · have hused := hacc.used_le
    cases hchange with
    | store hroom =>
      -- What is stored was reserved for, so it does not exceed what is left.
      change h.used + _ ≤ h.config.heapLimit
      rw [available] at hroom
      omega
    | release =>
      rw [Heap.release]
      split
      next => exact hused
      next => exact (Nat.sub_le _ _).trans hused
    | update => exact hused
    | count => exact hused

theorem Accounts.evolves (hacc : h.Accounts) (hevolves : Evolves gone h t) : t.Accounts := by
  induction hevolves with
  | refl => exact hacc
  | tail _ hchange ih => exact ih.change hchange

theorem Accounts.after (hacc : h.Accounts) (op : Operation) : (op.after h).Accounts := by
  by_cases hclear : op = .clear
  · subst hclear
    exact accounts_clear h
  · exact hacc.evolves (releases_after hclear hacc.balanced.freeList).evolves

/-- The accounts are right in every heap that comes about by operations. -/
theorem accounts_of_reached (hreached : Reached config h) : h.Accounts := by
  induction hreached with
  | empty => exact accounts_empty config
  | next op _ ih => exact ih.after op

theorem config_after (hacc : h.Accounts) (op : Operation) : (op.after h).config = h.config := by
  by_cases hclear : op = .clear
  · subst hclear
    rfl
  · exact config_eq_of_evolves (releases_after hclear hacc.balanced.freeList).evolves

/-! ### Sizes and capacities -/

/-- An operation asks for no size that no machine has. -/
def Operation.Sized : Operation → Prop
  | resizeBuffer _ size => size ≤ Capacity.maxWord
  | _ => True

/-- Bytes in use fit if those of all headers do. -/
theorem fits_iff : h.Fits ↔ ∀ x header, h.headerAt? x = some header →
    header.size ≤ header.capacity := by
  simp only [Fits, headerAt?_eq_some_iff]

/-- If a header that fits takes the place of another one, all fit. -/
theorem Fits.reheads {x : Handle} (hfits : h.Fits) (hreheads : Reheads x header h t)
    (hsize : header.size ≤ header.capacity) : t.Fits := by
  rw [fits_iff] at hfits ⊢
  intro y header' hy
  rw [hreheads] at hy
  split at hy
  next =>
    obtain rfl := Option.some.inj hy
    exact hsize
  next => exact hfits y header' hy

theorem Fits.store (hfits : h.Fits) (hfree : h.FreeList)
    (hsize : ∀ header, object = .buffer header → header.size ≤ header.capacity) :
    (h.store object).2.Fits := by
  intro x header hx
  rw [lookup?_store hfree] at hx
  split at hx
  next => exact hsize header (Option.some.inj hx)
  next => exact hfits x header hx

/-- What is left of the objects fits. -/
theorem Fits.of_lookup? (hfits : h.Fits)
    (hleft : ∀ x object, t.lookup? x = some object → h.lookup? x = some object) : t.Fits :=
  fun x header hx => hfits x header (hleft x _ hx)

theorem Fits.moves {capacity : Nat} (hfits : h.Fits) (hmoves : Moves r capacity header h t)
    (hcapacity : header.size ≤ header.capacity → header.size ≤ capacity) : t.Fits := by
  obtain ⟨storage, -, hreheads⟩ := hmoves.reheads
  exact hfits.reheads hreheads (hcapacity (hfits _ _ (header_eq_ok_iff.1 hmoves.found).1))

theorem Fits.setsSize {size : Nat} (hfits : h.Fits) (hsets : SetsSize r size h t)
    (hsize : ∀ header, h.header r = .ok header → size ≤ header.capacity) : t.Fits := by
  rcases hsets.reheads with rfl | ⟨header, hheader, hreheads⟩
  · exact hfits
  · exact hfits.reheads hreheads (hsize header hheader)

/-- Whether an action fails or not, the bytes in use fit afterwards. -/
def Fitting (act : Action α) : Prop :=
  ∀ h : Heap, h.FreeList → h.Fits → Ensures act h (fun _ t => t.Fits) fun _ t => t.Fits

theorem fitting_alloc {object : HeapObject} (hbuffer : ∀ header, object ≠ .buffer header)
    (bytes : Nat) : Fitting (do reserve bytes; insert object) := by
  intro h hfree hfits
  rw [ensures_bind, ensures_reserve]
  refine ⟨fun _ => ?_, fun _ => hfits⟩
  rw [ensures_insert]
  exact hfits.store hfree fun header heq => absurd heq (hbuffer header)

/-- A new buffer has no bytes in use. -/
theorem fitting_allocBuffer (capacity : Nat) : Fitting (allocBuffer capacity) := by
  intro h hfree hfits
  rw [allocBuffer, ensures_bind, ensures_reserve]
  refine ⟨fun _ => ?_, fun _ => hfits⟩
  rw [ensures_bind, ensures_insert, ensures_insert]
  -- Only the second of the two objects has a header.
  have hstored : (h.store (.fixedBuffer (zeroBytes capacity))).2.Fits :=
    hfits.store hfree (by simp)
  refine hstored.store (freeList_store hfree) fun header heq => ?_
  obtain rfl := HeapObject.buffer.inj heq
  exact Nat.zero_le capacity

theorem fitting_allocate (kind : ObjectKind) (size : Nat) : Fitting (allocate kind size) := by
  cases kind with
  | fixedBuffer => exact fitting_alloc (by nofun) size
  | buffer => exact fitting_allocBuffer size
  | closure => exact fun _ _ => id
  | string => exact fitting_alloc (by nofun) size

/-- Changing bytes leaves the headers alone. -/
theorem fitting_changeRegion (handle : Handle) (change : ByteArray → ByteArray) :
    Fitting (changeRegion handle change) := by
  intro h _ hfits
  rw [changeRegion, ensures_bind, ensures_discard, ensures_observe]
  refine ⟨fun bytes hregion => ?_, fun _ _ => hfits⟩
  rw [ensures_modify, fits_iff]
  intro x header hx
  exact fits_iff.1 hfits x header ((headerAt?_update_region hregion change x).symm.trans hx)

theorem fitting_writeFixed (r : HeapRef) (position : Nat) (source : ByteArray) :
    Fitting (writeFixed r position source) := by
  intro h hfree hfits
  rw [writeFixed, ensures_bind, ensures_ofExcept]
  exact ⟨fun _ _ => fitting_changeRegion _ _ h hfree hfits, fun _ _ => hfits⟩

theorem fitting_writeBuffer (r : HeapRef) (position : Nat) (source : ByteArray) :
    Fitting (writeBuffer r position source) := by
  intro h hfree hfits
  rw [writeBuffer, ensures_bind, ensures_observe]
  exact ⟨fun _ _ => fitting_changeRegion _ _ h hfree hfits, fun _ _ => hfits⟩

/-- By growing a buffer gets a capacity that is enough for the size, which is then set. -/
theorem Fits.resizes {size : Nat} (hfits : h.Fits) (hresizes : Resizes r size h t)
    (hsize : size ≤ Capacity.maxWord) : t.Fits := by
  rcases hresizes with rfl | ⟨header, hheader, hle, hsets⟩ | ⟨header, u, hlt, hmoves, hsets⟩
  · exact hfits
  · refine hfits.setsSize hsets fun header' hheader' => ?_
    obtain rfl := Except.ok.inj (hheader.symm.trans hheader')
    exact hle
  · have hgrown : size ≤ grownBufferCapacity header.capacity size :=
      Capacity.le_grow (Nat.lt_of_lt_of_le (by decide) (Nat.le_max_right _ _)) hsize
    have hmoved : u.Fits := hfits.moves hmoves fun hle => by omega
    -- The size is set in the header that the move has left.
    refine hmoved.setsSize hsets fun header' hheader' => ?_
    obtain ⟨storage, -, hreheads⟩ := hmoves.reheads
    obtain rfl := Except.ok.inj ((hreheads.header_eq hmoves.found).symm.trans hheader')
    exact hgrown

theorem fits_after {op : Operation} (hsized : op.Sized) (hfree : h.FreeList) (hfits : h.Fits) :
    (op.after h).Fits := by
  cases op with
  | allocate kind size =>
    have hrun := fitting_allocate kind size h hfree hfits
    exact Operation.after_of_ensures ((ensures_map _ _).2 hrun)
  | allocString text =>
    have hrun : Fitting (allocString text) := fitting_alloc (by nofun) _
    exact Operation.after_of_ensures ((ensures_map _ _).2 (hrun h hfree hfits))
  | allocBuffer capacity =>
    have hrun := fitting_allocBuffer capacity h hfree hfits
    exact Operation.after_of_ensures ((ensures_map _ _).2 hrun)
  | allocClosure routine upvalues =>
    have hrun : Fitting (allocClosure routine upvalues) := fitting_alloc (by nofun) _
    exact Operation.after_of_ensures ((ensures_map _ _).2 (hrun h hfree hfits))
  | writeFixed r position source =>
    exact Operation.after_of_map rfl (fitting_writeFixed r position source h hfree hfits)
  | writeBuffer r position source =>
    exact Operation.after_of_map rfl (fitting_writeBuffer r position source h hfree hfits)
  | reserveBuffer r capacity =>
    rcases after_reserveBuffer hfree r capacity with heq | ⟨header, hlt, hmoves⟩
    · rwa [heq]
    · exact hfits.moves hmoves fun hle => hle.trans hlt.le
  | resizeBuffer r size => exact hfits.resizes (after_resizeBuffer hfree r size) hsized
  | shrinkBuffer r =>
    rcases after_shrinkBuffer hfree r with heq | ⟨header, hmoves⟩
    · rwa [heq]
    · exact hfits.moves hmoves fun _ => Nat.le_refl _
  | release handle =>
    refine hfits.of_lookup? fun x object hx => ?_
    change (h.release handle).lookup? x = some object at hx
    rw [lookup?_release] at hx
    split at hx
    next => cases hx
    next => exact hx
  | collect roots => exact hfits.of_lookup? fun _ _ => lookup?_of_collect
  | clear =>
    refine hfits.of_lookup? fun x object hx => ?_
    change h.clear.lookup? x = some object at hx
    simp [lookup?, clear] at hx

/-! ### What came and what went -/

/-- What was allocated was freed or is there. -/
structure Tallies (h : Heap) : Prop where
  /-- So it is with the objects. -/
  objects : h.stats.allocated = h.stats.freed + h.liveObjects
  /-- So it is with their bytes. -/
  bytes : h.stats.bytesAllocated = h.stats.bytesFreed + h.used

theorem tallies_empty (config : HeapConfig) : (empty config).Tallies :=
  ⟨rfl, rfl⟩

theorem Tallies.store (htal : h.Tallies) (hfree : h.FreeList) (object : HeapObject) :
    (h.store object).2.Tallies where
  objects := by
    rw [← length_objects, (perm_objects_store hfree object).length_eq, List.length_cons,
      length_objects, ← Nat.add_assoc]
    exact congrArg (· + 1) htal.objects
  bytes := by
    change h.stats.bytesAllocated + _ = h.stats.bytesFreed + (h.used + _)
    rw [htal.bytes, Nat.add_assoc]

/-- The bytes of an object that goes are among those that are held. -/
theorem Tallies.release (htal : h.Tallies) (hb : h.Balanced) (handle : Handle) :
    (h.release handle).Tallies := by
  cases hlook : h.lookup? handle with
  | none => simpa only [Heap.release, hlook] using htal
  | some object =>
    have hperm := perm_objects_release hlook
    have hcharge : object.charge ≤ h.used := hb.charge_le hlook
    have hlength := hperm.length_eq
    rw [List.length_cons, length_objects, length_objects] at hlength
    -- One object goes over from those that are there to those that were freed, with its bytes.
    have hstats : (h.release handle).stats =
        { h.stats with
          freed := h.stats.freed + 1
          bytesFreed := h.stats.bytesFreed + object.charge } := by
      simp [Heap.release, hlook]
    have hused : (h.release handle).used = h.used - object.charge := by
      simp [Heap.release, hlook]
    refine ⟨?_, ?_⟩
    · rw [hstats]
      have := htal.objects
      dsimp only
      omega
    · rw [hstats, hused]
      have := htal.bytes
      dsimp only
      omega

/-- A change of an object leaves their number alone. -/
theorem liveObjects_update (change : HeapObject → HeapObject)
    (hlook : h.lookup? handle = some object) :
    (h.update handle change).liveObjects = h.liveObjects := by
  rw [← length_objects, ← length_objects, (perm_objects_update change hlook).length_eq,
    (perm_objects_release hlook).length_eq]
  rfl

theorem Tallies.change (htal : h.Tallies) (hb : h.Balanced) (hchange : Change gone h t) :
    t.Tallies := by
  cases hchange with
  | store => exact htal.store hb.freeList _
  | release => exact htal.release hb _
  | update hlive => exact ⟨(liveObjects_update _ hlive).symm ▸ htal.objects, htal.bytes⟩
  | count => exact ⟨htal.objects, htal.bytes⟩

theorem Tallies.evolves (htal : h.Tallies) (hb : h.Balanced) (hevolves : Evolves gone h t) :
    t.Tallies := by
  induction hevolves with
  | refl => exact htal
  | tail hevolves hchange ih => exact ih.change (hb.evolves hevolves) hchange

/-! ### The peak -/

/-- Single changes lead from one heap to another through these heaps, both ends included. -/
inductive Way : Heap → Heap → List Heap → Prop
  /-- Nothing changes. -/
  | done (h : Heap) : Way h h [h]
  /-- There is another change before. -/
  | step {h u t : Heap} {passed : List Heap} (change : Change Set.univ h u) (way : Way u t passed) :
      Way h t (h :: passed)

/-- Operations are done one after the other, and these are the heaps that are passed, between the
operations and inside of them. -/
inductive Course : Heap → List Operation → List Heap → Prop
  /-- There are no operations. -/
  | done (h : Heap) : Course h [] [h]
  /-- An operation is done first. -/
  | next {h : Heap} {op : Operation} {ops : List Operation} {inside passed : List Heap}
      (way : Way h (op.after h) inside) (course : Course (op.after h) ops passed) :
      Course h (op :: ops) (inside ++ passed)

/-- Changes lead along some way. -/
theorem exists_way (hevolves : Evolves gone h t) : ∃ passed, Way h t passed := by
  induction hevolves using Relation.ReflTransGen.head_induction_on with
  | refl => exact ⟨_, .done t⟩
  | head hchange _ ih =>
    obtain ⟨passed, hway⟩ := ih
    exact ⟨_, .step (hchange.mono (Set.subset_univ _)) hway⟩

theorem mem_of_way (hway : Way h t passed) : h ∈ passed := by
  cases hway <;> exact List.mem_cons_self

theorem mem_of_course {ops : List Operation} (hcourse : Course h ops passed) : h ∈ passed := by
  cases hcourse with
  | done => exact List.mem_cons_self
  | next hway => exact List.mem_append_left _ (mem_of_way hway)

/-- Only storing raises the bytes held, and it notes the peak. -/
theorem peak_change (hchange : Change gone h t) (hpeak : h.used ≤ h.stats.peakBytes) :
    t.stats.peakBytes = max h.stats.peakBytes t.used := by
  cases hchange with
  | store => rfl
  | release =>
    rw [Heap.release]
    split
    next => exact (Nat.max_eq_left hpeak).symm
    next => exact (Nat.max_eq_left ((Nat.sub_le _ _).trans hpeak)).symm
  | update => exact (Nat.max_eq_left hpeak).symm
  | count => exact (Nat.max_eq_left hpeak).symm

/-- On the way from one heap to another the peak covers what is held, and if it rises, it is
held. -/
structure Peaks (h t : Heap) (passed : List Heap) : Prop where
  /-- The peak covers what is held in the end. -/
  used_le : t.used ≤ t.stats.peakBytes
  /-- It does not fall. -/
  peak_le : h.stats.peakBytes ≤ t.stats.peakBytes
  /-- It covers what is held on the way. -/
  upper : ∀ u ∈ passed, u.used ≤ t.stats.peakBytes
  /-- It is the old one or is held somewhere on the way. -/
  attained : t.stats.peakBytes = h.stats.peakBytes ∨ ∃ u ∈ passed, u.used = t.stats.peakBytes

theorem peaks_done (hpeak : h.used ≤ h.stats.peakBytes) : Peaks h h [h] :=
  ⟨hpeak, Nat.le_refl _, by simpa using hpeak, .inl rfl⟩

theorem peaks_way (hway : Way h t passed) (hpeak : h.used ≤ h.stats.peakBytes) :
    Peaks h t passed := by
  induction hway with
  | done h => exact peaks_done hpeak
  | @step h u t passed hchange hway ih =>
    have hnoted := peak_change hchange hpeak
    have hrest := ih (by omega)
    refine ⟨hrest.used_le, by have := hrest.peak_le; omega, fun v hv => ?_, ?_⟩
    · have hrises := hrest.peak_le
      rcases List.mem_cons.1 hv with rfl | hv
      · omega
      · exact hrest.upper v hv
    · rcases hrest.attained with heq | ⟨v, hv, hheld⟩
      · -- The peak stays from here on, and here it is the old one or what is held.
        rcases Nat.le_total u.used h.stats.peakBytes with hle | hle
        · exact .inl (by omega)
        · exact .inr ⟨u, List.mem_cons_of_mem _ (mem_of_way hway), by omega⟩
      · exact .inr ⟨v, List.mem_cons_of_mem _ hv, hheld⟩

theorem peaks_course {ops : List Operation} (hcourse : Course h ops passed)
    (hpeak : h.used ≤ h.stats.peakBytes) : Peaks h (afterAll ops h) passed := by
  induction hcourse with
  | done h => exact peaks_done hpeak
  | @next h op ops inside passed hway hcourse ih =>
    have hfirst := peaks_way hway hpeak
    have hrest : Peaks (op.after h) (afterAll (op :: ops) h) passed := ih hfirst.used_le
    refine ⟨hrest.used_le, hfirst.peak_le.trans hrest.peak_le, fun v hv => ?_, ?_⟩
    · rcases List.mem_append.1 hv with hv | hv
      · exact (hfirst.upper v hv).trans hrest.peak_le
      · exact hrest.upper v hv
    · -- If the peak does not rise later on, it is what it was after the first operation.
      rcases hrest.attained with heq | ⟨v, hv, hheld⟩
      · rcases hfirst.attained with heq' | ⟨v, hv, hheld⟩
        · exact .inl (heq.trans heq')
        · exact .inr ⟨v, List.mem_append_left _ hv, hheld.trans heq.symm⟩
      · exact .inr ⟨v, List.mem_append_right _ hv, hheld⟩

/-! ### All operations -/

/-- The accounts are right after all operations, and the bytes in use fit after those that ask for
no size that no machine has. -/
theorem accounts_afterAll (hacc : h.Accounts) (ops : List Operation) :
    (afterAll ops h).Accounts ∧ (afterAll ops h).config = h.config ∧
      ((∀ op ∈ ops, op.Sized) → h.Fits → (afterAll ops h).Fits) := by
  induction ops generalizing h with
  | nil => exact ⟨hacc, rfl, fun _ => id⟩
  | cons op ops ih =>
    obtain ⟨hafter, hconfig, hfits⟩ := ih (hacc.after op)
    refine ⟨hafter, hconfig.trans (config_after hacc op), fun hsized hbefore => ?_⟩
    rw [List.forall_mem_cons] at hsized
    exact hfits hsized.2 (fits_after hsized.1 hacc.balanced.freeList hbefore)

/-- What came and did not go is there, and there is a course of the operations. -/
theorem tallies_afterAll (hacc : h.Accounts) (htal : h.Tallies) {ops : List Operation}
    (hclear : .clear ∉ ops) :
    (afterAll ops h).Tallies ∧ ∃ passed, Course h ops passed := by
  induction ops generalizing h with
  | nil => exact ⟨htal, _, .done h⟩
  | cons op ops ih =>
    rw [List.mem_cons, not_or] at hclear
    have hevolves := (releases_after (Ne.symm hclear.1) hacc.balanced.freeList).evolves
    obtain ⟨hafter, passed, hcourse⟩ :=
      ih (hacc.after op) (htal.evolves hacc.balanced hevolves) hclear.2
    obtain ⟨inside, hway⟩ := exists_way hevolves
    exact ⟨hafter, _, .next hway hcourse⟩

/-- After any operations, successful or not: the free list has no duplicates and names exactly the
slots without an object, the bytes held are those charged for the live objects and never exceed the
limit, and no buffer has more bytes in use than its capacity. As long as nothing was dropped, what
was allocated and not freed is there, objects as well as bytes, and on whatever course the heap has
come about, the peak is the greatest number of bytes that was ever held, also inside an
operation. -/
theorem accounts_of_operations (config : HeapConfig) {ops : List Operation}
    (hsized : ∀ op ∈ ops, op.Sized) :
    let h := afterAll ops (empty config)
    h.free.Nodup ∧ (∀ i, i ∈ h.free ↔ ∃ generation, h.slots[i]? = some ⟨generation, none⟩) ∧
      h.used = chargeOf h.objects ∧ h.used ≤ config.heapLimit ∧
      (∀ handle header, h.lookup? handle = some (.buffer header) →
        header.size ≤ header.capacity) ∧
      (.clear ∉ ops →
        h.stats.allocated = h.stats.freed + h.liveObjects ∧
        h.stats.bytesAllocated = h.stats.bytesFreed + h.used ∧
        (∃ passed, Course (empty config) ops passed) ∧
        ∀ passed, Course (empty config) ops passed →
          (passed.map Heap.used).max? = some h.stats.peakBytes) := by
  intro h
  obtain ⟨hacc, hconfig, hfits⟩ := accounts_afterAll (accounts_empty config) ops
  refine ⟨hacc.nodup, hacc.mem_free, hacc.used, ?_, hfits hsized (fits_empty config),
    fun hclear => ?_⟩
  · exact hacc.used_le.trans_eq (congrArg HeapConfig.heapLimit hconfig)
  · obtain ⟨htal, hcourse⟩ :=
      tallies_afterAll (accounts_empty config) (tallies_empty config) hclear
    refine ⟨htal.objects, htal.bytes, hcourse, fun passed hpassed => ?_⟩
    have hpeaks := peaks_course hpassed (Nat.le_refl 0)
    rw [List.max?_eq_some_iff]
    refine ⟨List.mem_map.2 ?_, List.forall_mem_map.2 hpeaks.upper⟩
    rcases hpeaks.attained with heq | hheld
    -- If the peak has never risen, it is what the empty heap holds.
    · exact ⟨empty config, mem_of_course hpassed, heq.symm⟩
    · exact hheld

/-- A buffer is made and grows, for which there is just enough room while it has both storages. Then
there is no room for a text, a handle reaches nothing, and the header of the buffer is released. -/
def errands : List Operation :=
  [.allocBuffer 2, .resizeBuffer ⟨.buffer, ⟨1, 0⟩⟩ 3, .allocString "too long a text",
    .release ⟨2, 9⟩, .release ⟨1, 0⟩]

/-- Of the three objects one is left. The peak was inside of the second operation. -/
theorem accounts_of_operations_errands :
    (∀ op ∈ errands, op.Sized) ∧ .clear ∉ errands ∧
      (afterAll errands (empty { heapLimit := 90 })).used = 64 ∧
      (afterAll errands (empty { heapLimit := 90 })).stats.allocated = 2 + 1 ∧
      ∃ passed, Course (empty { heapLimit := 90 }) errands passed ∧
        (passed.map Heap.used).max? = some 90 := by
  have hsized : ∀ op ∈ errands, op.Sized := by
    simp [errands, Operation.Sized, Capacity.maxWord]
  have hclear : .clear ∉ errands := by simp [errands]
  obtain ⟨-, -, -, -, -, hnever⟩ := accounts_of_operations { heapLimit := 90 } hsized
  obtain ⟨hobjects, -, ⟨passed, hcourse⟩, hpeak⟩ := hnever hclear
  exact ⟨hsized, hclear, by decide +kernel, hobjects.trans (by decide +kernel), passed, hcourse,
    (hpeak passed hcourse).trans (by decide +kernel)⟩

end ActorMachine.Heap
