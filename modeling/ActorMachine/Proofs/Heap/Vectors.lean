import ActorMachine.Proofs.Capacity
import ActorMachine.Proofs.Heap.Collection
import ActorMachine.Proofs.Heap.Effects
import Mathlib.Data.Nat.Find

/-!
# Growable buffers are byte vectors

A buffer is a header and a storage that moves. Seen from outside it is a vector of bytes with a
capacity, and no operation on the heap tells the difference as long as nobody meddles with a
storage.

* `ByteVector`: the vectors, and what can be done with them.
* `Shows`: a handle shows a vector if that is what can be read through it.
* `Housed`: every buffer has a storage of its own that is as large as its header says.
* `performs_reserveBuffer`, `performs_resizeBuffer`, `performs_shrinkBuffer`,
  `performs_writeBuffer`: each operation on a buffer does to the vector what its name says and
  spares all other objects, or it fails and leaves the heap as it was.
-/

namespace ActorMachine

/-! ### Byte vectors -/

/-- A vector of bytes, and how many of them there can be before it has to grow. -/
@[ext]
structure ByteVector where
  /-- The bytes. -/
  bytes : List UInt8
  /-- How many of them there can be. -/
  capacity : Nat
  /-- There are no more of them. -/
  fits : bytes.length ≤ capacity

namespace ByteVector

/-- The vector without bytes. -/
def empty (capacity : Nat) : ByteVector :=
  ⟨[], capacity, Nat.zero_le capacity⟩

/-- Raises the capacity. -/
def reserve (v : ByteVector) (capacity : Nat) : ByteVector where
  bytes := v.bytes
  capacity := max v.capacity capacity
  fits := v.fits.trans (Nat.le_max_left _ _)

/-- Cuts the capacity down. -/
def shrink (v : ByteVector) : ByteVector :=
  ⟨v.bytes, v.bytes.length, Nat.le_refl _⟩

theorem exists_doublings (capacity size : Nat) : ∃ k, size ≤ max capacity 64 * 2 ^ k := by
  refine ⟨size, Nat.lt_two_pow_self.le.trans (Nat.le_mul_of_pos_left _ ?_)⟩
  omega

/-- The least number of doublings that lead to a size, from a capacity or else from 64. -/
def doublings (capacity size : Nat) : Nat :=
  Nat.find (exists_doublings capacity size)

/-- The capacity for a size. -/
def capacityFor (v : ByteVector) (size : Nat) : Nat :=
  if size ≤ v.capacity then v.capacity else max v.capacity 64 * 2 ^ doublings v.capacity size

theorem le_capacityFor (v : ByteVector) (size : Nat) : size ≤ v.capacityFor size := by
  rw [capacityFor]
  split
  next hle => exact hle
  next => exact Nat.find_spec (exists_doublings v.capacity size)

/-- Beyond the capacity it is the least that doubling leads to and that is large enough. -/
theorem isLeast_capacityFor {v : ByteVector} {size : Nat} (hlt : v.capacity < size) :
    IsLeast {n | size ≤ n ∧ ∃ k, n = max v.capacity 64 * 2 ^ k} (v.capacityFor size) := by
  refine ⟨⟨v.le_capacityFor size, doublings v.capacity size, if_neg (Nat.not_le.2 hlt)⟩, ?_⟩
  rintro _ ⟨henough, k, rfl⟩
  rw [capacityFor, if_neg (Nat.not_le.2 hlt)]
  exact Nat.mul_le_mul_left _
    (Nat.pow_le_pow_right (by decide) (Nat.find_min' (exists_doublings v.capacity size) henough))

/-- Cuts the bytes down to a number, or adds zeros up to it. -/
def resize (v : ByteVector) (size : Nat) : ByteVector where
  bytes := v.bytes.take size ++ List.replicate (size - v.bytes.length) 0
  capacity := v.capacityFor size
  fits := by
    have hle := v.le_capacityFor size
    simp only [List.length_append, List.length_take, List.length_replicate]
    omega

/-- Writes bytes over those from a position on. What would reach beyond the last one is dropped. -/
def write (v : ByteVector) (position : Nat) (source : List UInt8) : ByteVector where
  bytes := v.bytes.mapIdx fun i byte =>
    if position ≤ i then source.getD (i - position) byte else byte
  capacity := v.capacity
  fits := by simpa using v.fits

end ByteVector

namespace Heap

variable {h t u : Heap} {x y : Handle} {object : HeapObject} {r : HeapRef}
  {header header' : BufferHeader} {region region' : ByteArray} {v w : ByteVector}

/-! ### The bytes of a storage -/

theorem toList_extract (bytes : ByteArray) (size : Nat) :
    (bytes.extract 0 size).data.toList = bytes.data.toList.take size := by
  simp [ByteArray.data_extract]

/-- Each byte is the one that was written to its place, or else the one that was there. -/
theorem toList_overwriteBytes (bytes : ByteArray) (position : Nat) (source : ByteArray) :
    (overwriteBytes bytes position source).data.toList =
      bytes.data.toList.mapIdx fun i byte =>
        if position ≤ i then source.data.toList.getD (i - position) byte else byte := by
  apply List.ext_getElem?
  intro i
  simp only [overwriteBytes, ByteArray.copySlice, ByteArray.size, Nat.sub_zero, Nat.zero_add,
    Array.toList_append, Array.toList_extract, List.extract_eq_take_drop, List.drop_zero,
    List.getElem?_append, List.getElem?_mapIdx, List.getElem?_take, List.getElem?_drop,
    List.length_take, List.length_append, Array.length_toList, List.getD_eq_getElem?_getD]
  -- A place lies before the position, within what is written, behind that, or behind all bytes.
  rcases Nat.lt_or_ge i bytes.data.size with hi | hi
  · rw [List.getElem?_eq_getElem (Array.length_toList ▸ hi), Option.map_some]
    rcases Nat.lt_or_ge i position with hp | hp
    · rw [if_pos (by omega), if_pos (by omega), if_pos hp, if_neg (by omega)]
    have hmin : min position bytes.data.size = position := by omega
    rw [if_pos hp, hmin]
    rcases Nat.lt_or_ge (i - position) source.data.size with hs | hs
    · rw [if_pos (by omega), if_neg (by omega), if_pos (by omega),
        List.getElem?_eq_getElem (Array.length_toList ▸ hs), Option.getD_some]
    · have hall : min (min source.data.size (bytes.data.size - position)) source.data.size =
        source.data.size := by omega
      have hindex : position + source.data.size + (i - (position + source.data.size)) = i := by omega
      rw [hall, if_neg (by omega), if_pos (by omega), hindex,
        List.getElem?_eq_getElem (Array.length_toList ▸ hi),
        List.getElem?_eq_none (Array.length_toList ▸ hs), Option.getD_none]
  · have hnone : bytes.data.toList[i]? = none := List.getElem?_eq_none (Array.length_toList ▸ hi)
    rw [if_neg (by omega), if_neg (by omega), hnone, Option.map_none]

/-- Bytes in use are overwritten in the same way as all bytes are. -/
theorem toList_extract_overwriteBytes (bytes : ByteArray) (size position : Nat)
    (source : ByteArray) :
    ((overwriteBytes bytes position source).extract 0 size).data.toList =
      (bytes.extract 0 size).data.toList.mapIdx fun i byte =>
        if position ≤ i then source.data.toList.getD (i - position) byte else byte := by
  rw [toList_extract, toList_extract, toList_overwriteBytes]
  apply List.ext_getElem?
  intro i
  simp only [List.getElem?_take, List.getElem?_mapIdx]
  split_ifs <;> rfl

/-- The bytes in use after a size was set. -/
theorem toList_extract_sizedBytes {bytes : ByteArray} {old new : Nat} (hold : old ≤ bytes.size)
    (hnew : new ≤ bytes.size) :
    ((sizedBytes bytes old new).extract 0 new).data.toList =
      (bytes.extract 0 old).data.toList.take new ++ List.replicate (new - old) 0 := by
  have hlength : bytes.data.toList.length = bytes.size := Array.length_toList
  rw [toList_extract, toList_extract, sizedBytes]
  split
  next hlt =>
    rw [zeroFill, toList_overwriteBytes]
    apply List.ext_getElem?
    intro i
    simp only [List.take_take, List.getElem?_append, List.getElem?_take, List.getElem?_mapIdx,
      zeroBytes, List.getElem?_replicate, Array.toList_replicate, List.length_take, hlength,
      List.getD_eq_getElem?_getD, Nat.min_eq_right hlt.le, Nat.min_eq_left hold]
    -- Nothing was written below the old size, and zeros from there up to the new one.
    rcases Nat.lt_or_ge i old with hi | hi
    · rw [if_pos (hi.trans hlt), if_pos hi, if_pos hi]
      simp [Nat.not_le.2 hi]
    · rcases Nat.lt_or_ge i new with hn | hn
      · rw [if_pos hn, if_neg (Nat.not_lt.2 hi), if_pos (by omega),
          List.getElem?_eq_getElem (by omega), Option.map_some, if_pos hi, Option.getD_some]
      · rw [if_neg (Nat.not_lt.2 hn), if_neg (Nat.not_lt.2 hi), if_neg (by omega)]
  next hle =>
    have hzero : new - old = 0 := by omega
    simp [hzero, List.take_take, Nat.not_lt.1 hle]

/-! ### What can be seen of a buffer -/

/-- Through the handle of a buffer, the bytes in use and the capacity of the vector can be read. -/
def Shows (h : Heap) (x : Handle) (v : ByteVector) : Prop :=
  ∃ storage,
    h.header ⟨.buffer, x⟩ = .ok { size := v.bytes.length, capacity := v.capacity, storage } ∧
      h.bufferBytes ⟨.buffer, x⟩ = .ok ⟨⟨v.bytes⟩⟩

/-- A buffer shows what its header and its storage hold. -/
theorem shows_of_lookup? (hbuf : h.lookup? x = some (.buffer header))
    (hregion : h.lookup? header.storage = some (.fixedBuffer region))
    (hbytes : (region.extract 0 header.size).data.toList = v.bytes)
    (hsize : header.size = v.bytes.length) (hcapacity : header.capacity = v.capacity) :
    h.Shows x v := by
  have hheader : h.header ⟨.buffer, x⟩ = .ok header := header_eq_ok_iff.2 ⟨hbuf, rfl⟩
  refine ⟨header.storage, ?_, ?_⟩
  · rw [hheader, ← hsize, ← hcapacity]
  · rw [bufferBytes_of_header hheader hregion, ← hbytes]

/-- A vector that is shown is what header and storage hold. -/
theorem Shows.eq_of_lookup? (hshows : h.Shows x v) (hbuf : h.lookup? x = some (.buffer header))
    (hregion : h.lookup? header.storage = some (.fixedBuffer region)) :
    v.bytes = (region.extract 0 header.size).data.toList ∧ v.bytes.length = header.size ∧
      v.capacity = header.capacity := by
  obtain ⟨storage, hheader, hbytes⟩ := hshows
  have hheader' : h.header ⟨.buffer, x⟩ = .ok header := header_eq_ok_iff.2 ⟨hbuf, rfl⟩
  rw [bufferBytes_of_header hheader' hregion] at hbytes
  obtain rfl := Except.ok.inj (hheader'.symm.trans hheader)
  exact ⟨congrArg (fun bytes : ByteArray => bytes.data.toList) (Except.ok.inj hbytes).symm, rfl, rfl⟩

/-- A vector that is shown lies in a header and a storage. -/
theorem Shows.exists_lookup? (hshows : h.Shows x v) :
    ∃ header region, h.lookup? x = some (.buffer header) ∧
      h.lookup? header.storage = some (.fixedBuffer region) := by
  obtain ⟨storage, -, hbytes⟩ := hshows
  obtain ⟨header, hheader, hbytes⟩ := except_bind_eq_ok_iff.1 hbytes
  obtain ⟨region, hregion, -⟩ := except_bind_eq_ok_iff.1 hbytes
  exact ⟨header, region, (header_eq_ok_iff.1 hheader).1, region_eq_ok_iff.1 hregion⟩

/-- A handle shows one vector at most. -/
theorem Shows.eq (hv : h.Shows x v) (hw : h.Shows x w) : v = w := by
  obtain ⟨storage, hheader, hbytes⟩ := hv
  obtain ⟨storage', hheader', hbytes'⟩ := hw
  rw [hheader] at hheader'
  rw [hbytes] at hbytes'
  simp only [Except.ok.injEq, BufferHeader.mk.injEq] at hheader'
  simp only [Except.ok.injEq, ByteArray.mk.injEq, Array.mk.injEq] at hbytes'
  exact ByteVector.ext hbytes' hheader'.2.1

/-- Every buffer has a storage of its own, which is as large as its header says. -/
structure Housed (h : Heap) : Prop where
  /-- The storage of a buffer is a fixed buffer of its capacity, and no more of it is in use. -/
  stored : ∀ {x header}, h.lookup? x = some (.buffer header) →
    header.size ≤ header.capacity ∧
      ∃ region, h.lookup? header.storage = some (.fixedBuffer region) ∧ region.size = header.capacity
  /-- No two buffers have the same storage. -/
  unshared : ∀ {x header y header'}, h.lookup? x = some (.buffer header) →
    h.lookup? y = some (.buffer header') → header.storage = header'.storage → x = y

/-- Every buffer shows a vector. -/
theorem Housed.exists_shows (hh : h.Housed) (hbuf : h.lookup? x = some (.buffer header)) :
    ∃ v, h.Shows x v := by
  obtain ⟨hfits, region, hregion, hsize⟩ := hh.stored hbuf
  have hlength : (region.extract 0 header.size).data.toList.length = header.size := by
    have : region.data.size = header.capacity := hsize
    simp only [toList_extract, List.length_take, Array.length_toList]
    omega
  exact ⟨⟨_, header.capacity, hlength.trans_le hfits⟩,
    shows_of_lookup? hbuf hregion rfl hlength.symm rfl⟩

/-! ### Buffers that are left alone -/

/-- If there is a buffer, it is there as it was. -/
def Leaves (x : Handle) (h t : Heap) : Prop :=
  ∀ header, h.lookup? x = some (.buffer header) → t.lookup? x = some (.buffer header) ∧
    ∀ region, h.lookup? header.storage = some (.fixedBuffer region) →
      t.lookup? header.storage = some (.fixedBuffer region)

/-- What is there as it was includes the buffers. -/
theorem leaves_of_kept (hkept : ∀ {x object}, h.lookup? x = some object → t.lookup? x = some object)
    (x : Handle) : Leaves x h t :=
  fun _ hbuf => ⟨hkept hbuf, fun _ hregion => hkept hregion⟩

/-- A buffer that is left alone shows what it did. -/
theorem Shows.of_leaves (hshows : h.Shows x v) (hleaves : Leaves x h t) : t.Shows x v := by
  obtain ⟨header, region, hbuf, hregion⟩ := hshows.exists_lookup?
  obtain ⟨hbytes, hsize, hcapacity⟩ := hshows.eq_of_lookup? hbuf hregion
  obtain ⟨hbuf', hregion'⟩ := hleaves header hbuf
  exact shows_of_lookup? hbuf' (hregion' region hregion) hbytes.symm hsize.symm hcapacity.symm

/-- Buffers that are left alone are as well housed as they were. -/
theorem Housed.of_leaves (hh : h.Housed)
    (hbuffers : ∀ x header, t.lookup? x = some (.buffer header) →
      h.lookup? x = some (.buffer header) ∧ Leaves x h t) : t.Housed where
  stored hbuf := by
    obtain ⟨hbefore, hleaves⟩ := hbuffers _ _ hbuf
    obtain ⟨hfits, region, hregion, hsize⟩ := hh.stored hbefore
    exact ⟨hfits, region, (hleaves _ hbefore).2 region hregion, hsize⟩
  unshared hbuf hbuf' := hh.unshared (hbuffers _ _ hbuf).1 (hbuffers _ _ hbuf').1

/-- So they are if there is one more buffer, or another one in the place of one of them, with a
storage that is none of theirs. -/
theorem Housed.of_others (hh : h.Housed) (hbuf : t.lookup? x = some (.buffer header))
    (hregion : t.lookup? header.storage = some (.fixedBuffer region))
    (hsize : region.size = header.capacity) (hfits : header.size ≤ header.capacity)
    (hapart : ∀ y k, y ≠ x → h.lookup? y = some (.buffer k) → k.storage ≠ header.storage)
    (hothers : ∀ y k, y ≠ x → t.lookup? y = some (.buffer k) →
      h.lookup? y = some (.buffer k) ∧ Leaves y h t) : t.Housed where
  stored {y k} hlook := by
    by_cases hy : y = x
    · subst hy
      obtain rfl := HeapObject.buffer.inj (Option.some.inj (hbuf.symm.trans hlook))
      exact ⟨hfits, region, hregion, hsize⟩
    · obtain ⟨hbefore, hleaves⟩ := hothers y k hy hlook
      obtain ⟨hfits', region', hregion', hsize'⟩ := hh.stored hbefore
      exact ⟨hfits', region', (hleaves _ hbefore).2 region' hregion', hsize'⟩
  unshared {y k z l} hy hz heq := by
    -- Two of the others are told apart as before, and none of them has the storage of this one.
    by_cases hyx : y = x <;> by_cases hzx : z = x
    · rw [hyx, hzx]
    · subst hyx
      obtain rfl := HeapObject.buffer.inj (Option.some.inj (hbuf.symm.trans hy))
      exact absurd heq.symm (hapart z l hzx (hothers z l hzx hz).1)
    · subst hzx
      obtain rfl := HeapObject.buffer.inj (Option.some.inj (hbuf.symm.trans hz))
      exact absurd heq (hapart y k hyx (hothers y k hyx hy).1)
    · exact hh.unshared (hothers y k hyx hy).1 (hothers z l hzx hz).1 heq

/-- A handle belongs to no part of a buffer: neither its header nor its storage. -/
def Outside (h : Heap) (x y : Handle) : Prop :=
  y ≠ x ∧ ∀ header, h.lookup? x = some (.buffer header) → y ≠ header.storage

/-- All that is no part of a buffer has stayed as it was, and is no part of the buffer now. -/
def Spares (x : Handle) (h t : Heap) : Prop :=
  ∀ y object, h.Outside x y → h.lookup? y = some object → t.Outside x y ∧ t.lookup? y = some object

theorem Spares.refl (x : Handle) (h : Heap) : Spares x h h :=
  fun _ _ houtside hlook => ⟨houtside, hlook⟩

theorem Spares.trans (hht : Spares x h t) (htu : Spares x t u) : Spares x h u := by
  intro y object houtside hlook
  obtain ⟨houtside', hlook'⟩ := hht y object houtside hlook
  exact htu y object houtside' hlook'

/-- A buffer other than the one that something was done to is left alone. -/
theorem Spares.leaves (hspares : Spares x h t) (hh : h.Housed)
    (hbuf : h.lookup? x = some (.buffer header)) (hne : y ≠ x) : Leaves y h t := by
  intro header' hother
  obtain ⟨-, region', hstored, -⟩ := hh.stored hbuf
  have hheader : h.Outside x y := by
    refine ⟨hne, fun header'' hbuf' => ?_⟩
    obtain rfl := HeapObject.buffer.inj (Option.some.inj (hbuf.symm.trans hbuf'))
    exact (storage_ne hother hstored).symm
  refine ⟨(hspares y _ hheader hother).2, fun region hregion => ?_⟩
  have hstorage : h.Outside x header'.storage :=
    ⟨storage_ne hbuf hregion, fun header'' hbuf' heq => hne (hh.unshared hother hbuf' heq)⟩
  exact (hspares _ _ hstorage hregion).2

/-! ### New headers and storages -/

/-- A buffer has got this header and this storage. What was its storage is gone, unless it is the
same one. -/
structure Rehouses (x : Handle) (header header' : BufferHeader) (region' : ByteArray)
    (h t : Heap) : Prop where
  /-- What can be looked up afterwards. -/
  lookup? : ∀ y, t.lookup? y =
    if y = x then some (.buffer header')
    else if y = header'.storage then some (.fixedBuffer region')
    else if y = header.storage then none else h.lookup? y
  /-- The storage is the same one, or a new one. -/
  storage : header'.storage = header.storage ∨ h.lookup? header'.storage = none

theorem Rewrites.rehouses (hht : Rewrites x header' region' h t)
    (hstorage : header'.storage = header.storage) : Rehouses x header header' region' h t where
  lookup? y := by
    rw [hht.lookup?, ← hstorage]
    split_ifs <;> rfl
  storage := .inl hstorage

/-- Moving a buffer gives it a new storage, and the old one is gone. -/
theorem rehouses_moveStorage (hh : h.Housed) (hfree : h.FreeList)
    (hbuf : h.lookup? x = some (.buffer header)) {bytes : ByteArray} {capacity : Nat}
    (hsize : bytes.size = capacity) {change : HeapObject → HeapObject}
    (hchange : change (.buffer header) =
      .buffer { header with storage := h.nextHandle, capacity }) :
    Rehouses x header { header with storage := h.nextHandle, capacity } bytes h
      (((h.store (.fixedBuffer bytes)).2.update x change).release header.storage) where
  lookup? y := by
    obtain ⟨-, region, hregion, -⟩ := hh.stored hbuf
    have hfresh := lookup?_nextHandle hfree
    have hx : header.storage ≠ x := storage_ne hbuf hregion
    have hnext : header.storage ≠ h.nextHandle := fun heq => by simp [← heq, hregion] at hfresh
    subst hsize
    rw [lookup?_moveStorage hfree hbuf bytes hchange]
    by_cases hy : y = header.storage
    · subst hy
      rw [if_pos rfl, if_neg hx, if_neg hnext, if_pos rfl]
    · simp only [if_neg hy]
  storage := .inr (lookup?_nextHandle hfree)

/-- The buffer of a handle has turned from one vector into another one, and nothing else has
changed. -/
structure Turns (x : Handle) (v w : ByteVector) (h t : Heap) : Prop where
  /-- Every buffer has a storage. -/
  housed : t.Housed
  /-- Nothing else has changed. -/
  spares : Spares x h t
  /-- What it was. -/
  before : h.Shows x v
  /-- What it is. -/
  after : t.Shows x w

theorem Turns.trans {v' : ByteVector} (hht : Turns x v w h t) (htu : Turns x w v' t u) :
    Turns x v v' h u :=
  ⟨htu.housed, hht.spares.trans htu.spares, hht.before, htu.after⟩

section Rehoused

variable (hht : Rehouses x header header' region' h t) (hbuf : h.lookup? x = some (.buffer header))

include hht hbuf

theorem Rehouses.spares : Spares x h t := by
  rintro y object ⟨hne, hold⟩ hlook
  have hnew : y ≠ header'.storage := by
    rcases hht.storage with hsame | hfresh
    · exact hsame ▸ hold header hbuf
    · rintro rfl
      simp [hlook] at hfresh
  refine ⟨⟨hne, fun header'' hbuf' => ?_⟩, ?_⟩
  · rw [hht.lookup?, if_pos rfl] at hbuf'
    obtain rfl := HeapObject.buffer.inj (Option.some.inj hbuf')
    exact hnew
  · rw [hht.lookup?, if_neg hne, if_neg hnew, if_neg (hold header hbuf), hlook]

variable (hh : h.Housed)

include hh

/-- The storage is found under its handle. -/
theorem Rehouses.lookup?_storage : t.lookup? header'.storage = some (.fixedBuffer region') := by
  have hne : header'.storage ≠ x := by
    rcases hht.storage with hsame | hfresh
    · obtain ⟨-, region, hregion, -⟩ := hh.stored hbuf
      exact hsame ▸ Heap.storage_ne hbuf hregion
    · rintro rfl
      simp [hbuf] at hfresh
  rw [hht.lookup?, if_neg hne, if_pos rfl]

theorem Rehouses.housed (hfits : header'.size ≤ header'.capacity)
    (hsize : region'.size = header'.capacity) : t.Housed := by
  have hbuf' : t.lookup? x = some (.buffer header') := by rw [hht.lookup?, if_pos rfl]
  refine hh.of_others hbuf' (hht.lookup?_storage hbuf hh) hsize hfits ?_ ?_
  · intro y k hne hother heq
    obtain ⟨-, region, hregion, -⟩ := hh.stored hother
    rcases hht.storage with hsame | hfresh
    · exact hne (hh.unshared hother hbuf (heq.trans hsame))
    · simp [← heq, hregion] at hfresh
  · intro y k hne hlook
    refine ⟨?_, (hht.spares hbuf).leaves hh hbuf hne⟩
    rw [hht.lookup?, if_neg hne] at hlook
    split_ifs at hlook
    · cases hlook
    · exact hlook

/-- A buffer with a new header and a new storage shows what they hold. -/
theorem Rehouses.turns (hregion : h.lookup? header.storage = some (.fixedBuffer region))
    (hfits : header'.size ≤ header'.capacity) (hsize : region'.size = header'.capacity) :
    ∃ v w, Turns x v w h t ∧
      (v.bytes = (region.extract 0 header.size).data.toList ∧ v.bytes.length = header.size ∧
        v.capacity = header.capacity) ∧
      w.bytes = (region'.extract 0 header'.size).data.toList ∧ w.capacity = header'.capacity := by
  have ht := hht.housed hbuf hh hfits hsize
  have hbuf' : t.lookup? x = some (.buffer header') := by rw [hht.lookup?, if_pos rfl]
  obtain ⟨v, hv⟩ := hh.exists_shows hbuf
  obtain ⟨w, hw⟩ := ht.exists_shows hbuf'
  exact ⟨v, w, ⟨ht, hht.spares hbuf, hv, hw⟩, hv.eq_of_lookup? hbuf hregion,
    (hw.eq_of_lookup? hbuf' (hht.lookup?_storage hbuf hh)).imp_right And.right⟩

end Rehoused

/-! ### Operations on a buffer -/

/-- Run on a heap, the action does to a buffer what `f` does to vectors, and to nothing else. It can
fail if there is no buffer or too little room, and then leaves the heap as it was. -/
def Performs (h : Heap) (act : Action Unit) (r : HeapRef) (f : ByteVector → ByteVector)
    (bytes : ByteVector → Nat) : Prop :=
  Ensures act h (fun _ t => ∃ v, Turns r.handle v (f v) h t)
    (fun _ t => t = h ∧ ∀ v, r.kind = .buffer → h.Shows r.handle v → h.available < bytes v)

/-- If an action begins by looking for a header, only what it does with it has to be considered. -/
theorem performs_of_header {f : BufferHeader → Action Unit} {change : ByteVector → ByteVector}
    {bytes : ByteVector → Nat}
    (hf : ∀ header, h.header r = .ok header → Performs h (f header) r change bytes) :
    Performs h (observe (·.header r) >>= f) r change bytes := by
  rw [Performs, ensures_bind, ensures_observe]
  refine ⟨hf, fun fault hfault => ⟨rfl, fun v hkind hshows => ?_⟩⟩
  obtain ⟨storage, hheader, -⟩ := hshows
  have hr : r = ⟨.buffer, r.handle⟩ := by rw [← hkind]
  rw [← hr, hfault] at hheader
  cases hheader

/-- Moving a buffer to a storage that is large enough keeps its bytes. -/
theorem turns_moveStorage (hfree : h.FreeList) (hh : h.Housed)
    (hbuf : h.lookup? x = some (.buffer header))
    (hregion : h.lookup? header.storage = some (.fixedBuffer region)) {capacity : Nat}
    (hcapacity : header.size ≤ capacity) {change : HeapObject → HeapObject}
    (hchange : change (.buffer header) =
      .buffer { header with storage := h.nextHandle, capacity }) :
    ∃ v w, Turns x v w h
        (((h.store (.fixedBuffer (movedBytes region header.size capacity))).2.update x
          change).release header.storage) ∧
      v.capacity = header.capacity ∧ w.bytes = v.bytes ∧ v.bytes.length = header.size ∧
        w.capacity = capacity := by
  obtain ⟨hfits, region', hregion', hsize⟩ := hh.stored hbuf
  obtain rfl := HeapObject.fixedBuffer.inj (Option.some.inj (hregion.symm.trans hregion'))
  have hmoved := size_movedBytes region header.size capacity
  obtain ⟨v, w, hturns, ⟨hbytes, hlength, hv⟩, hbytes', hw⟩ :=
    (rehouses_moveStorage hh hfree hbuf hmoved hchange).turns hbuf hh hregion hcapacity hmoved
  refine ⟨v, w, hturns, hv, ?_, hlength, hw⟩
  rw [hbytes, hbytes', extract_movedBytes (hsize ▸ hfits) hcapacity]

/-- It can fail if there is too little room, and then leaves the heap as it was. -/
theorem setCapacity_spec (hfree : h.FreeList) (hh : h.Housed) (hheader : h.header r = .ok header)
    {capacity : Nat} (hcapacity : header.size ≤ capacity) :
    Ensures (setCapacity r capacity) h
      (fun _ t => capacity ≤ h.available ∧ ∃ v w, Turns r.handle v w h t ∧
        v.capacity = header.capacity ∧ w.bytes = v.bytes ∧ v.bytes.length = header.size ∧
          w.capacity = capacity)
      (fun fault t => t = h ∧ h.available < capacity ∧
        fault = .outOfMemory capacity h.available) := by
  obtain ⟨hbuf, hkind⟩ := header_eq_ok_iff.1 hheader
  obtain ⟨-, region, hregion, -⟩ := hh.stored hbuf
  rw [setCapacity, ensures_observe_bind hheader, ensures_bind, ensures_reserve]
  refine ⟨fun hroom => ?_, fun hshort => ⟨rfl, hshort, rfl⟩⟩
  rw [ensures_observe_bind (region_eq_ok_iff.2 hregion), ensures_bind, ensures_insert, ensures_bind]
  have hthere : (h.store (.fixedBuffer (movedBytes region header.size capacity))).2.header r =
      .ok header := header_eq_ok_iff.2 ⟨lookup?_store_of_lookup? hfree hbuf, hkind⟩
  rw [ensures_changeHeader hthere, ensures_modify]
  exact ⟨hroom, turns_moveStorage hfree hh hbuf hregion hcapacity rfl⟩

/-- What is shown is of the size and the capacity that the header says. -/
theorem Shows.eq_of_header (hshows : h.Shows r.handle v) (hh : h.Housed)
    (hheader : h.header r = .ok header) :
    v.bytes.length = header.size ∧ v.capacity = header.capacity := by
  obtain ⟨hbuf, -⟩ := header_eq_ok_iff.1 hheader
  obtain ⟨-, region, hregion, -⟩ := hh.stored hbuf
  exact (hshows.eq_of_lookup? hbuf hregion).2

/-- The capacity of a buffer can be raised. -/
theorem performs_reserveBuffer (hfree : h.FreeList) (hh : h.Housed) (r : HeapRef)
    (capacity : Nat) :
    Performs h (reserveBuffer r capacity) r (·.reserve capacity)
      fun v => if v.capacity < capacity then capacity else 0 := by
  refine performs_of_header fun header hheader => ?_
  obtain ⟨hbuf, -⟩ := header_eq_ok_iff.1 hheader
  have hfits := (hh.stored hbuf).1
  split
  next hlt =>
    refine (setCapacity_spec hfree hh hheader (hfits.trans hlt.le)).mono ?_ ?_
    · rintro _ t ⟨-, v, w, hturns, hv, hbytes, -, hw⟩
      obtain rfl : w = v.reserve capacity :=
        ByteVector.ext hbytes (hw.trans (Nat.max_eq_right (hv.trans_le hlt.le)).symm)
      exact ⟨v, hturns⟩
    · rintro _ t ⟨rfl, hshort, -⟩
      refine ⟨rfl, fun v _ hshows => ?_⟩
      dsimp only
      rwa [(hshows.eq_of_header hh hheader).2, if_pos hlt]
  next hle =>
    -- There is capacity enough, so the vector stays what it is.
    obtain ⟨v, hv⟩ := hh.exists_shows hbuf
    have hcapacity := (hv.eq_of_header hh hheader).2
    have hreserved : v.reserve capacity = v := ByteVector.ext rfl (Nat.max_eq_left (by omega))
    exact ⟨v, hh, .refl _ _, hv, hreserved.symm.subst hv⟩

/-- Its capacity can be cut down. -/
theorem performs_shrinkBuffer (hfree : h.FreeList) (hh : h.Housed) (r : HeapRef) :
    Performs h (shrinkBuffer r) r ByteVector.shrink fun v => v.bytes.length := by
  refine performs_of_header fun header hheader => ?_
  refine (setCapacity_spec hfree hh hheader (Nat.le_refl _)).mono ?_ ?_
  · rintro _ t ⟨-, v, w, hturns, -, hbytes, hlength, hw⟩
    obtain rfl : w = v.shrink := ByteVector.ext hbytes (hw.trans hlength.symm)
    exact ⟨v, hturns⟩
  · rintro _ t ⟨rfl, hshort, -⟩
    exact ⟨rfl, fun v _ hshows => hshort.trans_eq (hshows.eq_of_header hh hheader).1.symm⟩

/-- Bytes in use can be overwritten. -/
theorem performs_writeBuffer (hh : h.Housed) (r : HeapRef) (position : Nat)
    (source : ByteArray) :
    Performs h (writeBuffer r position source) r (·.write position source.data.toList)
      fun _ => 0 := by
  refine performs_of_header fun header hheader => ?_
  obtain ⟨hbuf, -⟩ := header_eq_ok_iff.1 hheader
  obtain ⟨hfits, region, hregion, hsize⟩ := hh.stored hbuf
  have hwrites : Ensures _ h _ fun _ _ => False := ensures_writeBuffer hheader hregion position source
  rw [writeBuffer, ensures_observe_bind hheader] at hwrites
  refine hwrites.mono (fun _ t hrewrites => ?_) fun _ _ => False.elim
  obtain ⟨v, w, hturns, ⟨hbytes, -, hv⟩, hbytes', hw⟩ := (hrewrites.rehouses rfl).turns hbuf hh
    hregion hfits ((size_overwriteBytes region position source).trans hsize)
  obtain rfl : w = v.write position source.data.toList := by
    refine ByteVector.ext ?_ (hw.trans hv.symm)
    rw [hbytes', toList_extract_overwriteBytes, ← hbytes]
    rfl
  exact ⟨v, hturns⟩

/-- Within its capacity the size of a buffer can be set. -/
theorem setSize_turns {fail : Fault → Heap → Prop} (hh : h.Housed)
    (hheader : h.header r = .ok header) {size : Nat} (hsize : size ≤ header.capacity) :
    Ensures (do
      let header ← observe (·.header r)
      changeHeader r fun header => { header with size }
      if header.size < size then
        changeRegion header.storage (zeroFill · header.size size)) h
      (fun _ t => ∃ v w, Turns r.handle v w h t ∧ v.capacity = header.capacity ∧
        w.bytes = v.bytes.take size ++ List.replicate (size - v.bytes.length) 0 ∧
          w.capacity = v.capacity)
      fail := by
  obtain ⟨hbuf, -⟩ := header_eq_ok_iff.1 hheader
  obtain ⟨hfits, region, hregion, hcapacity⟩ := hh.stored hbuf
  refine (ensures_setSize hheader hregion size).mono (fun _ t hrewrites => ?_) fun _ _ => id
  have hrehouses : Rehouses r.handle header _ _ h t := hrewrites.rehouses rfl
  obtain ⟨v, w, hturns, ⟨hbytes, hlength, hv⟩, hbytes', hw⟩ :=
    hrehouses.turns hbuf hh hregion hsize ((size_sizedBytes _ _ _).trans hcapacity)
  refine ⟨v, w, hturns, hv, ?_, hw.trans hv.symm⟩
  rw [hbytes', toList_extract_sizedBytes (by omega) (by omega), hlength, hbytes]

/-- An object takes room, so there is less than all of it left. -/
theorem available_lt (hb : h.Balanced) (hlimit : h.config.heapLimit ≤ Capacity.maxWord)
    (hlook : h.lookup? x = some object) (hcharge : 0 < object.charge) :
    h.available < Capacity.maxWord := by
  have hused := hb.charge_le hlook
  have : 0 < Capacity.maxWord := by decide
  rw [available]
  omega

/-- Doubling leads to the capacity for a size, or sticks below it. -/
theorem grownBufferCapacity_eq_min {size : Nat} (hsize : size ≤ Capacity.maxWord)
    (hlt : v.capacity < size) :
    grownBufferCapacity v.capacity size = min (v.capacityFor size) Capacity.maxWord := by
  obtain ⟨product, hleast, hgrown⟩ := (doubles_grownBufferCapacity (hlt.le.trans hsize) hsize).least
  rw [hgrown, hleast.unique (ByteVector.isLeast_capacityFor hlt)]
  split <;> omega

/-- Doubling leads to the least capacity that is large enough, unless it leads beyond all of
them. -/
theorem grownBufferCapacity_eq {size : Nat} (hsize : size ≤ Capacity.maxWord)
    (hlt : v.capacity < size) (hgrown : grownBufferCapacity v.capacity size < Capacity.maxWord) :
    grownBufferCapacity v.capacity size = v.capacityFor size := by
  have hmin := grownBufferCapacity_eq_min hsize hlt
  omega

/-- In any case it does not lead beyond that. -/
theorem grownBufferCapacity_le {size : Nat} (hsize : size ≤ Capacity.maxWord)
    (hlt : v.capacity < size) : grownBufferCapacity v.capacity size ≤ v.capacityFor size :=
  (grownBufferCapacity_eq_min hsize hlt).trans_le (Nat.min_le_left _ _)

/-- The size of a buffer can be set. -/
theorem performs_resizeBuffer (hb : h.Balanced) (hh : h.Housed)
    (hlimit : h.config.heapLimit ≤ Capacity.maxWord) (r : HeapRef) {size : Nat}
    (hsize : size ≤ Capacity.maxWord) :
    Performs h (resizeBuffer r size) r (·.resize size)
      fun v => if v.capacity < size then v.capacityFor size else 0 := by
  refine performs_of_header fun header hheader => ?_
  obtain ⟨hbuf, hkind⟩ := header_eq_ok_iff.1 hheader
  have hfits := (hh.stored hbuf).1
  dsimp only
  split
  next hlt =>
    have hgrown : size ≤ grownBufferCapacity header.capacity size :=
      Capacity.le_grow (Nat.lt_of_lt_of_le (by decide) (Nat.le_max_right _ _)) hsize
    rw [Performs, ensures_bind]
    refine (setCapacity_spec hb.freeList hh hheader (by omega)).mono ?_ ?_
    · rintro _ t ⟨hroom, v, w, hturns, hv, hbytes, -, hw⟩
      -- The header is read again where it is now.
      obtain ⟨storage, hheader', -⟩ := hturns.after
      have hr : r = ⟨.buffer, r.handle⟩ := by rw [← hkind]
      rw [← hr] at hheader'
      refine (setSize_turns hturns.housed hheader' (hw ▸ hgrown)).mono ?_ fun _ _ => False.elim
      rintro _ u ⟨w', v', hturns', -, hbytes', hv'⟩
      obtain rfl := hturns'.before.eq hturns.after
      have hroom' := hroom.trans_lt (available_lt hb hlimit hbuf (Nat.succ_pos 23))
      rw [← hv] at hlt hw hroom'
      obtain rfl : v' = v.resize size :=
        ByteVector.ext (hbytes'.trans (by rw [hbytes]; rfl))
          (hv'.trans (hw.trans (grownBufferCapacity_eq hsize hlt hroom')))
      exact ⟨v, hturns.trans hturns'⟩
    · rintro _ t ⟨rfl, hshort, -⟩
      refine ⟨rfl, fun v _ hshows => ?_⟩
      rw [← (hshows.eq_of_header hh hheader).2] at hlt hshort
      rw [if_pos hlt]
      exact hshort.trans_le (grownBufferCapacity_le hsize hlt)
  next hle =>
    refine (setSize_turns hh hheader (Nat.not_lt.1 hle)).mono ?_ fun _ _ => False.elim
    rintro _ t ⟨v, w, hturns, hv, hbytes, hw⟩
    have hcapacity : v.capacityFor size = v.capacity := if_pos (by omega)
    obtain rfl : w = v.resize size := ByteVector.ext hbytes (hw.trans hcapacity.symm)
    exact ⟨v, hturns⟩

end Heap

end ActorMachine
