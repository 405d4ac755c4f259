import ActorMachine.Proofs.Heap.Vectors

/-!
# Heaps whose buffers are tended

Histories of a heap in which nobody meddles with the storages of buffers. Through all that happens
to a heap in such a history, each buffer goes on being the vector that it was made as.

* `Operation.Tame`: the operation releases no storage and writes to none.
* `Operation.Keeps`, `Operation.effect`: what an operation leaves of a buffer.
* `run_spec`: one step, which is done as it is said or fails and changes nothing.
* `buffers_are_vectors`: all steps of all histories.
-/

namespace ActorMachine.Heap

variable {h t u : Heap} {x y : Handle} {object : HeapObject} {r : HeapRef} {header : BufferHeader}
  {v w : ByteVector} {config : HeapConfig} {op : Operation}

/-! ### Operations and buffers -/

/-- The storages of the buffers of a heap. -/
def storages (h : Heap) : List Handle :=
  h.objects.filterMap fun
    | (_, .buffer header) => some header.storage
    | _ => none

theorem mem_storages : y ∈ h.storages ↔ ∃ x header, h.lookup? x = some (.buffer header) ∧
    header.storage = y := by
  rw [storages, List.mem_filterMap]
  constructor
  · rintro ⟨⟨x, object⟩, hmem, hstorage⟩
    cases object <;> cases hstorage
    exact ⟨x, _, mem_objects.1 hmem, rfl⟩
  · rintro ⟨x, header, hbuf, rfl⟩
    exact ⟨_, mem_objects.2 hbuf, rfl⟩

namespace Operation

/-- An operation meddles with no storage, and asks for no size that no machine has. -/
def Tame (h : Heap) : Operation → Prop
  | release y => y ∉ h.storages
  | writeFixed r _ _ => r.handle ∉ h.storages
  | resizeBuffer _ size => size ≤ Capacity.maxWord
  | _ => True

/-- An operation does not make an object go. -/
def Keeps (h : Heap) (x : Handle) : Operation → Prop
  | release y => y ≠ x
  | collect roots => h.Reaches roots x
  | clear => False
  | _ => True

/-- The buffer that an operation is about. -/
def buffer? : Operation → Option HeapRef
  | writeBuffer r _ _ | reserveBuffer r _ | resizeBuffer r _ | shrinkBuffer r => some r
  | _ => none

/-- What an operation does to the vectors that its buffer shows. -/
def change : Operation → ByteVector → ByteVector
  | writeBuffer _ position source, v => v.write position source.data.toList
  | reserveBuffer _ capacity, v => v.reserve capacity
  | resizeBuffer _ size, v => v.resize size
  | shrinkBuffer _, v => v.shrink
  | _, v => v

/-- Bytes of the new storage that an operation needs for a buffer. -/
def needs : Operation → ByteVector → Nat
  | reserveBuffer _ capacity, v => if v.capacity < capacity then capacity else 0
  | resizeBuffer _ size, v => if v.capacity < size then v.capacityFor size else 0
  | shrinkBuffer _, v => v.bytes.length
  | _, _ => 0

/-- What an operation does to the vector that a handle shows. -/
def effect (x : Handle) (op : Operation) (v : ByteVector) : ByteVector :=
  if op.buffer?.map HeapRef.handle = some x then op.change v else v

end Operation

/-! ### Single steps -/

/-- An operation that succeeds has done to the buffers what it is meant to do. -/
structure Operation.Done (op : Operation) (h t : Heap) : Prop where
  /-- Every buffer has a storage. -/
  housed : t.Housed
  /-- A buffer that is kept shows the vector that the operation makes of the one before. -/
  shows : ∀ {x v}, op.Keeps h x → h.Shows x v → t.Shows x (op.effect x v)
  /-- Apart from the buffer it is about nothing has changed. -/
  spares : ∀ {r}, op.buffer? = some r → Spares r.handle h t

/-- An operation that fails has changed nothing. If it is one on a buffer, there was no buffer or
too little room. -/
structure Operation.Refused (op : Operation) (h t : Heap) : Prop where
  /-- Nothing has changed. -/
  unchanged : t = h
  /-- There was too little room. -/
  short : ∀ {r v}, op.buffer? = some r → r.kind = .buffer → h.Shows r.handle v →
    h.available < op.needs v

theorem Operation.Refused.of_none (hbuffer : op.buffer? = none) : op.Refused h h :=
  ⟨rfl, fun hr => by simp [hbuffer] at hr⟩

/-- Operations that are about no buffer leave all of them alone that they keep. -/
theorem Operation.Done.of_leaves (hbuffer : op.buffer? = none) (hh : h.Housed)
    (hbuffers : ∀ x header, t.lookup? x = some (.buffer header) →
      h.lookup? x = some (.buffer header) ∧ Leaves x h t)
    (hkeeps : ∀ x, op.Keeps h x → Leaves x h t) : op.Done h t where
  housed := hh.of_leaves hbuffers
  shows hkept hshows := by
    rw [effect, hbuffer]
    exact hshows.of_leaves (hkeeps _ hkept)
  spares hr := by simp [hbuffer] at hr

/-- An object other than a buffer is added. -/
theorem done_store (hfree : h.FreeList) (hh : h.Housed) (hbuffer : op.buffer? = none)
    (object : HeapObject) (hkind : object.kind ≠ .buffer) : op.Done h (h.store object).2 := by
  refine .of_leaves hbuffer hh (fun x header hbuf => ?_)
    fun x _ => leaves_of_kept (lookup?_store_of_lookup? hfree) x
  refine ⟨?_, leaves_of_kept (lookup?_store_of_lookup? hfree) x⟩
  rw [lookup?_store hfree] at hbuf
  split at hbuf
  next => exact absurd (congrArg HeapObject.kind (Option.some.inj hbuf)) hkind
  next => exact hbuf

theorem run_alloc (hfree : h.FreeList) (hh : h.Housed) (hbuffer : op.buffer? = none)
    (object : HeapObject) (hkind : object.kind ≠ .buffer) (bytes : Nat) :
    Ensures (do reserve bytes; insert object) h (fun _ t => op.Done h t)
      (fun _ t => op.Refused h t) := by
  rw [ensures_bind, ensures_reserve]
  refine ⟨fun _ => ?_, fun _ => .of_none hbuffer⟩
  rw [ensures_insert]
  exact done_store hfree hh hbuffer object hkind

/-- A buffer is added. It shows the vector without bytes. -/
theorem run_allocBuffer (hfree : h.FreeList) (hh : h.Housed) (hbuffer : op.buffer? = none)
    (capacity : Nat) :
    Ensures (allocBuffer capacity) h
      (fun r t => op.Done h t ∧ t.Shows r.handle (.empty capacity))
      (fun _ t => op.Refused h t) := by
  rw [allocBuffer, ensures_bind, ensures_reserve]
  refine ⟨fun _ => ?_, fun _ => .of_none hbuffer⟩
  rw [ensures_bind, ensures_insert, ensures_insert]
  obtain ⟨hne, hfresh⟩ := fresh_storeBuffer hfree (zeroBytes capacity)
  have hadds := (adds_store hfree (.fixedBuffer (zeroBytes capacity))).trans (adds_store
    (freeList_store hfree) (.buffer { size := 0, capacity, storage := h.nextHandle }))
  have hleaves := leaves_of_kept hadds.kept
  have hlook := lookup?_storeBuffer hfree (zeroBytes capacity)
    { size := 0, capacity, storage := h.nextHandle }
  have hbuf := (hlook _).trans (if_pos rfl)
  have hregion := (hlook h.nextHandle).trans ((if_neg hne.symm).trans (if_pos rfl))
  refine ⟨⟨?_, fun _ hshows => ?_, by simp [hbuffer]⟩, ?_⟩
  · refine hh.of_others hbuf hregion (size_zeroBytes capacity) (Nat.zero_le _) ?_ ?_
    · -- The storage lies where nothing was, so it is not that of any other buffer.
      intro y k _ hother heq
      obtain ⟨-, region, hstored, -⟩ := hh.stored hother
      simp [heq, lookup?_nextHandle hfree] at hstored
    · intro y k hy hother
      refine ⟨?_, hleaves y⟩
      rw [hlook, if_neg hy] at hother
      split_ifs at hother
      · cases hother
      · exact hother
  · rw [Operation.effect, hbuffer]
    exact hshows.of_leaves (hleaves _)
  · exact shows_of_lookup? hbuf hregion (by simp [ByteVector.empty]) rfl rfl

/-- Bytes are written to a fixed buffer that is no storage. -/
theorem run_writeFixed (hh : h.Housed) (hbuffer : op.buffer? = none)
    (hstorage : r.handle ∉ h.storages) (position : Nat) (source : ByteArray) :
    Ensures (writeFixed r position source) h (fun _ t => op.Done h t)
      (fun _ t => op.Refused h t) := by
  rw [writeFixed, ensures_bind, ensures_ofExcept]
  refine ⟨fun _ _ => ?_, fun _ _ => .of_none hbuffer⟩
  rw [changeRegion, ensures_bind, ensures_discard, ensures_observe]
  refine ⟨fun region hregion => ?_, fun _ _ => .of_none hbuffer⟩
  rw [ensures_modify]
  have hfixed := region_eq_ok_iff.1 hregion
  -- Neither a header nor a storage is where the bytes are.
  have hleaves : ∀ x, Leaves x h
      (h.update r.handle (.mapBytes (overwriteBytes · position source))) := by
    intro x header hbuf
    refine ⟨?_, fun region' hregion' => ?_⟩
    · rwa [lookup?_update_of_lookup? _ hfixed, if_neg (storage_ne hbuf hfixed).symm]
    · rw [lookup?_update_of_lookup? _ hfixed, if_neg, hregion']
      exact fun heq => hstorage (mem_storages.2 ⟨x, header, hbuf, heq⟩)
  refine .of_leaves hbuffer hh (fun x header hbuf => ⟨?_, hleaves x⟩) fun x _ => hleaves x
  rw [lookup?_update_of_lookup? _ hfixed] at hbuf
  split at hbuf
  next => cases hbuf
  next => exact hbuf

/-- An object goes that is no storage. -/
theorem done_release (hh : h.Housed) (hstorage : y ∉ h.storages) :
    (Operation.release y).Done h (h.release y) := by
  have hleaves : ∀ x, x ≠ y → Leaves x h (h.release y) := by
    intro x hne header hbuf
    refine ⟨by rwa [lookup?_release, if_neg hne], fun region hregion => ?_⟩
    rw [lookup?_release, if_neg, hregion]
    exact fun heq => hstorage (mem_storages.2 ⟨x, header, hbuf, heq⟩)
  refine .of_leaves rfl hh (fun x header hbuf => ?_) fun x hne => hleaves x (Ne.symm hne)
  rw [lookup?_release] at hbuf
  split at hbuf
  next => cases hbuf
  next hne => exact ⟨hbuf, hleaves x hne⟩

/-- What is reached stays, along with the storages of buffers. -/
theorem done_collect (hh : h.Housed) (roots : List Value) :
    (Operation.collect roots).Done h (h.collect roots).2 := by
  have hleaves : ∀ x, h.Reaches roots x → Leaves x h (h.collect roots).2 := by
    intro x hreached header hbuf
    refine ⟨lookup?_collect_eq_some_iff.2 ⟨hbuf, hreached⟩, fun region hregion => ?_⟩
    -- A header that is reached holds the handle of its storage.
    exact lookup?_collect_eq_some_iff.2
      ⟨hregion, .reference hreached hbuf (List.mem_singleton_self header.storage)⟩
  refine .of_leaves rfl hh (fun x header hbuf => ?_) hleaves
  obtain ⟨hbefore, hreached⟩ := lookup?_collect_eq_some_iff.1 hbuf
  exact ⟨hbefore, hleaves x hreached⟩

theorem done_clear (hh : h.Housed) : Operation.clear.Done h h.clear :=
  .of_leaves rfl hh (fun x header hbuf => by simp [clear, Heap.lookup?] at hbuf) nofun

/-- What was done to a buffer shows in it, and in no other one. -/
theorem run_performs {act : Action Unit} (hh : h.Housed) (hbuffer : op.buffer? = some r)
    (hact : Performs h act r op.change op.needs) :
    Ensures act h (fun _ t => op.Done h t) (fun _ t => op.Refused h t) := by
  refine hact.mono ?_ ?_
  · rintro _ t ⟨v, hturns⟩
    refine ⟨hturns.housed, fun {x w} _ hshows => ?_, fun hr => ?_⟩
    · rw [Operation.effect, hbuffer, Option.map_some]
      split
      -- The buffer showed this vector alone, so it is the one that the operation has changed.
      next heq =>
        obtain rfl := Option.some.inj heq
        obtain rfl := hturns.before.eq hshows
        exact hturns.after
      -- The change spares all other objects, and what another buffer shows is told by those.
      next hne =>
        obtain ⟨header, region, hbuf, -⟩ := hturns.before.exists_lookup?
        exact hshows.of_leaves (hturns.spares.leaves hh hbuf fun heq => hne (congrArg some heq.symm))
    · obtain rfl := Option.some.inj (hbuffer.symm.trans hr)
      exact hturns.spares
  · rintro _ t ⟨rfl, hshort⟩
    refine ⟨rfl, fun hr hkind hshows => ?_⟩
    obtain rfl := Option.some.inj (hbuffer.symm.trans hr)
    exact hshort _ hkind hshows

/-- An operation that does not meddle with storages has done to the buffers what it is meant to do,
or it has failed and changed nothing. -/
theorem run_spec (hb : h.Balanced) (hh : h.Housed)
    (hlimit : h.config.heapLimit ≤ Capacity.maxWord) (htame : op.Tame h) :
    Ensures op.run h (fun _ t => op.Done h t) (fun _ t => op.Refused h t) := by
  have hfree := hb.freeList
  cases op with
  | allocate kind size =>
    rw [Operation.run, ensures_map]
    cases kind with
    | fixedBuffer => exact run_alloc hfree hh rfl _ (by simp [HeapObject.kind]) size
    | buffer => exact (run_allocBuffer hfree hh rfl size).mono (fun _ _ => And.left) fun _ _ => id
    | closure => exact Operation.Refused.of_none rfl
    | string => exact run_alloc hfree hh rfl _ (by simp [HeapObject.kind]) size
  | allocString text =>
    rw [Operation.run, ensures_map]
    exact run_alloc hfree hh rfl _ (by simp [HeapObject.kind]) _
  | allocBuffer capacity =>
    rw [Operation.run, ensures_map]
    exact (run_allocBuffer hfree hh rfl capacity).mono (fun _ _ => And.left) fun _ _ => id
  | allocClosure routine upvalues =>
    rw [Operation.run, ensures_map]
    exact run_alloc hfree hh rfl _ (by simp [HeapObject.kind]) _
  | writeFixed r position source =>
    rw [Operation.run, ensures_map]
    exact run_writeFixed hh rfl htame position source
  | writeBuffer r position source =>
    rw [Operation.run, ensures_map]
    exact run_performs hh rfl (performs_writeBuffer hh r position source)
  | reserveBuffer r capacity =>
    rw [Operation.run, ensures_map]
    exact run_performs hh rfl (performs_reserveBuffer hfree hh r capacity)
  | resizeBuffer r size =>
    rw [Operation.run, ensures_map]
    exact run_performs hh rfl (performs_resizeBuffer hb hh hlimit r htame)
  | shrinkBuffer r =>
    rw [Operation.run, ensures_map]
    exact run_performs hh rfl (performs_shrinkBuffer hfree hh r)
  | release y => exact done_release hh htame
  | collect roots => exact done_collect hh roots
  | clear => exact done_clear hh

/-! ### Histories -/

/-- The heaps that come about by operations that do not meddle with storages. -/
inductive Tended (config : HeapConfig) : Heap → Prop
  /-- There are no objects. -/
  | empty : Tended config (empty config)
  /-- Something was done. -/
  | next {h : Heap} (op : Operation) (before : Tended config h) (tame : op.Tame h) :
      Tended config (op.after h)

theorem reached_of_tended (htended : Tended config h) : Reached config h := by
  induction htended with
  | empty => exact .empty
  | next op _ _ ih => exact .next op ih

/-- Operations lead from one heap to another. None of them meddles with storages or makes the buffer
of a handle go, and those of them that succeed turn one vector into another. -/
inductive Follows (x : Handle) : Heap → ByteVector → Heap → ByteVector → Prop
  /-- Nothing was done. -/
  | refl (h : Heap) (v : ByteVector) : Follows x h v h v
  /-- Something was done, and to the vector as well. -/
  | done {h t u : Heap} {v w : ByteVector} {reply : Reply} (op : Operation)
      (before : Follows x h v t w) (tame : op.Tame t) (keeps : op.Keeps t x)
      (run : op.run t = .ok reply u) : Follows x h v u (op.effect x w)
  /-- Something was to be done and has failed. -/
  | failed {h t u : Heap} {v w : ByteVector} {fault : Fault} (op : Operation)
      (before : Follows x h v t w) (tame : op.Tame t) (run : op.run t = .error fault u) :
      Follows x h v u w

/-- Operations that do not meddle with storages leave every buffer with one of its own. -/
theorem housed_of_tended (hlimit : config.heapLimit ≤ Capacity.maxWord)
    (htended : Tended config h) : h.Housed := by
  induction htended with
  | empty => exact ⟨fun hbuf => by simp [lookup?, empty] at hbuf,
      fun hbuf => by simp [lookup?, empty] at hbuf⟩
  | next op before tame ih =>
    have hreached := reached_of_tended before
    have hconfig := config_of_reached hreached
    have hspec := run_spec (balanced_of_reached hreached) ih (hconfig ▸ hlimit) tame
    exact Operation.after_of_ensures (hspec.mono (fun _ _ hdone => hdone.housed)
      fun _ _ hrefused => hrefused.unchanged ▸ ih)

/-- What holds of a single step in a history. -/
theorem run_spec_of_tended (hlimit : config.heapLimit ≤ Capacity.maxWord)
    (htended : Tended config h) (htame : op.Tame h) :
    Ensures op.run h (fun _ t => op.Done h t) (fun _ t => op.Refused h t) := by
  have hreached := reached_of_tended htended
  exact run_spec (balanced_of_reached hreached) (housed_of_tended hlimit htended)
    (config_of_reached hreached ▸ hlimit) htame

/-- A history goes on. -/
theorem tended_of_run (htended : Tended config h) (htame : op.Tame h) {reply : Reply}
    (hrun : op.run h = .ok reply t) : Tended config t := by
  have hafter : op.after h = t := by rw [Operation.after, hrun]
  exact hafter ▸ htended.next op htame

/-- A buffer goes on showing the vector that it is followed as. -/
theorem shows_of_follows (hlimit : config.heapLimit ≤ Capacity.maxWord)
    (htended : Tended config h) (hshows : h.Shows x v) (hfollows : Follows x h v t w) :
    Tended config t ∧ t.Shows x w := by
  induction hfollows with
  | refl => exact ⟨htended, hshows⟩
  | done op before tame keeps run ih =>
    obtain ⟨ht, hthere⟩ := ih hshows
    have hdone := (run_spec_of_tended hlimit ht tame).of_ok run
    exact ⟨tended_of_run ht tame run, hdone.shows keeps hthere⟩
  | failed op before tame run ih =>
    obtain ⟨ht, hthere⟩ := ih hshows
    obtain ⟨rfl, -⟩ := (run_spec_of_tended hlimit ht tame).of_error run
    exact ⟨ht, hthere⟩

/-- Growable buffers are byte vectors. In a heap that has come about without meddling with storages,
every buffer shows a vector, which is empty when the buffer is new. Whatever is done then that does
not make the buffer go, it shows what the operations on it make of this vector. An operation on one
buffer changes no object but its header and its storage, and succeeds if there is room for the
storage that it needs. An operation that fails changes nothing. -/
theorem buffers_are_vectors (hlimit : config.heapLimit ≤ Capacity.maxWord)
    (htended : Tended config h) :
    (∀ r header, h.header r = .ok header → ∃ v, h.Shows r.handle v) ∧
      (∀ capacity r t, allocBuffer capacity h = .ok r t → t.Shows r.handle (.empty capacity)) ∧
      (∀ x v t w, h.Shows x v → Follows x h v t w → t.Shows x w) ∧
      (∀ (op : Operation) r, op.buffer? = some r → op.Tame h →
        (∀ reply t, op.run h = .ok reply t → Spares r.handle h t) ∧
          ∀ v, r.kind = .buffer → h.Shows r.handle v → op.needs v ≤ h.available →
            ∃ reply t, op.run h = .ok reply t) ∧
      ∀ (op : Operation) fault t, op.Tame h → op.run h = .error fault t → t = h := by
  have hh := housed_of_tended hlimit htended
  have hfree := (balanced_of_reached (reached_of_tended htended)).freeList
  refine ⟨?_, ?_, ?_, fun op r hbuffer htame => ⟨?_, ?_⟩, ?_⟩
  · intro r header hheader
    exact hh.exists_shows (header_eq_ok_iff.1 hheader).1
  · intro capacity r t hrun
    have hbuffer : (Operation.allocBuffer capacity).buffer? = none := rfl
    exact ((run_allocBuffer hfree hh hbuffer capacity).of_ok hrun).2
  · intro x v t w hshows hfollows
    exact (shows_of_follows hlimit htended hshows hfollows).2
  · intro reply t hrun
    exact ((run_spec_of_tended hlimit htended htame).of_ok hrun).spares hbuffer
  · intro v hkind hshows hroom
    cases hrun : op.run h with
    | ok reply t => exact ⟨reply, t, rfl⟩
    -- It could only be refused for want of room.
    | error fault t =>
      have hrefused := (run_spec_of_tended hlimit htended htame).of_error hrun
      exact absurd hroom (Nat.not_le.2 (hrefused.short hbuffer hkind hshows))
  · intro op fault t htame hrun
    exact ((run_spec_of_tended hlimit htended htame).of_error hrun).unchanged

/-- There is little room. -/
def smallHeap : HeapConfig :=
  { heapLimit := 200 }

/-- A buffer of a small heap. -/
def cell : HeapRef :=
  ⟨.buffer, ⟨1, 0⟩⟩

/-- What is done to it. There is no room for the fourth of these operations. -/
def chores : List Operation :=
  [.resizeBuffer cell 3, .writeBuffer cell 1 ⟨#[8, 9]⟩, .resizeBuffer cell 2,
    .resizeBuffer cell 150, .resizeBuffer cell 70, .collect [.ref cell]]

/-- The heap after some of this. -/
def choresDone (count : Nat) : Heap :=
  (chores.take count).foldl (fun h op => op.after h)
    ((Operation.allocBuffer 4).after (empty smallHeap))

/-- The byte that was cut off is zero when the buffer has grown, and so are those after it. -/
theorem buffers_are_vectors_chores :
    (choresDone 6).Shows cell.handle ⟨0 :: 8 :: List.replicate 68 0, 128, by decide⟩ ∧
      choresDone 4 = choresDone 3 := by
  have hlimit : smallHeap.heapLimit ≤ Capacity.maxWord := by decide
  have htended : Tended smallHeap (choresDone 0) := .next (.allocBuffer 4) .empty trivial
  obtain ⟨-, hnew, -, -, -⟩ := buffers_are_vectors hlimit .empty
  obtain ⟨-, -, hgoes, -, -⟩ := buffers_are_vectors hlimit htended
  have hshows : (choresDone 0).Shows cell.handle (.empty 4) := hnew 4 cell _ (by rfl)
  have h1 : Follows cell.handle (choresDone 0) (.empty 4) (choresDone 1) _ :=
    .done (.resizeBuffer cell 3) (.refl _ _) (show 3 ≤ _ by decide) trivial rfl
  have h2 : Follows cell.handle (choresDone 0) (.empty 4) (choresDone 2) _ :=
    .done (.writeBuffer cell 1 ⟨#[8, 9]⟩) h1 trivial trivial rfl
  have h3 : Follows cell.handle (choresDone 0) (.empty 4) (choresDone 3) _ :=
    .done (.resizeBuffer cell 2) h2 (show 2 ≤ _ by decide) trivial rfl
  have hfault : (Operation.resizeBuffer cell 150).run (choresDone 3) =
      .error (.outOfMemory 256 172) (choresDone 4) := by rfl
  have h4 : Follows cell.handle (choresDone 0) (.empty 4) (choresDone 4) _ :=
    .failed (.resizeBuffer cell 150) h3 (show 150 ≤ _ by decide) hfault
  have h5 : Follows cell.handle (choresDone 0) (.empty 4) (choresDone 5) _ :=
    .done (.resizeBuffer cell 70) h4 (show 70 ≤ _ by decide) trivial rfl
  have hrooted : (choresDone 5).Reaches [.ref cell] cell.handle :=
    .root (List.mem_singleton_self _) rfl
  have h6 : Follows cell.handle (choresDone 0) (.empty 4) (choresDone 6) _ :=
    .done (.collect [.ref cell]) h5 trivial hrooted rfl
  -- The vector is computed but for the number of doublings, which is the least one.
  have hvector : ((((ByteVector.empty 4).resize 3).write 1 [8, 9]).resize 2).resize 70 =
      ⟨0 :: 8 :: List.replicate 68 0, 128, by decide⟩ := by
    have hdoublings : ByteVector.doublings 4 70 = 1 :=
      (Nat.find_eq_iff _).2 ⟨by decide, by decide⟩
    refine ByteVector.ext (by rfl) ?_
    change max 4 64 * 2 ^ ByteVector.doublings 4 70 = 128
    rw [hdoublings]
    rfl
  have htended' : Tended smallHeap (choresDone 3) := (shows_of_follows hlimit htended hshows h3).1
  obtain ⟨-, -, -, -, hfails⟩ := buffers_are_vectors hlimit htended'
  exact ⟨hvector ▸ hgoes _ _ _ _ hshows h6, hfails _ _ _ (show 150 ≤ _ by decide) hfault⟩

end ActorMachine.Heap
