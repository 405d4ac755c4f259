import ActorMachine.Proofs.Heap.Accounts

/-!
# What the limit of a heap bounds

An allocation is checked against the limit before anything changes, and charged for when its
objects are stored. How many bytes are checked shows in how the operation ends under other limits:
it fails, and says how many it asked for, exactly if there are fewer left. How many are charged and
released is counted.

* `Checks`: the bytes that an operation checks for.
* `Charges`: the bytes that are charged and released from one heap to another.
* `Spends`: an action checks, charges and releases so many, or it fails for want of room. There is
  one lemma for each action.
* `exists_spends`: every operation that allocates charges what it checks for, unless it allocates a
  string for a size. The string is empty, and its size is never charged.
* `Grants`: what several operations check, charge and release together.
* `limit_bounds_charges`: so the limit bounds what is charged, but not the room of such strings.
-/

namespace ActorMachine.Heap

variable {h t u : Heap} {handle : Handle} {object : HeapObject} {r : HeapRef}
  {header : BufferHeader} {bytes : ByteArray} {config : HeapConfig} {op : Operation} {α β : Type}
  {checked charged charged' released released' size capacity : Nat}

/-! ### What is charged and released -/

/-- From one heap to another so many bytes were charged, and so many released. -/
structure Charges (charged released : Nat) (h t : Heap) : Prop where
  /-- The former were allocated. -/
  allocated : t.stats.bytesAllocated = h.stats.bytesAllocated + charged
  /-- The latter were freed. -/
  freed : t.stats.bytesFreed = h.stats.bytesFreed + released
  /-- What is held has become more by the former and less by the latter. -/
  used : t.used + released = h.used + charged
  /-- The settings are the same. -/
  config : t.config = h.config

theorem charges_refl (h : Heap) : Charges 0 0 h h :=
  ⟨rfl, rfl, rfl, rfl⟩

theorem Charges.trans (hht : Charges charged released h t) (htu : Charges charged' released' t u) :
    Charges (charged + charged') (released + released') h u where
  allocated := by rw [htu.allocated, hht.allocated, Nat.add_assoc]
  freed := by rw [htu.freed, hht.freed, Nat.add_assoc]
  used := by
    have hused := hht.used
    have hused' := htu.used
    omega
  config := htu.config.trans hht.config

/-- How much was charged and released can be told from the counts. -/
theorem Charges.unique (hht : Charges charged released h t)
    (hht' : Charges charged' released' h t) : charged = charged' ∧ released = released' :=
  ⟨Nat.add_left_cancel (hht.allocated.symm.trans hht'.allocated),
    Nat.add_left_cancel (hht.freed.symm.trans hht'.freed)⟩

theorem charges_store (h : Heap) (object : HeapObject) :
    Charges object.charge 0 h (h.store object).2 :=
  ⟨rfl, rfl, rfl, rfl⟩

theorem charges_update (h : Heap) (handle : Handle) (change : HeapObject → HeapObject) :
    Charges 0 0 h (h.update handle change) :=
  ⟨rfl, rfl, rfl, rfl⟩

theorem charges_release (hb : h.Balanced) (hlook : h.lookup? handle = some object) :
    Charges 0 object.charge h (h.release handle) := by
  have hcharge := hb.charge_le hlook
  constructor <;> simp only [release, hlook] <;> omega

/-! ### What is checked -/

/-- The heap under another limit. -/
def withLimit (h : Heap) (limit : Nat) : Heap :=
  { h with config := { h.config with heapLimit := limit } }

/-- The operation checks that there is room for so many bytes: under whatever limit, it is done if
they are left, and otherwise it fails, asks for that many, and leaves the heap as it was. -/
def Checks (op : Operation) (h : Heap) (checked : Nat) : Prop :=
  ∀ limit, if checked ≤ (h.withLimit limit).available
    then ∃ reply t, op.run (h.withLimit limit) = .ok reply t
    else op.run (h.withLimit limit) =
      .error (.outOfMemory checked (h.withLimit limit).available) (h.withLimit limit)

/-- An operation checks for no more than it checks for. -/
theorem Checks.le {checked' : Nat} (hchecks : Checks op h checked)
    (hchecks' : Checks op h checked') : checked' ≤ checked := by
  by_contra hlt
  -- With just enough room left for the lesser number, the operation would be done and would fail.
  have havailable : (h.withLimit (h.used + checked)).available = checked :=
    Nat.add_sub_cancel_left _ _
  have hdone := hchecks (h.used + checked)
  have hfails := hchecks' (h.used + checked)
  rw [havailable, if_pos (Nat.le_refl _)] at hdone
  rw [havailable, if_neg hlt] at hfails
  obtain ⟨reply, t, hdone⟩ := hdone
  rw [hdone] at hfails
  cases hfails

theorem Checks.unique {checked' : Nat} (hchecks : Checks op h checked)
    (hchecks' : Checks op h checked') : checked = checked' :=
  Nat.le_antisymm (hchecks'.le hchecks) (hchecks.le hchecks')

/-- There is no room for so many bytes, the fault says so, and nothing has happened. -/
def Short (checked : Nat) (h : Heap) (fault : Fault) (t : Heap) : Prop :=
  h.available < checked ∧ fault = .outOfMemory checked h.available ∧ t = h

/-- The action checks for so many bytes. If they are left, it charges and releases others, and
otherwise nothing happens. -/
def Spends (act : Action α) (h : Heap) (checked charged released : Nat) : Prop :=
  Ensures act h (fun _ t => checked ≤ h.available ∧ Charges charged released h t) (Short checked h)

theorem Spends.map {act : Action α} (hspends : Spends act h checked charged released) (f : α → β) :
    Spends (f <$> act) h checked charged released :=
  (ensures_map f act).2 hspends

/-- What is spent under any limit tells what is checked. -/
theorem checks_of_spends
    (hspends : ∀ limit, Spends op.run (h.withLimit limit) checked charged released) :
    Checks op h checked := by
  intro limit
  cases hrun : op.run (h.withLimit limit) with
  | ok reply t =>
    rw [if_pos ((hspends limit).of_ok hrun).1]
    exact ⟨reply, t, rfl⟩
  | error fault t =>
    obtain ⟨hshort, rfl, rfl⟩ := (hspends limit).of_error hrun
    rw [if_neg (Nat.not_le.2 hshort)]

/-! ### New objects -/

/-- What is charged for a new object need not be what is checked. -/
theorem spends_alloc (h : Heap) (object : HeapObject) (checked : Nat) :
    Spends (do reserve checked; insert object) h checked object.charge 0 := by
  rw [Spends, ensures_bind, ensures_reserve]
  refine ⟨fun hroom => ?_, fun hshort => ⟨hshort, rfl, rfl⟩⟩
  rw [ensures_insert]
  exact ⟨hroom, charges_store h object⟩

theorem spends_allocFixed (h : Heap) (size : Nat) : Spends (allocFixed size) h size size 0 := by
  have hspends := spends_alloc h (.fixedBuffer (zeroBytes size)) size
  rwa [HeapObject.charge, size_zeroBytes] at hspends

theorem spends_allocBuffer (h : Heap) (capacity : Nat) :
    Spends (allocBuffer capacity) h (capacity + HeapObject.headerBytes)
      (capacity + HeapObject.headerBytes) 0 := by
  rw [Spends, allocBuffer, ensures_bind, ensures_reserve]
  refine ⟨fun hroom => ?_, fun hshort => ⟨hshort, rfl, rfl⟩⟩
  rw [ensures_bind, ensures_insert, ensures_insert]
  have hcharges := (charges_store h (.fixedBuffer (zeroBytes capacity))).trans (charges_store _
    (.buffer { size := 0, capacity, storage := h.nextHandle }))
  simp only [HeapObject.charge, size_zeroBytes] at hcharges
  exact ⟨hroom, hcharges⟩

/-! ### Buffers that are moved -/

/-- A buffer is moved if its storage is found. -/
theorem ensures_setCapacity_finds (h : Heap) (r : HeapRef) (capacity : Nat) :
    Ensures (setCapacity r capacity) h
      (fun _ _ => ∃ header bytes, h.header r = .ok header ∧ h.region header.storage = .ok bytes)
      fun _ _ => True := by
  rw [setCapacity, ensures_bind, ensures_observe]
  refine ⟨fun header hheader => ?_, fun _ _ => trivial⟩
  rw [ensures_bind, ensures_reserve]
  refine ⟨fun _ => ?_, fun _ => trivial⟩
  rw [ensures_bind, ensures_observe]
  refine ⟨fun bytes hregion => ?_, fun _ _ => trivial⟩
  exact (ensures_result _ _).mono (fun _ _ _ => ⟨header, bytes, hheader, hregion⟩) fun _ _ _ =>
    trivial

/-- When the storage of a buffer is replaced by a new one, the new one is charged and the old one is
released, and the buffer has its header and the new storage. -/
theorem charges_moveStorage (hb : h.Balanced) (hbuf : h.lookup? handle = some (.buffer header))
    (hbytes : h.lookup? header.storage = some (.fixedBuffer bytes)) (bytes' : ByteArray)
    {change : HeapObject → HeapObject}
    (hchange : change (.buffer header) =
      .buffer { header with storage := h.nextHandle, capacity := bytes'.size }) :
    let moved := ((h.store (.fixedBuffer bytes')).2.update handle change).release header.storage
    Charges bytes'.size bytes.size h moved ∧
      moved.lookup? handle =
        some (.buffer { header with storage := h.nextHandle, capacity := bytes'.size }) ∧
      moved.lookup? h.nextHandle = some (.fixedBuffer bytes') := by
  intro moved
  have hlooks := lookup?_moveStorage hb.freeList hbuf bytes' hchange
  have hne : header.storage ≠ handle := storage_ne hbuf hbytes
  refine ⟨?_, ?_, ?_⟩
  · have hthere : (h.store (.fixedBuffer bytes')).2.lookup? handle = some (.buffer header) :=
      lookup?_store_of_lookup? hb.freeList hbuf
    have hold : ((h.store (.fixedBuffer bytes')).2.update handle change).lookup? header.storage =
        some (.fixedBuffer bytes) := by
      rw [lookup?_update_of_lookup? _ hthere, if_neg hne]
      exact lookup?_store_of_lookup? hb.freeList hbytes
    have hcharge : (change (.buffer header)).charge = (HeapObject.buffer header).charge := by
      rw [hchange]
      rfl
    -- Three single changes are made: the storage is stored, the header written, the old one
    -- released.
    have hbalanced := (hb.store (.fixedBuffer bytes')).update hthere hcharge
    have hstored := (charges_store h (.fixedBuffer bytes')).trans (charges_update _ handle change)
    have hmoved := hstored.trans (charges_release hbalanced hold)
    simpa only [HeapObject.charge, Nat.add_zero, Nat.zero_add] using hmoved
  · rw [hlooks, if_neg hne.symm, if_pos rfl]
  · -- The new storage lies neither where the old one did nor where the header does.
    rw [hlooks, if_neg (ne_nextHandle hb.freeList hbytes).symm,
      if_neg (ne_nextHandle hb.freeList hbuf).symm, if_pos rfl]

/-- For the new storage as much is charged as was checked, and it is found afterwards. The old one
is released last. -/
theorem ensures_setCapacity_charges (hb : h.Balanced) (hheader : h.header r = .ok header)
    (hregion : h.region header.storage = .ok bytes) (capacity : Nat) :
    Ensures (setCapacity r capacity) h
      (fun _ t => capacity ≤ h.available ∧ Charges capacity bytes.size h t ∧
        ∃ header' bytes', t.header r = .ok header' ∧ t.region header'.storage = .ok bytes')
      (Short capacity h) := by
  obtain ⟨hbuf, hkind⟩ := header_eq_ok_iff.1 hheader
  have hthere : (h.store (.fixedBuffer (movedBytes bytes header.size capacity))).2.header r =
      .ok header := header_eq_ok_iff.2 ⟨lookup?_store_of_lookup? hb.freeList hbuf, hkind⟩
  rw [setCapacity, ensures_observe_bind hheader, ensures_bind, ensures_reserve]
  refine ⟨fun hroom => ?_, fun hshort => ⟨hshort, rfl, rfl⟩⟩
  rw [ensures_observe_bind hregion, ensures_bind, ensures_insert, ensures_bind,
    ensures_changeHeader hthere, ensures_modify]
  obtain ⟨hcharges, hheader', hregion'⟩ :=
    charges_moveStorage hb hbuf (region_eq_ok_iff.1 hregion) _
      (mapHeader_moved header bytes h.nextHandle capacity)
  rw [size_movedBytes] at hcharges
  exact ⟨hroom, hcharges, _, _, header_eq_ok_iff.2 ⟨hheader', hkind⟩, region_eq_ok_iff.2 hregion'⟩

/-- Setting a size charges nothing, and does not fail if the bytes that come into use are found. -/
theorem ensures_setSize_charges (hheader : h.header r = .ok header)
    (hregion : header.size < size → ∃ bytes, h.region header.storage = .ok bytes) :
    Ensures (do
      let header ← observe (·.header r)
      changeHeader r fun header => { header with size }
      if header.size < size then
        changeRegion header.storage (zeroFill · header.size size)) h
      (fun _ t => Charges 0 0 h t) fun _ _ => False := by
  have hbuf := (header_eq_ok_iff.1 hheader).1
  rw [ensures_observe_bind hheader, ensures_bind, ensures_changeHeader hheader]
  split
  next hlt =>
    obtain ⟨bytes, hbytes⟩ := hregion hlt
    rw [region_eq_ok_iff] at hbytes
    rw [ensures_changeRegion]
    · exact (charges_update _ _ _).trans (charges_update _ _ _)
    · rw [lookup?_update_of_lookup? _ hbuf, if_neg (storage_ne hbuf hbytes), hbytes]
  next => exact charges_update _ _ _

theorem Balanced.withLimit (hb : h.Balanced) (limit : Nat) : (h.withLimit limit).Balanced :=
  ⟨⟨hb.freeList.nodup, hb.freeList.vacant⟩, hb.used⟩

/-- Whatever the limit is, raising the capacity of a buffer charges what it checks. -/
theorem exists_spends_reserveBuffer (hb : h.Balanced) (hheader : h.header r = .ok header)
    (hregion : header.capacity < capacity → ∃ bytes, h.region header.storage = .ok bytes) :
    ∃ charged released, ∀ limit,
      Spends (reserveBuffer r capacity) (h.withLimit limit) charged charged released := by
  have hfound : ∀ limit, (h.withLimit limit).header r = .ok header := fun _ => hheader
  by_cases hlt : header.capacity < capacity
  · obtain ⟨bytes, hbytes⟩ := hregion hlt
    refine ⟨capacity, bytes.size, fun limit => ?_⟩
    rw [Spends, reserveBuffer, ensures_observe_bind (hfound limit), if_pos hlt]
    exact (ensures_setCapacity_charges (hb.withLimit limit) (hfound limit) hbytes capacity).mono
      (fun _ _ hmoved => ⟨hmoved.1, hmoved.2.1⟩) fun _ _ => id
  · refine ⟨0, 0, fun limit => ?_⟩
    rw [Spends, reserveBuffer, ensures_observe_bind (hfound limit), if_neg hlt]
    exact ⟨Nat.zero_le _, charges_refl _⟩

/-- So does setting its size, which charges nothing once the capacity will do. -/
theorem exists_spends_resizeBuffer (hb : h.Balanced) (hheader : h.header r = .ok header)
    (hregion : header.capacity < size ∨ header.size < size →
      ∃ bytes, h.region header.storage = .ok bytes) :
    ∃ charged released, ∀ limit,
      Spends (resizeBuffer r size) (h.withLimit limit) charged charged released := by
  have hfound : ∀ limit, (h.withLimit limit).header r = .ok header := fun _ => hheader
  by_cases hlt : header.capacity < size
  · obtain ⟨bytes, hbytes⟩ := hregion (.inl hlt)
    refine ⟨grownBufferCapacity header.capacity size, bytes.size, fun limit => ?_⟩
    rw [Spends, resizeBuffer, ensures_observe_bind (hfound limit)]
    dsimp only
    rw [if_pos hlt, ensures_bind]
    refine (ensures_setCapacity_charges (hb.withLimit limit) (hfound limit) hbytes _).mono ?_
      fun _ _ => id
    rintro _ u ⟨hroom, hcharges, header', bytes', hheader', hregion'⟩
    -- The size is set in the header that the move has left, and the new storage is there.
    refine (ensures_setSize_charges hheader' fun _ => ⟨bytes', hregion'⟩).mono ?_
      fun _ _ => False.elim
    exact fun _ t hsized => ⟨hroom, hcharges.trans hsized⟩
  · refine ⟨0, 0, fun limit => ?_⟩
    rw [Spends, resizeBuffer, ensures_observe_bind (hfound limit)]
    dsimp only
    rw [if_neg hlt]
    refine (ensures_setSize_charges (hfound limit) fun hgrows => hregion (.inr hgrows)).mono ?_
      fun _ _ => False.elim
    exact fun _ t hsized => ⟨Nat.zero_le _, hsized⟩

/-- A capacity is raised only for a buffer whose storage is found, if it has to be replaced. -/
theorem ensures_reserveBuffer_finds (h : Heap) (r : HeapRef) (capacity : Nat) :
    Ensures (reserveBuffer r capacity) h
      (fun _ _ => ∃ header, h.header r = .ok header ∧
        (header.capacity < capacity → ∃ bytes, h.region header.storage = .ok bytes))
      fun _ _ => True := by
  rw [reserveBuffer, ensures_bind, ensures_observe]
  refine ⟨fun header hheader => ?_, fun _ _ => trivial⟩
  split
  next =>
    refine (ensures_setCapacity_finds h r capacity).mono ?_ fun _ _ => id
    rintro _ t ⟨header', bytes, hheader', hregion⟩
    obtain rfl := Except.ok.inj (hheader.symm.trans hheader')
    exact ⟨header, hheader, fun _ => ⟨bytes, hregion⟩⟩
  next hle => exact ⟨header, hheader, fun hlt => absurd hlt hle⟩

/-- So is a size set, unless there are no bytes that come into use. -/
theorem ensures_resizeBuffer_finds (h : Heap) (r : HeapRef) (size : Nat) :
    Ensures (resizeBuffer r size) h
      (fun _ _ => ∃ header, h.header r = .ok header ∧
        (header.capacity < size ∨ header.size < size →
          ∃ bytes, h.region header.storage = .ok bytes))
      fun _ _ => True := by
  rw [resizeBuffer, ensures_bind, ensures_observe]
  refine ⟨fun header hheader => ?_, fun _ _ => trivial⟩
  dsimp only
  split
  next =>
    rw [ensures_bind]
    refine (ensures_setCapacity_finds h r _).mono ?_ fun _ _ => id
    rintro _ t ⟨header', bytes, hheader', hregion⟩
    obtain rfl := Except.ok.inj (hheader.symm.trans hheader')
    exact (ensures_result _ t).mono (fun _ _ _ => ⟨header, hheader, fun _ => ⟨bytes, hregion⟩⟩)
      fun _ _ _ => trivial
  next hle =>
    have hbuf := (header_eq_ok_iff.1 hheader).1
    rw [ensures_observe_bind hheader, ensures_bind, ensures_changeHeader hheader]
    split
    next =>
      rw [changeRegion, ensures_bind, ensures_discard, ensures_observe]
      refine ⟨fun bytes hregion => ?_, fun _ _ => trivial⟩
      -- The header has been changed by then, and it is no storage.
      rw [region_eq_ok_iff, lookup?_update_of_lookup? _ hbuf] at hregion
      split at hregion
      next => cases hregion
      next => exact ⟨header, hheader, fun _ => ⟨bytes, region_eq_ok_iff.2 hregion⟩⟩
    next hsize => exact ⟨header, hheader, by simp [hle, hsize]⟩

/-! ### Operations that allocate -/

/-- Objects are allocated, or buffers get a larger storage. -/
def Operation.Allocates : Operation → Prop
  | allocate .. | allocString .. | allocBuffer .. | allocClosure .. | reserveBuffer ..
  | resizeBuffer .. => True
  | _ => False

/-- Bytes that an operation checks for and never charges: a string that is allocated for a size is
empty, whatever the size. -/
def Operation.unaccounted : Operation → Nat
  | allocate .string size => size
  | _ => 0

/-- What holds if an action succeeds holds if its operation does. -/
theorem Operation.of_run {act : Action Unit} {post : Prop} {reply : Reply}
    (hact : Ensures act h (fun _ _ => post) fun _ _ => True)
    (hrun : ((fun _ => Reply.done) <$> act) h = .ok reply t) : post := by
  have hmap : Ensures ((fun _ => Reply.done) <$> act) h (fun _ _ => post) fun _ _ => True :=
    (ensures_map _ act).2 hact
  exact hmap.of_ok hrun

/-- What a successful operation checks for is charged, but for the size of a string. -/
theorem exists_spends (hb : h.Balanced) (hallocates : op.Allocates) {reply : Reply}
    (hrun : op.run h = .ok reply t) : ∃ charged released, ∀ limit,
      Spends op.run (h.withLimit limit) (charged + op.unaccounted) charged released := by
  cases op with
  | allocate kind size =>
    cases kind with
    | fixedBuffer => exact ⟨size, 0, fun _ => (spends_allocFixed _ size).map _⟩
    | buffer =>
      exact ⟨size + HeapObject.headerBytes, 0, fun _ => (spends_allocBuffer _ size).map _⟩
    | string =>
      -- What is stored is the empty string, whose charge is its own length.
      refine ⟨0, 0, fun _ => ?_⟩
      rw [Nat.zero_add]
      exact (spends_alloc _ (.string "") size).map _
    | closure => cases hrun
  | allocString text =>
    exact ⟨text.utf8ByteSize, 0, fun _ => (spends_alloc _ (.string text) _).map _⟩
  | allocBuffer capacity =>
    exact ⟨capacity + HeapObject.headerBytes, 0, fun _ => (spends_allocBuffer _ capacity).map _⟩
  | allocClosure routine upvalues =>
    exact ⟨HeapObject.closureBytes upvalues.size, 0, fun _ =>
      (spends_alloc _ (.closure routine upvalues) _).map _⟩
  | reserveBuffer r capacity =>
    obtain ⟨header, hheader, hregion⟩ :=
      Operation.of_run (ensures_reserveBuffer_finds h r capacity) hrun
    obtain ⟨charged, released, hspends⟩ := exists_spends_reserveBuffer hb hheader hregion
    exact ⟨charged, released, fun limit => (hspends limit).map _⟩
  | resizeBuffer r size =>
    obtain ⟨header, hheader, hregion⟩ :=
      Operation.of_run (ensures_resizeBuffer_finds h r size) hrun
    obtain ⟨charged, released, hspends⟩ := exists_spends_resizeBuffer hb hheader hregion
    exact ⟨charged, released, fun limit => (hspends limit).map _⟩
  | _ => exact hallocates.elim

/-- From one heap to another the operation was done, and this is what it checked, charged and
released. -/
structure Grant (op : Operation) (h t : Heap) (checked charged released : Nat) : Prop where
  /-- It was done. -/
  done : ∃ reply, op.run h = .ok reply t
  /-- So many bytes were checked for. -/
  checks : Checks op h checked
  /-- There was room for them. -/
  room : h.used + checked ≤ h.config.heapLimit
  /-- So many were charged and released. -/
  charges : Charges charged released h t

theorem exists_grant (hacc : h.Accounts) (hallocates : op.Allocates) {reply : Reply}
    (hrun : op.run h = .ok reply t) :
    ∃ charged released, Grant op h t (charged + op.unaccounted) charged released := by
  obtain ⟨charged, released, hspends⟩ := exists_spends hacc.balanced hallocates hrun
  obtain ⟨hroom, hcharges⟩ := (hspends h.config.heapLimit).of_ok hrun
  have hused := hacc.used_le
  have hleft : charged + op.unaccounted ≤ h.config.heapLimit - h.used := hroom
  exact ⟨charged, released, ⟨reply, hrun⟩, checks_of_spends hspends, by omega, hcharges⟩

/-- Operations were done one after the other, and this is what they checked, charged and released
together. -/
inductive Grants : List Operation → Heap → Heap → Nat → Nat → Nat → Prop
  /-- There are none. -/
  | nil (h : Heap) : Grants [] h h 0 0 0
  /-- The first of them was done, and then the others. -/
  | cons {op : Operation} {ops : List Operation} {h t u : Heap}
    {checked charged released checked' charged' released' : Nat}
    (first : Grant op h t checked charged released)
    (others : Grants ops t u checked' charged' released') :
    Grants (op :: ops) h u (checked + checked') (charged + charged') (released + released')

variable {ops : List Operation}

/-- What is charged and released on the way adds up. -/
theorem Grants.charges (hgrants : Grants ops h t checked charged released) :
    Charges charged released h t := by
  induction hgrants with
  | nil h => exact charges_refl h
  | cons first _ ih => exact first.charges.trans ih

theorem Grant.after_eq (hgrant : Grant op h t checked charged released) : op.after h = t := by
  obtain ⟨reply, hrun⟩ := hgrant.done
  rw [Operation.after, hrun]

/-- What is checked for is charged, but for the size of a string. -/
theorem Grant.checked_eq (hacc : h.Accounts) (hallocates : op.Allocates)
    (hgrant : Grant op h t checked charged released) : checked = charged + op.unaccounted := by
  obtain ⟨reply, hrun⟩ := hgrant.done
  obtain ⟨charged', released', hgrant'⟩ := exists_grant hacc hallocates hrun
  -- Other limits tell how much is checked, and the counts how much is charged.
  rw [hgrant.checks.unique hgrant'.checks, (hgrant.charges.unique hgrant'.charges).1]

/-- So it is with all operations together. -/
theorem Grants.checked_eq (hreached : Reached config h) (hallocate : ∀ op ∈ ops, op.Allocates)
    (hgrants : Grants ops h t checked charged released) :
    Reached config t ∧ checked = charged + (ops.map Operation.unaccounted).sum := by
  induction hgrants with
  | nil => exact ⟨hreached, rfl⟩
  | cons first _ ih =>
    rw [List.forall_mem_cons] at hallocate
    have hfirst := first.checked_eq (accounts_of_reached hreached) hallocate.1
    obtain ⟨hreached', hothers⟩ := ih (first.after_eq ▸ .next _ hreached) hallocate.2
    refine ⟨hreached', ?_⟩
    rw [List.map_cons, List.sum_cons]
    omega

/-- Operations that are done one after the other check, charge and release something together. -/
theorem ensures_grants (hreached : Reached config h) (hallocate : ∀ op ∈ ops, op.Allocates) :
    Ensures (ops.mapM Operation.run) h
      (fun _ t => ∃ checked charged released, Grants ops h t checked charged released)
      fun _ _ => True := by
  induction ops generalizing h with
  | nil => exact ⟨0, 0, 0, .nil h⟩
  | cons op ops ih =>
    rw [List.forall_mem_cons] at hallocate
    rw [List.mapM_cons, ensures_bind]
    refine (ensures_result op.run h).mono (fun reply u hrun => ?_) fun _ _ _ => trivial
    obtain ⟨charged, released, hgrant⟩ :=
      exists_grant (accounts_of_reached hreached) hallocate.1 hrun
    rw [ensures_bind]
    refine (ih (hgrant.after_eq ▸ .next op hreached) hallocate.2).mono ?_ fun _ _ => id
    rintro _ t ⟨checked, charged', released', hgrants⟩
    exact ⟨_, _, _, .cons hgrant hgrants⟩

/-- A string is allocated for a size, and nothing of it is charged. -/
theorem ensures_allocate_string {size : Nat} (hacc : h.Accounts) (hroom : size ≤ h.available) :
    Ensures (Operation.run (.allocate .string size)) h
      (fun _ t => Grant (.allocate .string size) h t size 0 0 ∧ t.available = h.available)
      fun _ _ => False := by
  have hspends : ∀ limit, Spends (Operation.run (.allocate .string size)) (h.withLimit limit)
      size 0 0 := fun limit => (spends_alloc _ (.string "") size).map _
  refine ((hspends h.config.heapLimit).and (ensures_result _ h)).mono ?_ ?_
  · rintro reply t ⟨⟨-, hcharges⟩, hrun⟩
    have hused := hacc.used_le
    rw [available] at hroom
    refine ⟨⟨⟨reply, hrun⟩, checks_of_spends hspends, by omega, hcharges⟩, ?_⟩
    have hheld : t.used = h.used := hcharges.used
    rw [available, available, hcharges.config, hheld]
    rfl
  · rintro fault t ⟨⟨hshort, -⟩, -⟩
    exact absurd hroom (Nat.not_le.2 hshort)

/-- So it can be repeated for ever. -/
theorem ensures_allocate_strings {size : Nat} (hreached : Reached config h)
    (hroom : size ≤ h.available) (count : Nat) :
    Ensures ((List.replicate count (.allocate .string size)).mapM Operation.run) h
      (fun _ t => Grants (List.replicate count (.allocate .string size)) h t (count * size) 0 0)
      fun _ _ => False := by
  induction count generalizing h with
  | zero =>
    rw [Nat.zero_mul]
    exact .nil h
  | succ count ih =>
    rw [List.replicate_succ, List.mapM_cons, ensures_bind]
    have hfirst := ensures_allocate_string (accounts_of_reached hreached) hroom
    refine hfirst.mono ?_ fun _ _ => id
    rintro reply u ⟨hgrant, havailable⟩
    rw [ensures_bind]
    -- As much is available as before, so the next one goes as well.
    have hagain := ih (hgrant.after_eq ▸ .next _ hreached) (havailable ▸ hroom)
    refine hagain.mono (fun _ t hgrants => ?_) fun _ _ => id
    have hsum : (count + 1) * size = size + count * size := by
      rw [Nat.succ_mul, Nat.add_comm]
    exact hsum ▸ .cons hgrant hgrants

/-- What is left of the limit after an object was allocated for a size. -/
theorem available_of_allocate {kind : ObjectKind} {size : Nat} {reply : Reply}
    (hacc : h.Accounts) (hrun : (Operation.allocate kind size).run h = .ok reply t) :
    t.available + size ≤ h.available ↔ kind ≠ .string ∨ size = 0 := by
  have hused := hacc.used_le
  have hleft : h.available = h.config.heapLimit - h.used := rfl
  have hleft' : t.available = t.config.heapLimit - t.used := rfl
  cases kind with
  | fixedBuffer =>
    obtain ⟨hroom, hcharges⟩ := ((spends_allocFixed h size).map Reply.made).of_ok hrun
    have hheld := hcharges.used
    rw [hcharges.config] at hleft'
    simp only [ne_eq, reduceCtorEq, not_false_eq_true, true_or, iff_true]
    omega
  | buffer =>
    obtain ⟨hroom, hcharges⟩ := ((spends_allocBuffer h size).map Reply.made).of_ok hrun
    have hheld := hcharges.used
    rw [hcharges.config] at hleft'
    simp only [ne_eq, reduceCtorEq, not_false_eq_true, true_or, iff_true]
    omega
  -- A string is made without text, so nothing is charged for it.
  | string =>
    obtain ⟨hroom, hcharges⟩ := ((spends_alloc h (.string "") size).map Reply.made).of_ok hrun
    have hheld : t.used = h.used := hcharges.used
    rw [hcharges.config] at hleft'
    simp only [ne_eq, not_true_eq_false, false_or]
    omega
  | closure => cases hrun

/-- What the limit bounds is what is charged. An operation that allocates charges exactly what it
has checked for, before it releases anything, unless it allocates a string for a size: that is
checked for, and never charged. So an object that is allocated for a size leaves less by its size,
but for strings. After any operations that allocate, what was checked for and not released is within
the limit only without the sizes of such strings, and these can be allocated as often as one
likes. -/
theorem limit_bounds_charges (hreached : Reached config h) :
    (∀ op reply t, op.Allocates → op.run h = .ok reply t →
      (∃ checked charged released, Grant op h t checked charged released) ∧
      ∀ checked charged released, Grant op h t checked charged released →
        checked = charged + op.unaccounted) ∧
    (∀ kind size reply t, (Operation.allocate kind size).run h = .ok reply t →
      (t.available + size ≤ h.available ↔ kind ≠ .string ∨ size = 0)) ∧
    (∀ (ops : List Operation) (replies : List Reply) (t : Heap), (∀ op ∈ ops, op.Allocates) →
      ops.mapM Operation.run h = .ok replies t →
      (∃ checked charged released, Grants ops h t checked charged released) ∧
      ∀ checked charged released, Grants ops h t checked charged released →
        h.used + checked = t.used + released + (ops.map Operation.unaccounted).sum ∧
        t.used ≤ config.heapLimit) ∧
    ∀ size count, size ≤ h.available → ∃ replies t,
      (List.replicate count (.allocate .string size)).mapM Operation.run h = .ok replies t ∧
      Grants (List.replicate count (.allocate .string size)) h t (count * size) 0 0 := by
  have hacc := accounts_of_reached hreached
  refine ⟨fun op reply t hallocates hrun => ⟨?_, fun checked charged released hgrant => ?_⟩,
    fun kind size reply t => available_of_allocate hacc,
    fun ops replies t hallocate hrun => ⟨?_, fun checked charged released hgrants => ?_⟩,
    fun size count hroom => ?_⟩
  · obtain ⟨charged, released, hgrant⟩ := exists_grant hacc hallocates hrun
    exact ⟨_, charged, released, hgrant⟩
  · exact hgrant.checked_eq hacc hallocates
  · exact (ensures_grants hreached hallocate).of_ok hrun
  · -- What was checked and not charged are the sizes that are unaccounted for.
    obtain ⟨hreached', hchecked⟩ := hgrants.checked_eq hreached hallocate
    have hused := hgrants.charges.used
    have hlimit := (accounts_of_reached hreached').used_le
    rw [config_of_reached hreached'] at hlimit
    exact ⟨by omega, hlimit⟩
  · exact (ensures_allocate_strings hreached hroom count).exists_ok

/-- Of 100 bytes a buffer takes 54. Then there is room for a string of 46, and for eight more. -/
theorem limit_bounds_charges_strings :
    ∃ t, (∀ checked charged released,
        Grant (.allocBuffer 30) (empty { heapLimit := 100 }) t checked charged released →
          checked = charged) ∧
      t.available + 30 ≤ 100 ∧ t.available = 46 ∧
      ∃ u, Grants (List.replicate 9 (.allocate .string 46)) t u 414 0 0 := by
  have hempty : Reached { heapLimit := 100 } (empty { heapLimit := 100 }) := .empty
  obtain ⟨hgrant, havailable, -, -⟩ := limit_bounds_charges hempty
  obtain ⟨-, -, -, hstrings⟩ := limit_bounds_charges (.next (.allocBuffer 30) hempty)
  obtain ⟨replies, u, -, hgrants⟩ := hstrings 46 9 (by decide +kernel)
  refine ⟨_, (hgrant (.allocBuffer 30) _ _ trivial rfl).2,
    (havailable .buffer 30 _ _ rfl).2 (.inl nofun), ?_, u, hgrants⟩
  decide +kernel

/-- Not every operation charges what it checks for. -/
theorem not_all_charged : ¬ ∀ (config : HeapConfig) (h t : Heap) (op : Operation) (reply : Reply),
    Reached config h → op.Allocates → op.run h = .ok reply t →
      ∃ checked released, Grant op h t checked checked released := by
  intro hclaim
  have hempty : Reached { heapLimit := 100 } (empty { heapLimit := 100 }) := .empty
  obtain ⟨checked, released, hgrant⟩ := hclaim _ _ _ (.allocate .string 60) _ hempty trivial rfl
  have hchecks : Checks (.allocate .string 60) (empty { heapLimit := 100 }) 60 :=
    checks_of_spends fun limit => (spends_alloc _ (.string "") 60).map _
  have hsixty : checked = 60 := hgrant.checks.unique hchecks
  have hnone : 0 = 0 + checked := hgrant.charges.allocated
  omega

end ActorMachine.Heap
