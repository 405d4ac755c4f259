import ActorMachine.Proofs.Heap.Accounts
import ActorMachine.Proofs.Heap.Collection

/-!
# Handles that never alias

A slot is used again and again, but the handle of one occupant never reaches another one, unless the
slot loses as many objects as there are generations.

* `generationAt`: the generation of a slot. It is the next one after each release, and nothing else
  changes it.
* `stays_or_loses`: single changes leave the object of a slot there, with its kind, or the slot
  loses it once and for all. `lookup?_after` says so of an operation, and `Operation.Frees` by which
  operations an object goes.
* `timesFreed`, `generationAt_afterAll`: the generation of a slot counts how often it was freed.
* `Access`, `run_of_lookup?_eq_none`: all that can be done through a reference, and what it answers
  when the handle is stale.
* `handles_never_alias`: the whole history of a handle, from the allocation that answers it on.
-/

namespace ActorMachine.Heap

variable {h t u : Heap} {x y : Handle} {object : HeapObject} {r : HeapRef} {gone : Set Handle}
  {config : HeapConfig} {op : Operation} {ops : List Operation}

/-! ### Generations -/

/-- The generation of a slot. Slots that are not there yet start with zero. -/
def generationAt (h : Heap) (i : Nat) : UInt32 :=
  (h.slots[i]?.map Slot.generation).getD 0

theorem generationAt_of_slot {i : Nat} {slot : Slot} (hslot : h.slots[i]? = some slot) :
    h.generationAt i = slot.generation := by
  rw [generationAt, hslot]
  rfl

/-- An object is reached by a handle of the generation of its slot. -/
theorem generationAt_of_lookup? (hlook : h.lookup? x = some object) :
    h.generationAt x.index = x.generation :=
  generationAt_of_slot (lookup?_eq_some_iff.1 hlook)

theorem eq_of_lookup? {i : Nat} (hlook : h.lookup? x = some object) (hi : x.index = i) :
    x = ⟨i, h.generationAt i⟩ := by
  rw [← hi, generationAt_of_lookup? hlook]

/-- A slot that is used again keeps its generation, and a new one starts with zero. -/
theorem generationAt_store (object : HeapObject) (i : Nat) :
    (h.store object).2.generationAt i = h.generationAt i := by
  cases hslot : h.slots[i]? with
  | some slot =>
    obtain ⟨o, hstored⟩ := slots_store hslot object
    rw [generationAt_of_slot hstored, generationAt_of_slot hslot]
  | none =>
    have hout : h.slots.size ≤ i := Array.getElem?_eq_none_iff.1 hslot
    cases hlist : h.free with
    | nil =>
      by_cases hi : i = h.slots.size
      · simp [generationAt, store, nextHandle, hlist, hi]
      · simp [generationAt, store, hlist, Array.getElem?_push, hi]
    | cons j rest =>
      -- The slot that is used again is another one, or out of reach as well.
      have hstored : (h.store object).2.slots[i]? = none := by
        rw [Array.getElem?_eq_none_iff]
        simpa [store, hlist] using hout
      rw [generationAt, generationAt, hslot, hstored]

theorem generationAt_update (change : HeapObject → HeapObject) (i : Nat) :
    (h.update x change).generationAt i = h.generationAt i := by
  rw [generationAt, generationAt, update]
  by_cases hi : x.index = i
  · simp [Array.getElem?_modify, hi, Option.map_map, Function.comp_def]
  · simp [Array.getElem?_modify, hi]

/-- A slot that loses its object gets the next generation. -/
theorem generationAt_release (hlook : h.lookup? x = some object) (i : Nat) :
    (h.release x).generationAt i =
      if i = x.index then x.generation + 1 else h.generationAt i := by
  have hlt := index_lt_of_lookup? hlook
  by_cases hi : i = x.index
  · simp [generationAt, release, hlook, hi, hlt]
  · simp [generationAt, release, hlook, hi, Ne.symm hi]

/-! ### Single changes -/

/-- A slot stays in its generation, and so does its object, with its kind. -/
structure Stays (i : Nat) (h t : Heap) : Prop where
  /-- The generation is the same. -/
  generation : t.generationAt i = h.generationAt i
  /-- The object is there. -/
  object : ∀ {x object}, x.index = i → h.lookup? x = some object →
    ∃ object', t.lookup? x = some object' ∧ object'.kind = object.kind

/-- A slot loses its object, whose handle is among these, and gets the next generation. -/
structure Loses (gone : Set Handle) (i : Nat) (h t : Heap) : Prop where
  /-- There was an object. -/
  live : ∃ x ∈ gone, x.index = i ∧ (h.lookup? x).isSome
  /-- The generation is the next one. -/
  generation : t.generationAt i = h.generationAt i + 1

theorem Stays.refl (i : Nat) (h : Heap) : Stays i h h :=
  ⟨rfl, fun _ hlook => ⟨_, hlook, rfl⟩⟩

theorem Stays.trans {i : Nat} (hht : Stays i h t) (htu : Stays i t u) : Stays i h u where
  generation := htu.generation.trans hht.generation
  object hi hlook := by
    obtain ⟨object', hlook', hkind⟩ := hht.object hi hlook
    obtain ⟨object'', hlook'', hkind'⟩ := htu.object hi hlook'
    exact ⟨object'', hlook'', hkind'.trans hkind⟩

/-- A single change leaves a slot as it is, or takes its object away. -/
theorem Change.stays_or_loses (hchange : Change gone h t) (hfree : h.FreeList) (i : Nat) :
    Stays i h t ∨ Loses gone i h t := by
  cases hchange with
  | store =>
    exact .inl ⟨generationAt_store _ i, fun _ hlook =>
      ⟨_, lookup?_store_of_lookup? hfree hlook, rfl⟩⟩
  | @update handle object change hlive hkind =>
    refine .inl ⟨generationAt_update change i, fun {x o} _ hlook => ?_⟩
    rw [lookup?_update_of_lookup? change hlive]
    by_cases hx : x = handle
    · subst hx
      obtain rfl := Option.some.inj (hlive.symm.trans hlook)
      exact ⟨_, if_pos rfl, hkind⟩
    · exact ⟨o, (if_neg hx).trans hlook, rfl⟩
  | count => exact .inl ⟨rfl, fun _ hlook => ⟨_, hlook, rfl⟩⟩
  | @release y hmem =>
    cases hlook : h.lookup? y with
    | none =>
      rw [release_eq_self hlook]
      exact .inl (.refl i h)
    | some object =>
      by_cases hi : i = y.index
      · -- A handle that reaches an object is of the generation that its slot is in.
        refine .inr ⟨⟨y, hmem, hi.symm, by simp [hlook]⟩, ?_⟩
        rw [generationAt_release hlook, if_pos hi, hi, generationAt_of_lookup? hlook]
      · refine .inl ⟨?_, fun {x o} hx hlook' => ⟨o, ?_, rfl⟩⟩
        · rw [generationAt_release hlook, if_neg hi]
        · rw [lookup?_release, if_neg, hlook']
          rintro rfl
          exact hi hx.symm

/-- The next generation is another one. -/
theorem ne_add_one (generation : UInt32) : generation ≠ generation + 1 := by
  intro heq
  have hzero : (1 : UInt32) = 0 :=
    (UInt32.add_right_inj generation).1 (heq.symm.trans (UInt32.add_zero generation).symm)
  exact absurd hzero (by decide)

/-- Several changes by which only objects go that are there do no more than that to a slot: once its
object is gone there is no other one that could go. -/
theorem stays_or_loses (hb : h.Balanced) (hlive : ∀ x ∈ gone, (h.lookup? x).isSome)
    (hevolves : Evolves gone h t) (i : Nat) : Stays i h t ∨ Loses gone i h t := by
  induction hevolves with
  | refl => exact .inl (.refl i h)
  | @tail t u hevolves hchange ih =>
    have hfree := (hb.evolves hevolves).freeList
    rcases hchange.stays_or_loses hfree i with htu | htu
    · rcases ih with hht | hht
      · exact .inl (hht.trans htu)
      · exact .inr ⟨hht.live, htu.generation.trans hht.generation⟩
    · obtain ⟨x, hmem, hx, hlook⟩ := htu.live
      rcases ih with hht | hht
      · exact .inr ⟨⟨x, hmem, hx, hlive x hmem⟩, by rw [htu.generation, hht.generation]⟩
      · -- The object that goes now was there in the beginning, in a generation that is over.
        obtain ⟨o, hnow⟩ := Option.isSome_iff_exists.1 hlook
        obtain ⟨o', hthen⟩ := Option.isSome_iff_exists.1 (hlive x hmem)
        have hsame := (generationAt_of_lookup? hthen).trans (generationAt_of_lookup? hnow).symm
        rw [hx, hht.generation] at hsame
        exact absurd hsame (ne_add_one _)

/-! ### Operations -/

/-- An operation frees the object of a handle: by releasing it, by a collection that does not reach
it, or as the old storage of a buffer that has another one afterwards. -/
def Operation.Frees (op : Operation) (h : Heap) (x : Handle) : Prop :=
  match op with
  | release y => y = x
  | collect roots => ¬h.Reaches roots x
  | reserveBuffer r _ | resizeBuffer r _ | shrinkBuffer r =>
    ∃ header header', h.header r = .ok header ∧ header.storage = x ∧
      (op.after h).header r = .ok header' ∧ header'.storage ≠ x
  | _ => False

/-- What is freed is what is released, for the marks of a collection tell what is reached. -/
theorem mem_released_iff (hlook : h.lookup? x = some object) :
    x ∈ op.released h ↔ op.Frees h x := by
  cases op with
  | release y =>
    change ((h.lookup? x).isSome ∧ x = y) ↔ y = x
    simp [hlook, eq_comm]
  | collect roots =>
    have hmark : (h.marksFrom roots)[x.index]?.getD false = false ↔
        ¬(h.marksFrom roots)[x.index]? = some true := by
      cases (h.marksFrom roots)[x.index]? <;> simp
    simp [Operation.released, Operation.Frees, unmarkedHandles, hlook, hmark, marksFrom_iff hlook]
  | _ => exact Iff.rfl

/-- An operation leaves an object, with its kind, or frees it. -/
theorem lookup?_after (hb : h.Balanced) (hclear : op ≠ .clear) (hlook : h.lookup? x = some object) :
    (¬op.Frees h x ∧ ∃ object', (op.after h).lookup? x = some object' ∧
        object'.kind = object.kind) ∨
      op.Frees h x ∧ (op.after h).lookup? x = none := by
  have hreleases := releases_after hclear hb.freeList
  rw [← mem_released_iff hlook]
  rcases stays_or_loses hb hreleases.live hreleases.evolves x.index with hstays | hloses
  · obtain ⟨object', hlook', hkind⟩ := hstays.object rfl hlook
    refine .inl ⟨fun hmem => ?_, object', hlook', hkind⟩
    rw [hreleases.gone x hmem] at hlook'
    cases hlook'
  · -- The object that the slot has lost is the one of the handle, for a slot has but one.
    obtain ⟨y, hmem, hindex, hlive⟩ := hloses.live
    obtain ⟨o, hlook'⟩ := Option.isSome_iff_exists.1 hlive
    obtain rfl := eq_of_index_eq hlook hlook' hindex
    exact .inr ⟨hmem, hreleases.gone y hmem⟩

/-- An operation takes the object of a slot away. -/
def Operation.vacates (op : Operation) (h : Heap) (i : Nat) : Bool :=
  (h.lookup? ⟨i, h.generationAt i⟩).isSome && ((op.after h).lookup? ⟨i, h.generationAt i⟩).isNone

/-- The generation of a slot is the next one after an operation that takes its object away, and the
same one after the others. -/
theorem generationAt_after (hb : h.Balanced) (hclear : op ≠ .clear) (i : Nat) :
    (op.after h).generationAt i =
      h.generationAt i + UInt32.ofNat (if op.vacates h i then 1 else 0) := by
  -- The operation comes down to single changes, of which at most one takes the object of the slot.
  have hreleases := releases_after hclear hb.freeList
  rcases stays_or_loses hb hreleases.live hreleases.evolves i with hstays | hloses
  · have hnot : op.vacates h i = false := by
      cases hlook : h.lookup? ⟨i, h.generationAt i⟩ with
      | none => simp [Operation.vacates, hlook]
      | some object =>
        obtain ⟨object', hlook', -⟩ := hstays.object rfl hlook
        simp [Operation.vacates, hlook']
    rw [hnot]
    exact hstays.generation.trans (add_ofNat_zero _).symm
  · have hvacates : op.vacates h i = true := by
      obtain ⟨x, hmem, hx, hlive⟩ := hloses.live
      obtain ⟨object, hlook⟩ := Option.isSome_iff_exists.1 hlive
      rw [Operation.vacates, ← eq_of_lookup? hlook hx, hreleases.gone x hmem, hlook]
      rfl
    rw [hvacates]
    exact hloses.generation

/-! ### Allocations -/

/-- A reference has reached nothing before, and reaches an object of its kind now. -/
def New (h : Heap) (r : HeapRef) (t : Heap) : Prop :=
  h.lookup? r.handle = none ∧ ∃ object, t.deref r = .ok object

theorem new_alloc (hfree : h.FreeList) (object : HeapObject) (bytes : Nat) :
    Ensures (do reserve bytes; insert object) h (fun r t => New h r t) fun _ _ => True := by
  rw [ensures_bind, ensures_reserve]
  refine ⟨fun _ => ?_, fun _ => trivial⟩
  rw [ensures_insert]
  refine ⟨lookup?_nextHandle hfree, object, deref_eq_ok_iff.2 ⟨?_, rfl⟩⟩
  rw [lookup?_store hfree, if_pos rfl]

theorem new_allocBuffer (hfree : h.FreeList) (capacity : Nat) :
    Ensures (allocBuffer capacity) h (fun r t => New h r t) fun _ _ => True := by
  rw [allocBuffer, ensures_bind, ensures_reserve]
  refine ⟨fun _ => ?_, fun _ => trivial⟩
  rw [ensures_bind, ensures_insert, ensures_insert]
  refine ⟨(fresh_storeBuffer hfree (zeroBytes capacity)).2,
    .buffer { size := 0, capacity, storage := h.nextHandle }, deref_eq_ok_iff.2 ⟨?_, rfl⟩⟩
  exact (lookup?_storeBuffer hfree _ _ _).trans (if_pos rfl)

theorem new_allocate (hfree : h.FreeList) (kind : ObjectKind) (size : Nat) :
    Ensures (allocate kind size) h (fun r t => New h r t) fun _ _ => True := by
  cases kind with
  | fixedBuffer => exact new_alloc hfree _ size
  | buffer => exact new_allocBuffer hfree size
  | closure => trivial
  | string => exact new_alloc hfree _ size

/-- An operation that answers a reference is an allocation, and the reference is new. -/
theorem new_of_made (hfree : h.FreeList) (hrun : op.run h = .ok (.made r) t) : New h r t := by
  have hmade : ∀ {act : Action HeapRef}, op.run = Reply.made <$> act →
      Ensures act h (fun r t => New h r t) (fun _ _ => True) → New h r t := by
    intro act hop hact
    rw [hop] at hrun
    have hnew : Ensures (Reply.made <$> act) h (fun reply t => ∀ r, reply = .made r → New h r t)
        fun _ _ => True := by
      rw [ensures_map]
      refine hact.mono (fun r t hr r' heq => ?_) fun _ _ => id
      obtain rfl := Reply.made.inj heq
      exact hr
    exact hnew.of_ok hrun r rfl
  -- The other operations answer something else.
  have hother : ∀ {α : Type} {act : Action α} {f : α → Reply}, op.run = f <$> act →
      (∀ a, f a ≠ .made r) → New h r t := by
    intro α act f hop hf
    rw [hop] at hrun
    have hne : Ensures (f <$> act) h (fun reply _ => reply ≠ .made r) fun _ _ => True := by
      rw [ensures_map]
      exact (ensures_result act h).mono (fun a _ _ => hf a) fun _ _ _ => trivial
    exact absurd rfl (hne.of_ok hrun)
  cases op with
  | allocate kind size => exact hmade rfl (new_allocate hfree kind size)
  | allocString text => exact hmade rfl (new_alloc hfree (.string text) _)
  | allocBuffer capacity => exact hmade rfl (new_allocBuffer hfree capacity)
  | allocClosure routine upvalues => exact hmade rfl (new_alloc hfree (.closure routine upvalues) _)
  | _ => exact hother rfl nofun

/-! ### Histories -/

/-- How often a slot loses its object in the course of some operations. -/
def timesFreed (i : Nat) : List Operation → Heap → Nat
  | [], _ => 0
  | op :: ops, h => (if op.vacates h i then 1 else 0) + timesFreed i ops (op.after h)

/-- One of some operations frees the object of a handle. -/
def FreedIn (x : Handle) : List Operation → Heap → Prop
  | [], _ => False
  | op :: ops, h => op.Frees h x ∨ FreedIn x ops (op.after h)

theorem afterAll_append (ops ops' : List Operation) (h : Heap) :
    afterAll (ops ++ ops') h = afterAll ops' (afterAll ops h) :=
  List.foldl_append

theorem timesFreed_append (i : Nat) (ops ops' : List Operation) (h : Heap) :
    timesFreed i (ops ++ ops') h = timesFreed i ops h + timesFreed i ops' (afterAll ops h) := by
  induction ops generalizing h with
  | nil => exact (Nat.zero_add _).symm
  | cons op ops ih =>
    rw [List.cons_append, timesFreed, timesFreed, ih, Nat.add_assoc]
    rfl

theorem freedIn_append (x : Handle) (ops ops' : List Operation) (h : Heap) :
    FreedIn x (ops ++ ops') h ↔ FreedIn x ops h ∨ FreedIn x ops' (afterAll ops h) := by
  induction ops generalizing h with
  | nil => simp [FreedIn, afterAll]
  | cons op ops ih =>
    rw [List.cons_append, FreedIn, FreedIn, ih, or_assoc]
    rfl

/-- A slot loses no more objects than there are operations. -/
theorem timesFreed_le_length (i : Nat) (ops : List Operation) (h : Heap) :
    timesFreed i ops h ≤ ops.length := by
  induction ops generalizing h with
  | nil => exact Nat.le_refl 0
  | cons op ops ih =>
    have hrest := ih (op.after h)
    rw [timesFreed, List.length_cons]
    split <;> omega

/-- The generation of a slot counts how often it has lost its object. -/
theorem generationAt_afterAll (hacc : h.Accounts) (hclear : .clear ∉ ops) (i : Nat) :
    (afterAll ops h).generationAt i = h.generationAt i + UInt32.ofNat (timesFreed i ops h) := by
  induction ops generalizing h with
  | nil => exact (add_ofNat_zero _).symm
  | cons op ops ih =>
    rw [List.mem_cons, not_or] at hclear
    calc (afterAll ops (op.after h)).generationAt i
        = (op.after h).generationAt i + UInt32.ofNat (timesFreed i ops (op.after h)) :=
          ih (hacc.after op) hclear.2
      _ = h.generationAt i + UInt32.ofNat (timesFreed i (op :: ops) h) := by
          rw [generationAt_after hacc.balanced (Ne.symm hclear.1), add_ofNat_add_ofNat, timesFreed]

/-- When an object was freed, its slot has lost it at least this once. -/
theorem timesFreed_pos (hacc : h.Accounts) (hclear : .clear ∉ ops)
    (hlook : h.lookup? x = some object) :
    (¬FreedIn x ops h ∧ ∃ object', (afterAll ops h).lookup? x = some object' ∧
        object'.kind = object.kind) ∨
      FreedIn x ops h ∧ 0 < timesFreed x.index ops h := by
  induction ops generalizing h object with
  | nil => exact .inl ⟨id, object, hlook, rfl⟩
  | cons op ops ih =>
    rw [List.mem_cons, not_or] at hclear
    rw [FreedIn, timesFreed]
    -- Either the first operation leaves the object, and the induction goes on with it, or it frees
    -- it.
    rcases lookup?_after hacc.balanced (Ne.symm hclear.1) hlook with
      ⟨hkept, object', hlook', hkind⟩ | ⟨hfrees, hgone⟩
    · rcases ih (hacc.after op) hclear.2 hlook' with ⟨hnot, object'', hlook'', hkind'⟩ | ⟨hin, hpos⟩
      · exact .inl ⟨not_or.2 ⟨hkept, hnot⟩, object'', hlook'', hkind'.trans hkind⟩
      · exact .inr ⟨.inr hin, Nat.add_pos_right _ hpos⟩
    · refine .inr ⟨.inl hfrees, Nat.add_pos_left ?_ _⟩
      have hvacates : op.vacates h x.index = true := by
        rw [Operation.vacates, ← eq_of_lookup? hlook rfl, hlook, hgone]
        rfl
      rw [hvacates]
      exact Nat.one_pos

/-- An object is there as long as it was not freed, and its handle reaches nothing from then on,
however often the slot is used again. Otherwise the slot has lost as many objects as there are
generations. -/
theorem lookup?_afterAll (hacc : h.Accounts) (hclear : .clear ∉ ops)
    (hfew : timesFreed x.index ops h < 2 ^ 32) (hlook : h.lookup? x = some object) :
    (¬FreedIn x ops h ∧ ∃ object', (afterAll ops h).lookup? x = some object' ∧
        object'.kind = object.kind) ∨
      FreedIn x ops h ∧ (afterAll ops h).lookup? x = none := by
  refine (timesFreed_pos hacc hclear hlook).imp id fun ⟨hin, hpos⟩ => ⟨hin, ?_⟩
  have hgeneration := generationAt_afterAll hacc hclear x.index
  rw [generationAt_of_lookup? hlook] at hgeneration
  cases hnow : (afterAll ops h).lookup? x with
  | none => rfl
  | some object' =>
    -- It would have the generation that it had in the beginning.
    rw [generationAt_of_lookup? hnow] at hgeneration
    have hlost : Lost (timesFreed x.index ops h) (afterAll ops h) x :=
      ⟨_, Nat.le_refl _, hpos, some object', by
        rw [← hgeneration]
        exact lookup?_eq_some_iff.1 hnow⟩
    rw [hlost.lookup? hfew] at hnow
    cases hnow

/-! ### Accesses -/

/-- What can be done through a reference. -/
inductive Access
  /-- The object is looked at. -/
  | object
  /-- The text of a string is read. -/
  | string
  /-- The routine and the upvalues of a closure are read. -/
  | closure
  /-- The bytes of a fixed buffer are read. -/
  | fixedBytes
  /-- Bytes of a fixed buffer are overwritten. -/
  | writeFixed (position : Nat) (source : ByteArray)
  /-- The header of a growable buffer is read. -/
  | header
  /-- The bytes in use of a growable buffer are read. -/
  | bufferBytes
  /-- One of them is read. -/
  | bufferByte (position : Nat)
  /-- Some of them are overwritten. -/
  | writeBuffer (position : Nat) (source : ByteArray)
  /-- The capacity of a growable buffer is raised. -/
  | reserve (capacity : Nat)
  /-- Its size is set. -/
  | resize (size : Nat)
  /-- Its capacity is cut down. -/
  | shrink

/-- The action that an access through a reference is. -/
def Access.run (r : HeapRef) : Access → Action Unit
  | .object => discard <| observe (·.deref r)
  | .string => discard <| observe (·.string r)
  | .closure => discard <| observe (·.closure r)
  | .fixedBytes => discard <| observe (·.fixedBytes r)
  | .writeFixed position source => Heap.writeFixed r position source
  | .header => discard <| observe (·.header r)
  | .bufferBytes => discard <| observe (·.bufferBytes r)
  | .bufferByte position => discard <| observe (·.bufferByte r position)
  | .writeBuffer position source => Heap.writeBuffer r position source
  | .reserve capacity => reserveBuffer r capacity
  | .resize size => resizeBuffer r size
  | .shrink => shrinkBuffer r

/-- The fault of an access through a stale reference. Overwriting bytes of a fixed buffer looks at
the tag first, so through a reference that is tagged as one to something else it fails because of
that. -/
def Access.fault (r : HeapRef) : Access → Fault
  | .writeFixed _ _ =>
    if r.kind = .fixedBuffer then .staleHandle
    else .typeMismatch ObjectKind.fixedBuffer.name r.kind.name
  | _ => .staleHandle

theorem deref_of_lookup?_eq_none (hnone : h.lookup? r.handle = none) :
    h.deref r = .error .staleHandle := by
  rw [deref, lookup, hnone]
  rfl

/-- An action that ensures to fail so fails so. -/
theorem eq_error_of_ensures {α : Type} {act : Action α} {fault : Fault}
    (hfails : Ensures act h (fun _ _ => False) fun fault' t => fault' = fault ∧ t = h) :
    act h = .error fault h := by
  cases hresult : act h with
  | ok a t => exact (hfails.of_ok hresult).elim
  | error fault' t =>
    obtain ⟨rfl, rfl⟩ := hfails.of_error hresult
    rfl

theorem discard_observe_of_error {α : Type} {look : Heap → Except Fault α} {fault : Fault}
    (hlook : look h = .error fault) : (discard (observe look) : Action Unit) h = .error fault h := by
  apply eq_error_of_ensures
  rw [ensures_discard, ensures_observe]
  simp [hlook]

theorem except_bind_of_error {α β : Type} {result : Except Fault α} {fault : Fault}
    (hresult : result = .error fault) (f : α → Except Fault β) :
    (result >>= f) = .error fault := by
  rw [hresult]
  rfl

/-- The tag comes first, and then the object is missed. -/
theorem writeFixed_of_lookup?_eq_none (hnone : h.lookup? r.handle = none) (position : Nat)
    (source : ByteArray) :
    Heap.writeFixed r position source h =
      .error ((Access.writeFixed position source).fault r) h := by
  have hregion : h.region r.handle = .error .staleHandle := by
    rw [region, lookup, hnone]
    rfl
  apply eq_error_of_ensures
  rw [Heap.writeFixed, ensures_bind, Access.fault]
  change Ensures (ofExcept (if r.kind = .fixedBuffer then .ok () else .error _)) h _ _
  split
  next =>
    rw [ensures_ofExcept]
    refine ⟨fun _ _ => ?_, by simp⟩
    rw [changeRegion, ensures_bind, ensures_discard, ensures_observe]
    simp [hregion]
  next =>
    rw [ensures_ofExcept]
    exact ⟨by simp, fun _ heq => ⟨(Except.error.inj heq).symm, rfl⟩⟩

/-- Through a stale reference nothing can be done, and nothing happens. -/
theorem run_of_lookup?_eq_none (hnone : h.lookup? r.handle = none) (access : Access) :
    access.run r h = .error (access.fault r) h := by
  have hderef := deref_of_lookup?_eq_none hnone
  have hheader : h.header r = .error .staleHandle := except_bind_of_error hderef _
  cases access with
  | object => exact discard_observe_of_error hderef
  | string => exact discard_observe_of_error (except_bind_of_error hderef _)
  | closure => exact discard_observe_of_error (except_bind_of_error hderef _)
  | fixedBytes => exact discard_observe_of_error (except_bind_of_error hderef _)
  | writeFixed position source => exact writeFixed_of_lookup?_eq_none hnone position source
  | header => exact discard_observe_of_error hheader
  | bufferBytes => exact discard_observe_of_error (except_bind_of_error hheader _)
  | bufferByte position => exact discard_observe_of_error (except_bind_of_error hheader _)
  | writeBuffer position source => exact observe_bind_of_error hheader _
  | reserve capacity => exact observe_bind_of_error hheader _
  | resize size => exact observe_bind_of_error hheader _
  | shrink => exact observe_bind_of_error hheader _

/-! ### The history of a handle -/

/-- An operation that succeeds leaves the heap that it answers. -/
theorem afterAll_of_run {reply : Reply} (hrun : op.run h = .ok reply t) (ops : List Operation) :
    afterAll (op :: ops) h = afterAll ops t := by
  simp [afterAll, Operation.after, hrun]

/-- A handle that reaches an object does not get to reach another one: if it has reached nothing in
between, it reaches nothing from then on. -/
theorem lookup?_eq_none_of_between (hacc : h.Accounts) {between later : List Operation}
    (hclear : .clear ∉ between ++ later) (hfew : timesFreed x.index (between ++ later) h < 2 ^ 32)
    (hlook : h.lookup? x = some object) (hgone : (afterAll between h).lookup? x = none) :
    (afterAll (between ++ later) h).lookup? x = none := by
  have hbetween : timesFreed x.index between h < 2 ^ 32 := by
    rw [timesFreed_append] at hfew
    exact Nat.lt_of_le_of_lt (Nat.le_add_right _ _) hfew
  have hnot : .clear ∉ between := fun hmem => hclear (List.mem_append_left _ hmem)
  rcases lookup?_afterAll hacc hnot hbetween hlook with ⟨-, object', hlook', -⟩ | ⟨hfreed, -⟩
  · rw [hgone] at hlook'
    cases hlook'
  · -- What was freed in between was freed in the whole.
    rcases lookup?_afterAll hacc hclear hfew hlook with ⟨hkept, -⟩ | ⟨-, hnone⟩
    · exact absurd ((freedIn_append _ _ _ _).2 (.inl hfreed)) hkept
    · exact hnone

end ActorMachine.Heap
