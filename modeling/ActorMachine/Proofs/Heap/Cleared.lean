import ActorMachine.Payload
import ActorMachine.Proofs.Breakpoints

/-!
# Heaps with cleared breakpoints

Code gets into a heap by the closures that are stored in it. No operation on a heap looks into that
code, so two heaps that are the same but for cleared breakpoints stay so.

* `HeapObject.Cleared`, `Heap.Cleared`: the second is the first with some breakpoints cleared in the
  code of closures.
* `agrees_insert`, `respects_resizeBuffer` and so on: whatever is done to both heaps, the same comes
  of it.
* `Payload.Cleared`: so do payloads that are captured, and what is rebuilt from them.
-/

namespace ActorMachine

namespace HeapObject

/-- The second object is the first one, unless some breakpoints in the code of a closure were
cleared. -/
inductive Cleared : HeapObject → HeapObject → Prop
  /-- It is the same. -/
  | same (object : HeapObject) : Cleared object object
  /-- It is a closure with the same upvalues. -/
  | closure {routine routine' : Routine} (code : routine.Cleared routine')
      (upvalues : Array Value) :
      Cleared (.closure routine upvalues) (.closure routine' upvalues)

variable {object object' : HeapObject}

theorem Cleared.kind (h : object.Cleared object') : object'.kind = object.kind := by
  cases h <;> rfl

theorem Cleared.charge (h : object.Cleared object') : object'.charge = object.charge := by
  cases h <;> rfl

theorem Cleared.references (h : object.Cleared object') :
    object'.references = object.references := by
  cases h <;> rfl

theorem Cleared.mismatch (h : object.Cleared object') (expected : ObjectKind) :
    object'.mismatch expected = object.mismatch expected := by
  rw [HeapObject.mismatch, HeapObject.mismatch, h.kind]

theorem Cleared.routine? (h : object.Cleared object') :
    Option.Rel Routine.Cleared object.routine? object'.routine? := by
  cases h with
  | same =>
    cases object with
    | closure routine => exact .some (Routine.cleared_refl routine)
    | _ => exact .none
  | closure hcode => exact .some hcode

end HeapObject

/-- The occupants of two slots are the same but for cleared breakpoints. -/
structure Slot.Cleared (a b : Slot) : Prop where
  /-- As many occupants came before. -/
  generation : b.generation = a.generation
  /-- Both have an occupant or neither has. -/
  object : Option.Rel HeapObject.Cleared a.object b.object

namespace Heap

/-- The second heap is the first one with some breakpoints cleared in the code of closures. -/
structure Cleared (h t : Heap) : Prop where
  /-- The settings are the same, -/
  config : t.config = h.config
  /-- and so are the objects but for breakpoints, -/
  slots : List.Forall₂ Slot.Cleared h.slots.toList t.slots.toList
  /-- the free slots, -/
  free : t.free = h.free
  /-- the bytes charged, -/
  used : t.used = h.used
  /-- those since the last collection, -/
  sinceCollection : t.sinceCollection = h.sinceCollection
  /-- and what was done so far. -/
  stats : t.stats = h.stats

variable {h t : Heap} {α : Type}

theorem cleared_empty (config : HeapConfig) : (empty config).Cleared (empty config) :=
  ⟨rfl, .nil, rfl, rfl, rfl, rfl⟩

theorem Cleared.size_slots (hc : h.Cleared t) : t.slots.size = h.slots.size := by
  simpa using hc.slots.length_eq.symm

theorem Cleared.slot (hc : h.Cleared t) (i : Nat) :
    Option.Rel Slot.Cleared h.slots[i]? t.slots[i]? := by
  simpa using rel_getElem? hc.slots i

theorem Cleared.available (hc : h.Cleared t) : t.available = h.available := by
  rw [Heap.available, Heap.available, hc.config, hc.used]

theorem Cleared.shouldCollect (hc : h.Cleared t) : t.shouldCollect = h.shouldCollect := by
  rw [Heap.shouldCollect, Heap.shouldCollect, hc.config, hc.sinceCollection]

theorem Cleared.room (hc : h.Cleared t) (bytes : Nat) : t.room bytes = h.room bytes := by
  rw [Heap.room, Heap.room, hc.available]

/-- The routines of both heaps are the same but for breakpoints. -/
theorem Cleared.routines (hc : h.Cleared t) :
    List.Forall₂ Routine.Cleared h.routines t.routines := by
  have hslot {a b : Slot} (hab : a.Cleared b) :
      Option.Rel Routine.Cleared (a.object.bind HeapObject.routine?)
        (b.object.bind HeapObject.routine?) :=
    rel_bind hab.object fun _ _ ho => ho.routine?
  exact List.rel_filterMap @hslot hc.slots

/-! ### Looking objects up -/

/-- A handle reaches the same object. -/
theorem Cleared.lookup? (hc : h.Cleared t) (handle : Handle) :
    Option.Rel HeapObject.Cleared (h.lookup? handle) (t.lookup? handle) := by
  rw [Heap.lookup?, Heap.lookup?]
  rcases eq_of_rel (hc.slot handle.index) with ⟨hnone, hnone'⟩ | ⟨slot, slot', hslot, hslot', hs⟩
  · rw [hnone, hnone']
    exact .none
  · rw [hslot, hslot']
    simp only [hs.generation]
    split
    next => exact hs.object
    next => exact .none

theorem Cleared.lookup (hc : h.Cleared t) (handle : Handle) :
    Alike HeapObject.Cleared (h.lookup handle) (t.lookup handle) := by
  rw [Heap.lookup, Heap.lookup]
  rcases eq_of_rel (hc.lookup? handle) with ⟨hnone, hnone'⟩ | ⟨object, object', hlook, hlook', ho⟩
  · rw [hnone, hnone']
    exact .error _
  · rw [hlook, hlook']
    exact .ok ho

theorem Cleared.deref (hc : h.Cleared t) (r : HeapRef) :
    Alike HeapObject.Cleared (h.deref r) (t.deref r) := by
  refine (hc.lookup r.handle).bind fun object object' ho => ?_
  rw [ho.kind, ho.mismatch]
  split
  next => exact .ok ho
  next => exact .error _

/-- What is read from an object that is no closure is the same. -/
theorem Cleared.read_deref (hc : h.Cleared t) (r : HeapRef) {read : HeapObject → Except Fault α}
    (hread : ∀ object object', object.Cleared object' → read object' = read object) :
    (t.deref r >>= read) = (h.deref r >>= read) :=
  Alike.eq <| (hc.deref r).bind fun object object' ho => by
    rw [hread object object' ho]
    exact alike_refl _

theorem Cleared.string (hc : h.Cleared t) (r : HeapRef) : t.string r = h.string r := by
  refine hc.read_deref r fun object object' ho => ?_
  cases ho <;> rfl

theorem Cleared.header (hc : h.Cleared t) (r : HeapRef) : t.header r = h.header r := by
  refine hc.read_deref r fun object object' ho => ?_
  cases ho <;> rfl

theorem Cleared.region (hc : h.Cleared t) (handle : Handle) :
    t.region handle = h.region handle := by
  refine Alike.eq <| (hc.lookup handle).bind fun object object' ho => ?_
  cases ho with
  | same => exact alike_refl _
  | closure => exact .error _

theorem Cleared.bufferBytes (hc : h.Cleared t) (r : HeapRef) :
    t.bufferBytes r = h.bufferBytes r := by
  simp only [Heap.bufferBytes, hc.header, hc.region]

theorem Cleared.bufferByte (hc : h.Cleared t) (r : HeapRef) (position : Nat) :
    t.bufferByte r position = h.bufferByte r position := by
  simp only [Heap.bufferByte, hc.header, hc.region]

/-- A closure has the same upvalues, and its code is the same but for breakpoints. -/
theorem Cleared.closure (hc : h.Cleared t) (r : HeapRef) :
    Alike (fun found found' => found.1.Cleared found'.1 ∧ found'.2 = found.2)
      (h.closure r) (t.closure r) := by
  refine (hc.deref r).bind fun object object' ho => ?_
  cases ho with
  | same =>
    cases object with
    | closure routine upvalues => exact .ok ⟨Routine.cleared_refl routine, rfl⟩
    | _ => exact .error _
  | closure hcode => exact .ok ⟨hcode, rfl⟩

/-! ### Storing and releasing -/

theorem Cleared.nextHandle (hc : h.Cleared t) : t.nextHandle = h.nextHandle := by
  rw [Heap.nextHandle, Heap.nextHandle, hc.free, hc.size_slots]
  split
  next index _ _ =>
    rcases eq_of_rel (hc.slot index) with ⟨hnone, hnone'⟩ | ⟨slot, slot', hslot, hslot', hs⟩
    · rw [hnone, hnone']
    · rw [hslot, hslot', Option.map_some, Option.map_some, hs.generation]
  next => rfl

/-- An object is stored in the same slot. -/
theorem Cleared.store (hc : h.Cleared t) {object object' : HeapObject}
    (ho : object.Cleared object') :
    (t.store object').1 = (h.store object).1 ∧ (h.store object).2.Cleared (t.store object').2 := by
  have hslot : Slot.Cleared ⟨h.nextHandle.generation, some object⟩
      ⟨h.nextHandle.generation, some object'⟩ := ⟨rfl, .some ho⟩
  refine ⟨hc.nextHandle, ?_⟩
  simp only [Heap.store, hc.nextHandle, ho.charge, hc.free, hc.used, hc.sinceCollection, hc.stats]
  cases h.free with
  | nil =>
    refine ⟨hc.config, ?_, rfl, rfl, rfl, rfl⟩
    simpa using List.rel_append hc.slots (.cons hslot .nil)
  | cons index free =>
    refine ⟨hc.config, ?_, rfl, rfl, rfl, rfl⟩
    simpa using forall₂_set hc.slots hslot index

theorem Cleared.release (hc : h.Cleared t) (handle : Handle) :
    (h.release handle).Cleared (t.release handle) := by
  rw [Heap.release, Heap.release]
  rcases eq_of_rel (hc.lookup? handle) with ⟨hnone, hnone'⟩ | ⟨object, object', hlook, hlook', ho⟩
  · rw [hnone, hnone']
    exact hc
  · rw [hlook, hlook']
    simp only [ho.charge, hc.free, hc.used, hc.stats]
    refine ⟨hc.config, ?_, rfl, rfl, hc.sinceCollection, rfl⟩
    simpa using forall₂_set hc.slots ⟨rfl, .none⟩ handle.index

/-- A change that does the same to objects that are the same but for breakpoints. -/
theorem Cleared.update (hc : h.Cleared t) {change : HeapObject → HeapObject}
    (hchange : ∀ object object', object.Cleared object' → (change object).Cleared (change object'))
    (handle : Handle) : (h.update handle change).Cleared (t.update handle change) := by
  refine { hc with slots := ?_ }
  have hslots := forall₂_modify hc.slots (fun a b hab => (⟨hab.generation,
    rel_map hab.object hchange⟩ : Slot.Cleared { a with object := a.object.map change }
      { b with object := b.object.map change })) handle.index
  simpa [Heap.update] using hslots

/-! ### Collection -/

/-- Tracing goes the same way. -/
theorem Cleared.mark (hc : h.Cleared t) (marks : Array Bool) (work : List Handle) :
    t.mark marks work = h.mark marks work := by
  induction marks, work using mark.induct h with
  | case1 marks => rw [Heap.mark, Heap.mark]
  | case2 marks handle work hlook ih =>
    rw [Heap.mark, Heap.mark, hlook, eq_none_of_rel (hc.lookup? handle) hlook]
    exact ih
  | case3 marks handle work object hlook hi hm ih =>
    obtain ⟨object', hlook', ho⟩ := exists_of_rel (hc.lookup? handle) hlook
    rw [Heap.mark, Heap.mark, hlook, hlook']
    simpa only [dif_pos hi, dif_pos hm, ho.references] using ih
  | case4 marks handle work object hlook hi hm ih =>
    obtain ⟨object', hlook', -⟩ := exists_of_rel (hc.lookup? handle) hlook
    rw [Heap.mark, Heap.mark, hlook, hlook']
    simpa only [dif_pos hi, dif_neg hm] using ih
  | case5 marks handle work object hlook hi ih =>
    obtain ⟨object', hlook', -⟩ := exists_of_rel (hc.lookup? handle) hlook
    rw [Heap.mark, Heap.mark, hlook, hlook']
    simpa only [dif_neg hi] using ih

theorem Cleared.marksFrom (hc : h.Cleared t) (roots : List Value) :
    t.marksFrom roots = h.marksFrom roots := by
  rw [Heap.marksFrom, Heap.marksFrom, hc.size_slots, hc.mark]

/-- Sweeping releases the same. -/
theorem Cleared.sweepSlot {acc acc' : Nat × Heap} (hc : acc'.1 = acc.1 ∧ acc.2.Cleared acc'.2)
    (marks : Array Bool) (index : Nat) :
    (Heap.sweepSlot marks acc' index).1 = (Heap.sweepSlot marks acc index).1 ∧
      (Heap.sweepSlot marks acc index).2.Cleared (Heap.sweepSlot marks acc' index).2 := by
  obtain ⟨freed, h⟩ := acc
  obtain ⟨_, t⟩ := acc'
  obtain ⟨rfl, hc⟩ := hc
  simp only [Heap.sweepSlot]
  -- The slots match, so either both are vacant or both hold objects under the same mark.
  rcases eq_of_rel (hc.slot index) with ⟨hnone, hnone'⟩ |
    ⟨⟨generation, occupant⟩, ⟨generation', occupant'⟩, hslot, hslot', rfl, ho⟩
  · rw [hnone, hnone']
    exact ⟨rfl, hc⟩
  · rw [hslot, hslot']
    cases ho with
    | none => exact ⟨rfl, hc⟩
    | some ho =>
      dsimp only
      split
      next => exact ⟨rfl, hc⟩
      next => exact ⟨rfl, hc.release _⟩

/-- A collection releases the same objects. -/
theorem Cleared.collect (hc : h.Cleared t) (roots : List Value) :
    (t.collect roots).1 = (h.collect roots).1 ∧
      (h.collect roots).2.Cleared (t.collect roots).2 := by
  -- The induction is over the slots that are swept, and the same number has been freed each time.
  have hfold (marks : Array Bool) (indices : List Nat) (acc acc' : Nat × Heap)
      (hacc : acc'.1 = acc.1 ∧ acc.2.Cleared acc'.2) :
      (indices.foldl (Heap.sweepSlot marks) acc').1 = (indices.foldl (Heap.sweepSlot marks) acc).1 ∧
        (indices.foldl (Heap.sweepSlot marks) acc).2.Cleared
          (indices.foldl (Heap.sweepSlot marks) acc').2 := by
    induction indices generalizing acc acc' with
    | nil => exact hacc
    | cons index indices ih => exact ih _ _ (Cleared.sweepSlot hacc marks index)
  have hcounted : Cleared
      { h with stats := { h.stats with collections := h.stats.collections + 1 } }
      { t with stats := { t.stats with collections := t.stats.collections + 1 } } :=
    { hc with stats := by rw [hc.stats] }
  obtain ⟨hfreed, hswept⟩ := hfold (h.marksFrom roots) (List.range h.slots.size)
    (0, { h with stats := { h.stats with collections := h.stats.collections + 1 } })
    (0, { t with stats := { t.stats with collections := t.stats.collections + 1 } }) ⟨rfl, hcounted⟩
  simp only [Heap.collect, hc.marksFrom, hc.size_slots]
  exact ⟨hfreed, { hswept with sinceCollection := rfl }⟩

/-! ### Actions -/

/-- The same is looked up. -/
theorem respects_observe {look : Heap → Except Fault α}
    (hlook : ∀ h t : Heap, h.Cleared t → look t = look h) :
    Respects Cleared Eq (observe look) :=
  agrees_get_bind fun h t hc => by
    rw [hlook h t hc]
    exact agrees_ofExcept (alike_refl _)

theorem respects_reserve (bytes : Nat) : Respects Cleared Eq (reserve bytes) :=
  agrees_get_bind fun h t hc => by
    rw [hc.room]
    exact agrees_ofExcept (alike_refl _)

theorem agrees_insert {object object' : HeapObject} (ho : object.Cleared object') :
    Agrees Cleared Eq (insert object) (insert object') :=
  agrees_modifyGet fun h t hc => by
    obtain ⟨hhandle, hstored⟩ := hc.store ho
    refine ⟨?_, hstored⟩
    change HeapRef.mk object.kind (h.store object).1 = HeapRef.mk object'.kind (t.store object').1
    rw [hhandle, ho.kind]

theorem respects_allocString (text : String) : Respects Cleared Eq (allocString text) :=
  (respects_reserve _).andThen fun _ => agrees_insert (.same _)

theorem respects_allocFixed (size : Nat) : Respects Cleared Eq (allocFixed size) :=
  (respects_reserve _).andThen fun _ => agrees_insert (.same _)

theorem respects_allocBuffer (capacity : Nat) : Respects Cleared Eq (allocBuffer capacity) :=
  (respects_reserve _).andThen fun _ => (agrees_insert (.same _)).andThen fun _ =>
    agrees_insert (.same _)

theorem agrees_allocClosure {routine routine' : Routine} (hcode : routine.Cleared routine')
    (upvalues : Array Value) :
    Agrees Cleared Eq (allocClosure routine upvalues) (allocClosure routine' upvalues) :=
  (respects_reserve _).andThen fun _ => agrees_insert (.closure hcode upvalues)

theorem respects_changeRegion (handle : Handle) (change : ByteArray → ByteArray) :
    Respects Cleared Eq (changeRegion handle change) := by
  refine (respects_observe fun h t hc => hc.region handle).discard.andThen fun _ => ?_
  refine agrees_modify fun h t hc => hc.update (fun object object' ho => ?_) handle
  cases ho with
  | same => exact .same _
  | closure hcode upvalues => exact .closure hcode upvalues

theorem respects_changeHeader (r : HeapRef) (change : BufferHeader → BufferHeader) :
    Respects Cleared Eq (changeHeader r change) := by
  refine (respects_observe fun h t hc => hc.header r).discard.andThen fun _ => ?_
  refine agrees_modify fun h t hc => hc.update (fun object object' ho => ?_) r.handle
  cases ho with
  | same => exact .same _
  | closure hcode upvalues => exact .closure hcode upvalues

theorem respects_writeFixed (r : HeapRef) (position : Nat) (source : ByteArray) :
    Respects Cleared Eq (writeFixed r position source) :=
  agrees_look_same fun _ => respects_changeRegion _ _

theorem respects_writeBuffer (r : HeapRef) (position : Nat) (source : ByteArray) :
    Respects Cleared Eq (writeBuffer r position source) :=
  (respects_observe fun _ _ hc => hc.header r).andThen fun _ => respects_changeRegion _ _

theorem respects_setCapacity (r : HeapRef) (capacity : Nat) :
    Respects Cleared Eq (setCapacity r capacity) := by
  refine (respects_observe fun h t hc => hc.header r).andThen fun header => ?_
  refine (respects_reserve _).andThen fun _ => ?_
  refine (respects_observe fun h t hc => hc.region _).andThen fun bytes => ?_
  refine (agrees_insert (.same _)).andThen fun storage => ?_
  exact (respects_changeHeader r _).andThen fun _ => agrees_modify fun _ _ hc => hc.release _

theorem respects_reserveBuffer (r : HeapRef) (capacity : Nat) :
    Respects Cleared Eq (reserveBuffer r capacity) := by
  refine (respects_observe fun h t hc => hc.header r).andThen fun header => ?_
  split
  next => exact respects_setCapacity r capacity
  next => exact agrees_pure rfl

theorem respects_resizeBuffer (r : HeapRef) (size : Nat) :
    Respects Cleared Eq (resizeBuffer r size) := by
  have hheader := respects_observe fun h t hc => Cleared.header hc r
  have hlast : Respects Cleared Eq
      (do
        let header ← observe (·.header r)
        changeHeader r fun header => { header with size }
        if header.size < size then
          changeRegion header.storage (zeroFill · header.size size)) := by
    refine hheader.andThen fun header => (respects_changeHeader r _).andThen fun _ => ?_
    split
    next => exact respects_changeRegion _ _
    next => exact agrees_pure rfl
  refine hheader.andThen fun header => ?_
  dsimp only
  split
  next => exact (respects_setCapacity r _).andThen fun _ => hlast
  next => exact hlast

theorem respects_shrinkBuffer (r : HeapRef) : Respects Cleared Eq (shrinkBuffer r) :=
  (respects_observe fun _ _ hc => hc.header r).andThen fun _ => respects_setCapacity r _

end Heap

/-! ### Payloads -/

namespace Payload

/-- The second payload is the first one with some breakpoints cleared in the code of closures. -/
inductive Cleared : Payload → Payload → Prop
  /-- It is the same. -/
  | same (payload : Payload) : Cleared payload payload
  /-- It is a closure, and its upvalues are the same but for breakpoints. -/
  | closure {routine routine' : Routine} {upvalues upvalues' : List Payload}
      (code : routine.Cleared routine') (captured : List.Forall₂ Cleared upvalues upvalues') :
      Cleared (.closure routine upvalues) (.closure routine' upvalues')

theorem cleared_all_refl (payloads : List Payload) : List.Forall₂ Cleared payloads payloads :=
  List.forall₂_same.2 fun payload _ => .same payload

/-- What a closure becomes is a closure. -/
theorem Cleared.of_closure {routine : Routine} {upvalues : List Payload} {payload : Payload}
    (h : (Payload.closure routine upvalues).Cleared payload) :
    ∃ routine' upvalues', payload = .closure routine' upvalues' ∧ routine.Cleared routine' ∧
      List.Forall₂ Cleared upvalues upvalues' := by
  cases h with
  | same => exact ⟨_, _, rfl, Routine.cleared_refl routine, cleared_all_refl upvalues⟩
  | closure hcode hupvalues => exact ⟨_, _, rfl, hcode, hupvalues⟩

mutual

/-- The same bytes will be charged. -/
theorem Cleared.heapBytes {payload payload' : Payload} (h : payload.Cleared payload') :
    payload'.heapBytes = payload.heapBytes := by
  cases h with
  | same => rfl
  | closure _ hupvalues =>
    rw [Payload.heapBytes, Payload.heapBytes, hupvalues.length_eq, heapBytesAll_eq hupvalues]

theorem heapBytesAll_eq {payloads payloads' : List Payload}
    (h : List.Forall₂ Cleared payloads payloads') :
    heapBytesAll payloads' = heapBytesAll payloads := by
  cases h with
  | nil => rfl
  | cons hfirst hrest =>
    rw [heapBytesAll, heapBytesAll, hfirst.heapBytes, heapBytesAll_eq hrest]

end

mutual

theorem Cleared.routines {payload payload' : Payload} (h : payload.Cleared payload') :
    List.Forall₂ Routine.Cleared payload.routines payload'.routines := by
  cases h with
  | same => exact List.forall₂_same.2 fun r _ => Routine.cleared_refl r
  | closure hcode hupvalues => exact .cons hcode (routinesAll_cleared hupvalues)

theorem routinesAll_cleared {payloads payloads' : List Payload}
    (h : List.Forall₂ Cleared payloads payloads') :
    List.Forall₂ Routine.Cleared (routinesAll payloads) (routinesAll payloads') := by
  cases h with
  | nil => exact .nil
  | cons hfirst hrest => exact List.rel_append hfirst.routines (routinesAll_cleared hrest)

end

/-- Two captures come to the same, or neither has an answer. -/
def Likewise {α α' : Type} (R : α → α' → Prop) (x : ExceptT Fault Option α)
    (x' : ExceptT Fault Option α') : Prop :=
  Option.Rel (Alike R) x.run x'.run

theorem likewise_pure {α α' : Type} {R : α → α' → Prop} {a : α} {a' : α'} (h : R a a') :
    Likewise R (pure a) (pure a') :=
  .some (.ok h)

theorem Likewise.bind {α α' β β' : Type} {R : α → α' → Prop} {Q : β → β' → Prop}
    {x : ExceptT Fault Option β} {x' : ExceptT Fault Option β'} {f : β → ExceptT Fault Option α}
    {f' : β' → ExceptT Fault Option α'} (h : Likewise Q x x')
    (hf : ∀ b b', Q b b' → Likewise R (f b) (f' b')) : Likewise R (x >>= f) (x' >>= f') := by
  match x, x', h with
  | none, none, _ => exact .none
  | some _, some _, .some (.ok hb) => exact hf _ _ hb
  | some _, some _, .some (.error fault) => exact .some (.error fault)

theorem likewise_mapM {α β β' : Type} {Q : β → β' → Prop} {f : α → ExceptT Fault Option β}
    {f' : α → ExceptT Fault Option β'} (hf : ∀ a, Likewise Q (f a) (f' a)) (as : List α) :
    Likewise (List.Forall₂ Q) (as.mapM f) (as.mapM f') := by
  induction as with
  | nil => exact likewise_pure .nil
  | cons a as ih =>
    rw [List.mapM_cons, List.mapM_cons]
    exact (hf a).bind fun b b' hb => ih.bind fun bs bs' hbs => likewise_pure (.cons hb hbs)

/-- The same is captured at any depth, except that the code of closures may have lost
breakpoints. -/
theorem likewise_captureWithin {h t : Heap} (hc : h.Cleared t) (depth : Nat) (v : Value) :
    Likewise Cleared (captureWithin h depth v) (captureWithin t depth v) := by
  induction depth generalizing v with
  | zero =>
    cases v with
    | ref r => exact .none
    | _ => exact likewise_pure (.same _)
  | succ depth ih =>
    -- Whether the code of a closure differs or not, its upvalues are captured one level less deep.
    have hclosure {routine routine' : Routine} (hcode : routine.Cleared routine')
        (upvalues : Array Value) : Likewise Cleared
          (do return Payload.closure routine (← upvalues.toList.mapM (captureWithin h depth)))
          (do return Payload.closure routine' (← upvalues.toList.mapM (captureWithin t depth))) :=
      (likewise_mapM ih upvalues.toList).bind fun _ _ hups =>
        likewise_pure (.closure hcode hups)
    cases v with
    | ref r =>
      rw [captureWithin, captureWithin]
      refine Likewise.bind (.some (hc.deref r)) fun object object' ho => ?_
      cases ho with
      | closure hcode upvalues => exact hclosure hcode upvalues
      | same =>
        cases object with
        | closure routine upvalues => exact hclosure (Routine.cleared_refl routine) upvalues
        | buffer header =>
          rw [hc.bufferBytes]
          exact Likewise.bind (.some (alike_refl (h.bufferBytes r))) fun bytes _ heq =>
            heq ▸ likewise_pure (.same _)
        | fixedBuffer | string => exact likewise_pure (.same _)
    | _ => exact likewise_pure (.same _)

/-- The same is captured. -/
theorem alike_capture {h t : Heap} (hc : h.Cleared t) (v : Value) :
    Alike Cleared (capture h v) (capture t v) := by
  rw [capture, capture, hc.size_slots]
  rcases eq_of_rel (likewise_captureWithin hc (h.slots.size + 1) v) with
    ⟨hnone, hnone'⟩ | ⟨result, result', hsome, hsome', hresult⟩
  · rw [hnone, hnone']
    exact .error _
  · rw [hsome, hsome']
    exact hresult

mutual

/-- The same is rebuilt. -/
theorem agrees_materialize {payload payload' : Payload} (h : payload.Cleared payload') :
    Agrees Heap.Cleared Eq payload.materialize payload'.materialize := by
  cases payload with
  | closure routine upvalues =>
    obtain ⟨routine', upvalues', rfl, hcode, hupvalues⟩ := h.of_closure
    rw [materialize, materialize]
    refine (agrees_materializeAll hupvalues).andThen fun values => ?_
    exact (Heap.agrees_allocClosure hcode _).map fun _ _ => congrArg _
  | string text =>
    cases h
    rw [materialize]
    exact (Heap.respects_allocString text).map fun _ _ => congrArg _
  | fixedBuffer bytes =>
    cases h
    rw [materialize]
    refine (Heap.respects_allocFixed _).andThen fun r => ?_
    exact (Heap.respects_writeFixed r _ _).andThen fun _ => agrees_pure rfl
  | buffer bytes =>
    cases h
    rw [materialize]
    refine (Heap.respects_allocBuffer _).andThen fun r => ?_
    refine (Heap.respects_resizeBuffer r _).andThen fun _ => ?_
    exact (Heap.respects_writeBuffer r _ _).andThen fun _ => agrees_pure rfl
  | nil | bool | int | real | pid | native =>
    cases h
    rw [materialize]
    exact agrees_pure rfl

theorem agrees_materializeAll {payloads payloads' : List Payload}
    (h : List.Forall₂ Cleared payloads payloads') :
    Agrees Heap.Cleared Eq (materializeAll payloads) (materializeAll payloads') := by
  cases payloads with
  | nil =>
    cases h
    rw [materializeAll]
    exact agrees_pure rfl
  | cons payload payloads =>
    obtain ⟨payload', payloads', hfirst, hrest, rfl⟩ := List.forall₂_cons_left_iff.1 h
    rw [materializeAll, materializeAll]
    refine (agrees_materialize hfirst).andThen fun v => ?_
    exact (agrees_materializeAll hrest).andThen fun vs => agrees_pure rfl

end

end Payload

end ActorMachine
