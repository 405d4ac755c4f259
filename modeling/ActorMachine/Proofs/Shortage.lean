import ActorMachine.Proofs.Copying

/-!
# What a copy leaves behind that finds too little room

A payload is rebuilt piece by piece, upvalues before the closure that captures them, and room is
reserved for each piece on its own. A buffer is a single piece, for its header and its storage are
reserved together; a closure is not one with its upvalues.

* `pieces`: the sizes of the pieces of a payload, in the order in which they are allocated. They sum
  up to its costs (`sum_pieces`).
* `Makes`, `Stops`: some pieces were made, or only the first ones of them, for want of room.
* `ensures_materialize`: materializing makes the pieces of a payload or stops among them.
* `materialize_fails_iff`: where it fails, the heap is as before exactly if there was no room for
  the first piece already. Otherwise the pieces for which there was room stay.
-/

namespace ActorMachine

namespace Heap

variable {h t u : Heap} {fault : Fault} {bytes : Nat} {made more : List Nat}

/-- As many objects and bytes are held, and the same handles lead to the same objects. -/
structure AllocatesNothing (h t : Heap) : Prop where
  /-- There are as many objects. -/
  liveObjects : t.liveObjects = h.liveObjects
  /-- As many bytes are charged. -/
  used : t.used = h.used
  /-- Every handle leads where it led. -/
  lookup? : ∀ x, t.lookup? x = h.lookup? x

/-- Pieces of these sizes were added one after the other, each where there was room for it. -/
structure Makes (made : List Nat) (h t : Heap) : Prop extends Adds made.sum h t where
  /-- There was room for all of them. -/
  room : made.sum ≤ h.available
  /-- Each is one new object at least. -/
  grows : h.liveObjects + made.length ≤ t.liveObjects
  /-- Without a piece nothing has happened. -/
  eq_of_nil : made = [] → t = h

/-- Of some pieces the first ones were added, and then there was too little room for the next. -/
def Stops (pieces : List Nat) (h : Heap) (fault : Fault) (t : Heap) : Prop :=
  ∃ made needed rest, pieces = made ++ needed :: rest ∧ Makes made h t ∧
    t.available < needed ∧ fault = .outOfMemory needed t.available

/-! ### One piece after the other -/

theorem Makes.refl (hfree : h.FreeList) : Makes [] h h where
  toAdds := .refl hfree
  room := Nat.zero_le _
  grows := Nat.le_refl _
  eq_of_nil _ := rfl

theorem Makes.trans (hht : Makes made h t) (htu : Makes more t u) : Makes (made ++ more) h u where
  toAdds := by
    rw [List.sum_append]
    exact hht.toAdds.trans htu.toAdds
  room := by
    have hroom := htu.room
    have hmade := hht.room
    rw [hht.available] at hroom
    rw [List.sum_append]
    omega
  grows := by
    have hgrows := hht.grows
    have hmore := htu.grows
    rw [List.length_append]
    omega
  eq_of_nil hnil := by
    obtain ⟨hmade, hmore⟩ := List.append_eq_nil_iff.1 hnil
    rw [htu.eq_of_nil hmore, hht.eq_of_nil hmade]

/-- What stops among the first pieces does not come to the others. -/
theorem Stops.append (hstop : Stops made h fault t) : Stops (made ++ more) h fault t := by
  obtain ⟨done, needed, rest, rfl, hdone, hshort⟩ := hstop
  exact ⟨done, needed, rest ++ more, by simp, hdone, hshort⟩

/-- What stops after the first pieces were made has made them. -/
theorem Makes.stops (hht : Makes made h t) (hstop : Stops more t fault u) :
    Stops (made ++ more) h fault u := by
  obtain ⟨done, needed, rest, rfl, hdone, hshort⟩ := hstop
  exact ⟨made ++ done, needed, rest, by simp, hht.trans hdone, hshort⟩

/-- A piece that is one new object, or an object with what it rests on. -/
theorem Adds.makes {x : Handle} {object : HeapObject} (hadds : Adds bytes h t)
    (hroom : bytes ≤ h.available) (hfresh : h.lookup? x = none)
    (hlook : t.lookup? x = some object) : Makes [bytes] h t where
  toAdds := by rwa [List.sum_singleton]
  room := by rwa [List.sum_singleton]
  grows := hadds.liveObjects_lt hfresh hlook
  eq_of_nil := nofun

/-- Where there is no room for a piece, nothing is done. -/
theorem ensures_reserve_short {α : Type} {ok : α → Heap → Prop} {f : Unit → Action α}
    (hfree : h.FreeList) (hshort : h.available < bytes) :
    Ensures (reserve bytes >>= f) h ok (Stops [bytes] h) := by
  rw [ensures_bind, ensures_reserve]
  exact ⟨fun hroom => absurd hshort (Nat.not_lt.2 hroom),
    fun _ => ⟨[], bytes, [], rfl, .refl hfree, hshort, rfl⟩⟩

/-- An object is a piece. -/
theorem ensures_piece (hfree : h.FreeList) (object : HeapObject) (hbytes : object.charge = bytes) :
    Ensures (do reserve bytes; insert object) h (fun _ t => Makes [bytes] h t)
      (Stops [bytes] h) := by
  by_cases hroom : bytes ≤ h.available
  · exact ensures_alloc hfree object hbytes hroom fun r t hadds hfresh hlook _ =>
      hadds.makes hroom hfresh hlook
  · exact ensures_reserve_short hfree (Nat.not_le.1 hroom)

end Heap

namespace Payload

open Heap (Adds Makes Stops AllocatesNothing)

variable {h t : Heap} {config : HeapConfig} {p : Payload} {fault : Fault}

/-! ### The pieces of a payload -/

mutual

/-- The sizes of the pieces that materializing a payload allocates, in their order. -/
def pieces : Payload → List Nat
  | string text => [text.utf8ByteSize]
  | fixedBuffer bytes => [bytes.size]
  | buffer bytes => [bytes.size + HeapObject.headerBytes]
  | closure _ upvalues => piecesAll upvalues ++ [HeapObject.closureBytes upvalues.length]
  | _ => []

/-- The sizes of the pieces of several payloads. -/
def piecesAll : List Payload → List Nat
  | [] => []
  | p :: ps => p.pieces ++ piecesAll ps

end

mutual

/-- The pieces cost together what the payload costs. -/
theorem sum_pieces (p : Payload) : p.pieces.sum = p.heapBytes := by
  cases p with
  | string text | fixedBuffer bytes | buffer bytes => rw [pieces, heapBytes, List.sum_singleton]
  | closure routine upvalues =>
    rw [pieces, heapBytes, List.sum_append, List.sum_singleton, sum_piecesAll upvalues,
      Nat.add_comm]
  | _ => rfl

theorem sum_piecesAll (ps : List Payload) : (piecesAll ps).sum = heapBytesAll ps := by
  cases ps with
  | nil => rfl
  | cons p ps =>
    rw [piecesAll, heapBytesAll, List.sum_append, sum_pieces p, sum_piecesAll ps]

end

/-! ### Copies that run short -/

/-- A fixed buffer is a piece: nothing can fail once it is there. -/
theorem ensures_materializeFixed (hfree : h.FreeList) (bytes : ByteArray) :
    Ensures (fixedBuffer bytes).materialize h (fun _ t => Makes [bytes.size] h t)
      (Stops [bytes.size] h) := by
  by_cases hroom : bytes.size ≤ h.available
  · exact Heap.ensures_copyFixed hfree bytes hroom fun r t hadds hfresh hlook _ =>
      hadds.makes hroom hfresh hlook
  · rw [materialize, ensures_bind]
    exact Heap.ensures_reserve_short hfree (Nat.not_le.1 hroom)

/-- So is a growable buffer, whose header is reserved together with its storage. -/
theorem ensures_materializeBuffer (hfree : h.FreeList) (bytes : ByteArray) :
    Ensures (buffer bytes).materialize h
      (fun _ t => Makes [bytes.size + HeapObject.headerBytes] h t)
      (Stops [bytes.size + HeapObject.headerBytes] h) := by
  by_cases hroom : bytes.size + HeapObject.headerBytes ≤ h.available
  · exact Heap.ensures_copyBuffer hfree bytes hroom fun r t header hadds hfresh hheader _ =>
      hadds.makes hroom hfresh (Heap.header_eq_ok_iff.1 hheader).1
  · rw [materialize, ensures_bind]
    exact Heap.ensures_reserve_short hfree (Nat.not_le.1 hroom)

mutual

/-- Materializing makes the pieces of the payload, or it stops among them. -/
theorem ensures_materialize {h : Heap} (hfree : h.FreeList) (p : Payload) :
    Ensures p.materialize h (fun _ t => Makes p.pieces h t) (Stops p.pieces h) := by
  cases p with
  | string text =>
    rw [materialize, ensures_map]
    exact Heap.ensures_piece hfree (.string text) rfl
  | fixedBuffer bytes => exact ensures_materializeFixed hfree bytes
  | buffer bytes => exact ensures_materializeBuffer hfree bytes
  | closure routine upvalues =>
    rw [materialize, ensures_bind, pieces]
    refine (ensures_materializeAll hfree upvalues).mono ?_ fun _ _ => Stops.append
    rintro values t ⟨hlength, hmade⟩
    -- The upvalues stay where they are if the closure does not fit on top of them.
    rw [ensures_map, ← hlength]
    refine (Heap.ensures_piece hmade.freeList (.closure routine values.toArray) rfl).mono ?_ ?_
    · exact fun _ _ => hmade.trans
    · exact fun _ _ => hmade.stops
  | _ =>
    rw [materialize]
    exact .refl hfree

/-- Several payloads are rebuilt in turn, up to the first one that stops. -/
theorem ensures_materializeAll {h : Heap} (hfree : h.FreeList) (ps : List Payload) :
    Ensures (materializeAll ps) h
      (fun vs t => vs.length = ps.length ∧ Makes (piecesAll ps) h t) (Stops (piecesAll ps) h) := by
  cases ps with
  | nil =>
    rw [materializeAll]
    exact ⟨rfl, .refl hfree⟩
  | cons p ps =>
    rw [materializeAll, ensures_bind, piecesAll]
    refine (ensures_materialize hfree p).mono (fun v t hmade => ?_) fun _ _ => Stops.append
    rw [ensures_bind]
    refine (ensures_materializeAll hmade.freeList ps).mono ?_ fun _ _ => hmade.stops
    rintro vs u ⟨hlength, hmore⟩
    exact ⟨congrArg (· + 1) hlength, hmade.trans hmore⟩

end

/-- Materializing fails exactly if there is too little room for the whole payload. -/
theorem materialize_fails_iff (hreached : Heap.Reached config h) (p : Payload) :
    (∃ fault t, p.materialize h = .error fault t) ↔ h.available < p.heapBytes := by
  have hspec := ensures_materialize (Heap.balanced_of_reached hreached).freeList p
  rw [← sum_pieces]
  constructor
  · rintro ⟨fault, t, hfail⟩
    obtain ⟨made, needed, rest, hpieces, hmade, hshort, -⟩ := hspec.of_error hfail
    rw [hmade.available] at hshort
    rw [hpieces, List.sum_append, List.sum_cons]
    omega
  · intro hshort
    cases hrun : p.materialize h with
    | ok v t => exact absurd (hspec.of_ok hrun).room (Nat.not_le.2 hshort)
    | error fault t => exact ⟨fault, t, rfl⟩

/-- Exactly what a copy leaves behind that fails. There was room for some of the pieces of the
payload, which stay, and too little for the next one; all objects that were there are as they were.
So the heap is as before exactly if there was no room for the first piece already, and always if the
payload is a single piece. -/
theorem failed_materialize_leaves (hreached : Heap.Reached config h)
    (hfail : p.materialize h = .error fault t) :
    (∃ made needed rest, p.pieces = made ++ needed :: rest ∧
      made.sum ≤ h.available ∧ h.available < made.sum + needed ∧
      fault = .outOfMemory needed (h.available - made.sum) ∧
      t.used = h.used + made.sum ∧ h.liveObjects + made.length ≤ t.liveObjects ∧
      ∀ x object, h.lookup? x = some object → t.lookup? x = some object) ∧
    (AllocatesNothing h t ↔ ∃ first rest, p.pieces = first :: rest ∧ h.available < first) ∧
    (∀ bytes, p.pieces = [bytes] → AllocatesNothing h t) := by
  have hfree := (Heap.balanced_of_reached hreached).freeList
  obtain ⟨made, needed, rest, hpieces, hmade, hshort, hfault⟩ :=
    (ensures_materialize hfree p).of_error hfail
  have hroom := hmade.room
  rw [hmade.available] at hshort hfault
  have hsame : made = [] → AllocatesNothing h t := by
    intro hnil
    obtain rfl := hmade.eq_of_nil hnil
    exact ⟨rfl, rfl, fun _ => rfl⟩
  refine ⟨⟨made, needed, rest, hpieces, hroom, by omega, hfault, hmade.used, hmade.grows,
    fun _ _ => hmade.kept⟩, ⟨fun hsame => ?_, fun ⟨first, rest', hfirst, hlt⟩ => ?_⟩,
    fun bytes hsingle => ?_⟩
  · -- Every piece that was made is an object more.
    have hgrows := hmade.grows
    have hlive := hsame.liveObjects
    obtain rfl : made = [] := List.length_eq_zero_iff.1 (by omega)
    exact ⟨needed, rest, hpieces, by simpa using hshort⟩
  · cases made with
    | nil => exact hsame rfl
    | cons piece made =>
      -- There was room for the first piece.
      rw [hfirst, List.cons_append] at hpieces
      obtain ⟨rfl, -⟩ := List.cons.inj hpieces
      rw [List.sum_cons] at hroom
      omega
  · have hlength := congrArg List.length (hsingle.symm.trans hpieces)
    simp only [List.length_cons, List.length_nil, List.length_append] at hlength
    exact hsame (List.length_eq_zero_iff.1 (by omega))

/-- A closure that captures a text, another closure and a byte. -/
def costly : Payload :=
  .closure (.loose .blank) [.string "text", .closure (.loose .blank) [], .fixedBuffer ⟨#[1]⟩]

/-- There is room for all that the closure captures, but not for the closure. -/
theorem failed_materialize_leaves_costly :
    ∃ t, costly.materialize (.empty { heapLimit := 200 }) = .error (.outOfMemory 136 107) t ∧
      t.used = 93 ∧ t.liveObjects = 3 ∧ ¬ AllocatesNothing (.empty { heapLimit := 200 }) t := by
  obtain ⟨t, hfail, hused, hlive⟩ : ∃ t, costly.materialize (.empty { heapLimit := 200 }) =
      .error (.outOfMemory 136 107) t ∧ t.used = 93 ∧ t.liveObjects = 3 :=
    ⟨_, rfl, rfl, rfl⟩
  refine ⟨t, hfail, hused, hlive, fun hsame => ?_⟩
  obtain ⟨-, hiff, -⟩ := failed_materialize_leaves .empty hfail
  obtain ⟨first, rest, hpieces, hshort⟩ := hiff.1 hsame
  -- The text comes first, and there was room for it.
  have hcostly : costly.pieces = [4, 88, 1, 136] := by decide +kernel
  obtain ⟨rfl, -⟩ := List.cons.inj (hcostly.symm.trans hpieces)
  exact absurd hshort (by decide)

/-- The text that a closure captures stays when the closure finds no room, so a failure may well
allocate something. -/
theorem not_allocates_nothing :
    ¬ ∀ (config : HeapConfig) (h t : Heap) (p : Payload) (fault : Fault),
      Heap.Reached config h → p.materialize h = .error fault t → AllocatesNothing h t := by
  intro hclaim
  have hsame := hclaim { heapLimit := 100 } (.empty { heapLimit := 100 }) _
    (.closure (.loose .blank) [.string "up"]) _ .empty rfl
  exact absurd hsame.used (by decide +kernel)

end Payload

end ActorMachine
