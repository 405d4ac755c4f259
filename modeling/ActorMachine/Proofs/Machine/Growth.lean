import ActorMachine.Proofs.Heap.Vectors
import ActorMachine.Proofs.Machine.Protection
import ActorMachine.Proofs.Machine.Room

/-!
# Growing buffers

Setting a size that exceeds the capacity of a buffer takes a new storage, whose capacity is found by
doubling. Room is made beforehand, but for the size only. So it happens that there is room for the
size and none for the capacity, and that nothing is collected although it would help.

* `resizeBuffer_spec`: the heap refuses exactly if there is too little room for the capacity.
* `Actor.LacksRoom`: what is live leaves too little room for the new storage, or nothing is
  collected because there is room for the size.
* `setSize_spec`: the native runs out of memory exactly in these cases.
* `grows_of_reached`: so does the instruction that calls it, and otherwise it returns nil.
* `not_frugal`: in the second case garbage makes the call fail.
-/

namespace ActorMachine

namespace Heap

variable {h : Heap} {x : Handle} {v : ByteVector} {size : Nat} {roots roots' : List Value}

/-- In a sound heap the buffers are housed if they fit. -/
theorem housed_of_sound (hs : h.Sound) (hfits : h.Fits) : h.Housed where
  stored hbuf := ⟨hfits _ _ hbuf, hs.storage hbuf⟩
  unshared := hs.unshared

/-- What is charged for what some values reach depends on their references only. -/
theorem liveBytes_congr
    (hsame : roots.filterMap Value.handle? = roots'.filterMap Value.handle?) :
    h.liveBytes roots = h.liveBytes roots' := by
  have hmarks : h.marksFrom roots = h.marksFrom roots' := by
    rw [marksFrom, marksFrom, hsame]
  rw [liveBytes, liveBytes, kept_eq, kept_eq, hmarks]

/-- Doubling does not lead beyond what a machine word can hold if the size is one that an integer
can have. -/
theorem capacityFor_lt_maxWord (hlt : v.capacity < size) (hsize : size < 2 ^ 63) :
    v.capacityFor size < Capacity.maxWord := by
  rw [ByteVector.capacityFor, if_neg (Nat.not_le.2 hlt), Capacity.maxWord]
  cases hdoublings : ByteVector.doublings v.capacity size with
  | zero => omega
  | succ k =>
    -- One doubling less does not reach the size.
    have hbelow : ¬ size ≤ max v.capacity 64 * 2 ^ k :=
      Nat.find_min (ByteVector.exists_doublings v.capacity size)
        (Nat.lt_of_lt_of_eq (Nat.lt_succ_self k) hdoublings.symm)
    rw [Nat.pow_succ, ← Nat.mul_assoc]
    omega

/-- Such a size can be set unless there is too little room for the new storage. -/
theorem resizeBuffer_spec (hfree : h.FreeList) (hh : h.Housed) (hshows : h.Shows x v)
    (hsize : size < 2 ^ 63) :
    Ensures (resizeBuffer ⟨.buffer, x⟩ size) h
      (fun _ _ => v.capacity < size → v.capacityFor size ≤ h.available)
      (fun fault _ => v.capacity < size ∧ h.available < v.capacityFor size ∧
        fault = .outOfMemory (v.capacityFor size) h.available) := by
  obtain ⟨storage, hheader, -⟩ := hshows
  rw [resizeBuffer, ensures_observe_bind hheader]
  dsimp only
  split
  next hlt =>
    have hword : size ≤ Capacity.maxWord := by
      rw [Capacity.maxWord]
      omega
    have hgrown : grownBufferCapacity v.capacity size = v.capacityFor size :=
      grownBufferCapacity_eq hword hlt
        ((grownBufferCapacity_le hword hlt).trans_lt (capacityFor_lt_maxWord hlt hsize))
    have hle := v.le_capacityFor size
    rw [hgrown, ensures_bind]
    refine (setCapacity_spec hfree hh hheader ?_).mono ?_ ?_
    · have hfits := v.fits
      show v.bytes.length ≤ v.capacityFor size
      omega
    · rintro _ t ⟨hroom, v', w, hturns, -, -, -, hw⟩
      -- The header is read again where it is now, and there is capacity enough.
      obtain ⟨storage', hheader', -⟩ := hturns.after
      refine (setSize_turns hturns.housed hheader' (hw ▸ hle)).mono ?_ fun _ _ => False.elim
      exact fun _ _ _ _ => hroom
    · rintro fault t ⟨-, hshort, hfault⟩
      exact ⟨hlt, hshort, hfault⟩
  next hle =>
    refine (setSize_turns hh hheader (Nat.not_lt.1 hle)).mono ?_ fun _ _ => False.elim
    exact fun _ _ _ hlt => absurd hlt hle

end Heap

namespace Actor

variable {p : Actor} {x : Handle} {v : ByteVector} {size : Nat}

/-- There is too little room for the storage that a buffer needs for a size: what is live leaves
too little, or the heap is left as it is because there is room for the size. -/
def LacksRoom (p : Actor) (v : ByteVector) (size : Nat) : Prop :=
  p.heap.config.heapLimit < p.liveBytes + v.capacityFor size ∨
    (p.heap.shouldCollect = false ∧ size ≤ p.heap.available ∧
      p.heap.available < v.capacityFor size)

/-- With room enough and no collection due nothing is done. -/
theorem tidied_of_available {bytes : Nat} (hdue : p.heap.shouldCollect = false)
    (hroom : bytes ≤ p.heap.available) : p.tidied bytes = p := by
  rw [tidied, hdue, Bool.false_or, if_neg (by simpa using hroom)]

/-- So much is lacking when room was made for the size. -/
theorem lacksRoom_iff (hacc : p.heap.Accounts) :
    p.LacksRoom v size ↔ (p.tidied size).heap.available < v.capacityFor size := by
  have hlive : p.liveBytes ≤ p.heap.used := hacc.liveBytes_le p.roots
  have hlimit := hacc.used_le
  have havailable : p.heap.available = p.heap.config.heapLimit - p.heap.used := rfl
  -- After a collection only what is live is charged. Without one garbage is charged as well, and
  -- there was room for the size.
  rcases available_tidied hacc size with hcollected | ⟨hdue, hroom, hsame⟩
  · constructor
    · rintro (hmuch | ⟨hdue, hroom, hshort⟩)
      · omega
      · rwa [tidied_of_available hdue hroom]
    · exact fun hshort => .inl (by omega)
  · rw [hsame]
    constructor
    · rintro (hmuch | ⟨-, -, hshort⟩)
      · omega
      · exact hshort
    · exact fun hshort => .inr ⟨hdue, hroom, hshort⟩

/-- The books are in order and the buffers are housed when room was made. -/
theorem housed_tidied (hp : p.Sound) (hfits : p.heap.Fits) (bytes : Nat) :
    (p.tidied bytes).heap.FreeList ∧ (p.tidied bytes).heap.Housed := by
  rw [tidied]
  split
  next =>
    have hq := (sound_collectGarbage hp).heap
    exact ⟨hq.freeList,
      Heap.housed_of_sound hq (Heap.ages_collect hp.heap hfits p.roots).fits⟩
  next => exact ⟨hp.heap.freeList, Heap.housed_of_sound hp.heap hfits⟩

/-- A buffer on the stack or in the mailbox shows what it did when room was made. -/
theorem shows_tidied (hp : p.Sound) (hfits : p.heap.Fits) (hacc : p.heap.Accounts)
    (hroot : .ref ⟨.buffer, x⟩ ∈ p.roots) (hshows : p.heap.Shows x v) (bytes : Nat) :
    (p.tidied bytes).heap.Shows x v := by
  have hkept := (sweeps_tidied hp hfits hacc bytes).kept
  have hbuffer : p.heap.Reaches p.roots x := .root hroot rfl
  refine hshows.of_leaves fun header hheader => ⟨?_, fun region hregion => ?_⟩
  · rw [(hkept x hbuffer).1, hheader]
  · -- The storage is reached by way of the buffer.
    have hstorage : p.heap.Reaches p.roots header.storage :=
      .reference hbuffer hheader (by simp [HeapObject.references])
    rw [(hkept _ hstorage).1, hregion]

end Actor

namespace Builtin

variable {p : Actor} {x : Handle} {v : ByteVector} {size : Nat} {n : Int64}

/-- Whatever was done to make room, the size is set unless there is too little of it. -/
theorem resize_spec (hfree : p.heap.FreeList) (hh : p.heap.Housed) (hshows : p.heap.Shows x v)
    (hsize : size < 2 ^ 63) :
    Ensures (do Actor.onHeap (Heap.resizeBuffer ⟨.buffer, x⟩ size); return Value.nil) p
      (fun u _ => u = .nil ∧ (v.capacity < size → v.capacityFor size ≤ p.heap.available))
      (fun fault _ => v.capacity < size ∧ p.heap.available < v.capacityFor size ∧
        ∃ bytes available, fault = .outOfMemory bytes available) := by
  rw [ensures_bind, Actor.ensures_onHeap]
  refine (Heap.resizeBuffer_spec hfree hh hshows hsize).mono ?_ ?_
  · exact fun _ _ hroom => ⟨rfl, hroom⟩
  · rintro _ _ ⟨hlt, hshort, hfault⟩
    exact ⟨hlt, hshort, _, _, hfault⟩

/-- The native runs out of memory exactly if the buffer needs a new storage and there is too little
room for it when room was made for the size. -/
theorem setSize_spec (hp : p.Sound) (hfits : p.heap.Fits) (hacc : p.heap.Accounts)
    (hroot : .ref ⟨.buffer, x⟩ ∈ p.roots) (hshows : p.heap.Shows x v) (hn : n.toInt = size) :
    Ensures (setSize #[.ref ⟨.buffer, x⟩, .int n]) p
      (fun u _ => u = .nil ∧ ¬ (v.capacity < size ∧ p.LacksRoom v size))
      (fun fault _ => (v.capacity < size ∧ p.LacksRoom v size) ∧
        ∃ bytes available, fault = .outOfMemory bytes available) := by
  have hsize : size < 2 ^ 63 := by
    have hlt := n.toInt_lt
    omega
  have hbuffer : objectArg .buffer #[.ref ⟨.buffer, x⟩, .int n] 0 = .ok ⟨.buffer, x⟩ := rfl
  have hnumber : (do sizeOf (← intArg #[.ref ⟨.buffer, x⟩, .int n] 1) "size") = .ok size := by
    show sizeOf n "size" = .ok size
    rw [sizeOf, if_neg (by omega), hn, Int.toNat_natCast]
  obtain ⟨storage, hheader, -⟩ := id hshows
  have hlook : headerOf ⟨.buffer, x⟩ p = .ok ⟨v.bytes.length, v.capacity, storage⟩ p := by
    simp only [headerOf, bind, EStateM.bind, get, getThe, MonadStateOf.get, estateM_get, ofExcept,
      hheader]
    rfl
  rw [setSize, hbuffer, hnumber, ensures_bind, ensures_ofExcept]
  refine ⟨?_, fun fault hfault => by cases hfault⟩
  rintro _ ⟨⟩
  rw [ensures_bind, ensures_ofExcept]
  refine ⟨?_, fun fault hfault => by cases hfault⟩
  rintro _ ⟨⟩
  rw [ensures_bind, Ensures, hlook]
  dsimp only
  split
  next hlt =>
    -- Room is made for the size, and what it comes to is compared with the capacity.
    obtain ⟨hfree, hhoused⟩ := Actor.housed_tidied hp hfits size
    have hshown := Actor.shows_tidied hp hfits hacc hroot hshows size
    have hle := v.le_capacityFor size
    rw [ensures_bind, Actor.ensures_prepareHeap, Actor.lacksRoom_iff hacc]
    constructor
    · intro _
      refine (resize_spec hfree hhoused hshown hsize).mono ?_ ?_
      · rintro _ _ ⟨hu, hroom⟩
        exact ⟨hu, fun hshort => Nat.not_le.2 hshort.2 (hroom hlt)⟩
      · rintro _ _ ⟨-, hshort, hfault⟩
        exact ⟨⟨hlt, hshort⟩, hfault⟩
    · exact fun hshort => ⟨⟨hlt, hshort.trans_le hle⟩, _, _, rfl⟩
  next hle =>
    have hhoused := Heap.housed_of_sound hp.heap hfits
    refine (resize_spec hp.heap.freeList hhoused hshows hsize).mono ?_ ?_
    · exact fun _ _ hu => ⟨hu.1, fun hshort => hle hshort.1⟩
    · exact fun _ _ hshort => absurd hshort.1 hle

end Builtin

namespace Machine

open Actor (Recovered)

variable {config : ActorConfig} {p q : Actor} {n m : Nat} {guarded guarded' : Bool}
  {loader : Loader} {now : Time} {x : Handle} {v : ByteVector} {size : Nat}

/-- An element that is mapped to nothing can as well be missing. -/
theorem filterMap_eraseIdx {α β : Type} {f : α → Option β} {l : List α} {i : Nat} {a : α}
    (ha : l[i]? = some a) (hf : f a = none) : (l.eraseIdx i).filterMap f = l.filterMap f := by
  obtain ⟨hlt, rfl⟩ := List.getElem?_eq_some_iff.1 ha
  conv_rhs => rw [← List.take_append_drop i l, List.drop_eq_getElem_cons hlt]
  rw [List.eraseIdx_eq_take_drop_succ, List.filterMap_append, List.filterMap_append,
    List.filterMap_cons_none hf]

/-- Protected calls that take themselves off the stack reach nothing, so as much is live. -/
theorem Reduces.live (h : Reduces loader n guarded p m guarded' q) :
    q.heap = p.heap ∧ q.liveBytes = p.liveBytes := by
  induction h with
  | refl => exact ⟨rfl, rfl⟩
  | @protect n m _ _ p q id _ hcallee _ _ ih =>
    have hslot : p.stack.toList[p.calleeSlot (n + 1)]? = some (.native id) := by
      rw [Stack.toList, Array.getElem?_toList]
      exact Stack.slot_eq_ok_iff.1 hcallee
    -- The callee is a native, which is no reference.
    have hroots : (p.withoutSlot (p.calleeSlot (n + 1))).roots.filterMap Value.handle? =
        p.roots.filterMap Value.handle? := by
      rw [Actor.roots, Actor.roots, List.filterMap_append, List.filterMap_append,
        Actor.toList_withoutSlot, filterMap_eraseIdx hslot rfl]
      rfl
    exact ⟨ih.1, ih.2.trans (Heap.liveBytes_congr hroots)⟩

theorem Invokes.live (h : Invokes loader p n guarded q) :
    q.heap = p.heap ∧ q.liveBytes = p.liveBytes := by
  obtain ⟨f, outer, nargs, hframes, -, hchain⟩ := h
  have hat := Actor.atIp_of_frames hframes (f.ip + 1)
  rw [hat] at hchain
  exact hchain.live

/-- The next instruction of `p` calls the function that sets the size of a buffer, and `q` makes
that call: its arguments are the buffer behind `x`, which shows `v`, and the size. -/
structure Resizes (loader : Loader) (p : Actor) (guarded : Bool) (q : Actor) (x : Handle)
    (v : ByteVector) (size : Nat) : Prop where
  /-- The call is one of two arguments. -/
  invokes : Invokes loader p 2 guarded q
  /-- The callee and its arguments are on top of the stack. -/
  arguments : ∃ below id, ∃ n : Int64,
    q.stack.toList = below ++ [.native id, .ref ⟨.buffer, x⟩, .int n] ∧
      nativeFor loader id 2 = .ok (.function .bufferResize) ∧ n.toInt = size
  /-- So much is in the buffer. -/
  shows : p.heap.Shows x v

/-- The instruction raises a fault in the call that `q` makes. If that is guarded, the fault is
caught at once, and its report takes the place of the callee. -/
def Raises (loader : Loader) (now : Time) (p : Actor) (guarded : Bool) (q : Actor)
    (fault : Fault) : Prop :=
  (guarded = false ∧ ∃ r, step loader now p = .error fault r) ∨
    (guarded = true ∧ ∃ below r, step loader now p = .ok none r ∧
      Recovered fault q.frames below r)

/-- What comes of a call that sets the size of a buffer. -/
structure Grows (loader : Loader) (now : Time) (p : Actor) (guarded : Bool) (q : Actor)
    (v : ByteVector) (size : Nat) : Prop where
  /-- It runs out of memory exactly if the buffer needs a new storage that there is too little room
  for. -/
  raises_iff : (∃ bytes available, Raises loader now p guarded q (.outOfMemory bytes available)) ↔
    v.capacity < size ∧ p.LacksRoom v size
  /-- Otherwise it returns nil. -/
  returns : ¬ (v.capacity < size ∧ p.LacksRoom v size) → ∃ r, step loader now p = .ok none r ∧
    r.frames = q.frames ∧
      r.stack.toList = q.stack.toList.take (q.calleeSlot 2) ++ results guarded .nil

/-- What a call returns is not the report of a fault. -/
theorem not_recovered_of_results {fault : Fault} {frames : List Frame} {below below' : List Value}
    {r : Actor} {u : Value} (h : r.stack.toList = below ++ results true u) :
    ¬ Recovered fault frames below' r := by
  rintro ⟨-, -, d, htop, -⟩
  have hlast := (List.append_inj' (h.symm.trans htop) rfl).2
  cases (List.cons.inj hlast).1

/-- Three values on top of the stack are the callee of a call and its two arguments. -/
theorem stack_of_arguments {below : List Value} {callee a b : Value}
    (h : q.stack.toList = below ++ [callee, a, b]) :
    2 < q.stack.size ∧ q.stack.slot (q.calleeSlot 2) = .ok callee ∧
      q.stack.values.extract (q.calleeSlot 2 + 1) q.stack.size = #[a, b] := by
  have hsize : q.stack.size = below.length + 3 := by
    rw [← Stack.length_toList, h]
    simp
  have hslot : q.calleeSlot 2 = below.length := by
    rw [Actor.calleeSlot, hsize]
    omega
  have hvalues : q.stack.values = (below ++ [callee, a, b]).toArray := by
    rw [← h]
    rfl
  refine ⟨by omega, ?_, ?_⟩
  · rw [Stack.slot_eq_ok_iff, hslot, hvalues]
    simp
  · rw [hslot, hsize, hvalues]
    simp

/-- The native finds the heap as it was before the call, so as much is lacking for it. -/
theorem Resizes.run_spec (h : Resizes loader p guarded q x v size) (hreached : Reached config p) :
    Ensures (Builtin.run .bufferResize
        (q.stack.values.extract (q.calleeSlot 2 + 1) q.stack.size)) q
      (fun u _ => u = .nil ∧ ¬ (v.capacity < size ∧ p.LacksRoom v size))
      (fun fault _ => (v.capacity < size ∧ p.LacksRoom v size) ∧
        ∃ bytes available, fault = .outOfMemory bytes available) := by
  have hacc := Heap.accounts_of_reached (heap_of_reached hreached)
  have hfits := fits_of_reached hreached
  obtain ⟨-, hq, -⟩ := h.invokes.spec (steady_of_reached hreached)
  obtain ⟨hheap, hlive⟩ := h.invokes.live
  obtain ⟨below, id, i, hstack, -, hi⟩ := h.arguments
  obtain ⟨-, -, hargs⟩ := stack_of_arguments hstack
  have hroot : .ref ⟨.buffer, x⟩ ∈ q.roots := by
    rw [Actor.roots, hstack]
    simp
  -- What is live and what is used is the same in both, so room is lacking in both or in neither.
  have hlacks : q.LacksRoom v size = p.LacksRoom v size := by
    rw [Actor.LacksRoom, Actor.LacksRoom, hheap, hlive]
  rw [hargs, ← hlacks]
  rw [← hheap] at hfits hacc
  exact Builtin.setSize_spec hq.sound hfits hacc hroot (hheap ▸ h.shows) hi

/-- A buffer that grows needs room for its new storage. If there is too little of it, the call
fails, also where a collection would have made enough. -/
theorem grows_of_reached (hreached : Reached config p)
    (h : Resizes loader p guarded q x v size) (now : Time) :
    Grows loader now p guarded q v size := by
  have hp := steady_of_reached hreached
  have hspec := h.run_spec hreached
  obtain ⟨-, hq, hguarded⟩ := h.invokes.spec hp
  obtain ⟨below, id, i, hstack, hnative, -⟩ := h.arguments
  obtain ⟨hsize, hcallee, -⟩ := stack_of_arguments hstack
  have hslot := Actor.calleeSlot_lt hsize
  have hroom := room_results hq.sound hsize hguarded
  have hcall := invoke_eq_callBuiltin now guarded hsize hcallee hnative
  cases hrun : Builtin.run .bufferResize
      (q.stack.values.extract (q.calleeSlot 2 + 1) q.stack.size) q with
  | ok u r =>
    obtain ⟨rfl, hnot⟩ := hspec.of_ok hrun
    -- It asks for nothing.
    obtain ⟨heap, rfl, -⟩ := (Builtin.works_setSize hq.sound _).of_ok hrun
    obtain ⟨r, hbuiltin, hframes, hresults⟩ :=
      callBuiltin_of_ok now hq.sound hslot.le hroom hrun
    have hstep : step loader now p = .ok none r := by
      refine step_of_invoke hp h.invokes (hcall.trans (hbuiltin.trans ?_))
      rw [hq.request]
      rfl
    refine ⟨⟨?_, fun hshort => absurd hshort hnot⟩, fun _ => ⟨r, hstep, hframes, hresults⟩⟩
    -- So no fault is raised, and a guarded call does not look as if one had been.
    rintro ⟨_, _, ⟨-, _, herror⟩ | ⟨rfl, _, r', hok, hrecovered⟩⟩
    · rw [hstep] at herror
      cases herror
    · obtain ⟨-, rfl⟩ := EStateM.Result.ok.inj (hstep.symm.trans hok)
      exact absurd hrecovered (not_recovered_of_results hresults)
  | error fault r =>
    obtain ⟨hshort, bytes, available, rfl⟩ := hspec.of_error hrun
    refine ⟨iff_of_true ⟨bytes, available, ?_⟩ hshort, fun hnot => absurd hshort hnot⟩
    -- The fault is raised as it is, or the innermost protected call reports it.
    cases guarded with
    | false =>
      exact .inl ⟨rfl, r, h.invokes.step_eq.trans (hcall.trans (callBuiltin_of_error hrun))⟩
    | true =>
      obtain ⟨r', below', hstep, hrecovered⟩ :=
        step_of_invokes hp h.invokes (.native hsize hcallee hnative hrun)
      exact .inr ⟨rfl, below', r', hstep, hrecovered⟩

/-- A function that forgets its second argument and sets the size of the first one. -/
def outgrower : Routine :=
  .loose
    { Prototype.blank with
      arguments := 2
      code := #[.nil, .storeLocal 1, .importSymbol 0, .loadLocal 0, .int 65, .call 2, .breakpoint,
        .ret]
      imports := #[⟨"std-buffer", "resize"⟩] }

/-- Little memory. -/
def tight : ActorConfig :=
  { heap := { heapLimit := 240 } }

/-- An actor that is about to set the size of an empty buffer. A string of one byte is garbage. -/
def outgrowing : Actor :=
  stepped .standard 0 (started tight (.closure outgrower []) [.buffer ⟨#[]⟩, .string "x"]) 5

theorem reached_outgrowing : Reached tight outgrowing :=
  reached_stepped (reached_started (by decide +kernel)) .standard 0 5

/-- The call is that of the instruction, with three values on top of the stack. -/
theorem resizes_outgrowing :
    Resizes .standard outgrowing false (outgrowing.atIp 6) ⟨2, 0⟩ (.empty 0) 65 := by
  have hnext : (outgrowing.frames.head?.map fun f =>
      (f.ip, f.routine.prototype.code[f.ip]?)) = some (5, some (.call 2)) := by decide +kernel
  obtain ⟨f, hfirst, hcode⟩ := Option.map_eq_some_iff.1 hnext
  obtain ⟨hip, hcode⟩ := Prod.mk.inj hcode
  obtain ⟨outer, hframes⟩ := List.head?_eq_some_iff.1 hfirst
  have hinvokes : Invokes .standard outgrowing 2 false (outgrowing.atIp (f.ip + 1)) :=
    ⟨f, outer, 2, hframes, hcode, .refl _ _ _⟩
  rw [hip] at hinvokes
  refine ⟨hinvokes, ⟨[.ref ⟨.closure, ⟨0, 0⟩⟩, .ref ⟨.buffer, ⟨2, 0⟩⟩, .nil], ⟨3⟩, 65, ?_⟩,
    ⟨⟨1, 0⟩, ?_⟩⟩
  · decide +kernel
  · decide +kernel

/-- All but the string is live. -/
theorem liveBytes_outgrowing : outgrowing.liveBytes = 112 := by
  have hroots : outgrowing.roots.filterMap Value.handle? = [⟨0, 0⟩, ⟨2, 0⟩, ⟨2, 0⟩] := by
    decide +kernel
  have hsize : outgrowing.heap.slots.size = 4 := by decide +kernel
  have hreferences : [⟨0, 0⟩, ⟨2, 0⟩, ⟨1, 0⟩].map (fun handle =>
      (outgrowing.heap.lookup? handle).map HeapObject.references) =
        [some [], some [⟨1, 0⟩], some []] := by
    decide +kernel
  simp only [List.map_cons, List.map_nil, List.cons.injEq, Option.map_eq_some_iff, and_true]
    at hreferences
  obtain ⟨⟨closure, hclosure, hcaptured⟩, ⟨buffer, hbuffer, hleads⟩, storage, hstorage, hends⟩ :=
    hreferences
  have hmarks : outgrowing.heap.marksFrom outgrowing.roots = #[true, true, true, false] := by
    rw [Heap.marksFrom, hroots, hsize]
    simp [Heap.mark, hclosure, hcaptured, hbuffer, hleads, hstorage, hends]
    rfl
  rw [Actor.liveBytes, Heap.liveBytes, Heap.kept_eq, hmarks]
  decide +kernel

/-- One doubling leads to 65 bytes. -/
theorem capacityFor_outgrowing : (ByteVector.empty 0).capacityFor 65 = 128 := by
  have hdoublings : ByteVector.doublings 0 65 = 1 :=
    (Nat.find_eq_iff _).2 ⟨by decide, by decide⟩
  change max 0 64 * 2 ^ ByteVector.doublings 0 65 = 128
  rw [hdoublings]
  rfl

/-- There is room for 65 bytes, so nothing is collected, and for the 128 bytes that the buffer needs
one is lacking. -/
theorem grows_outgrowing :
    Reached tight outgrowing ∧
      Resizes .standard outgrowing false (outgrowing.atIp 6) ⟨2, 0⟩ (.empty 0) 65 ∧
      ∃ bytes available, Raises .standard 0 outgrowing false (outgrowing.atIp 6)
        (.outOfMemory bytes available) := by
  have hgrows := grows_of_reached reached_outgrowing resizes_outgrowing 0
  refine ⟨reached_outgrowing, resizes_outgrowing, hgrows.raises_iff.2 ⟨by decide, .inr ?_⟩⟩
  rw [capacityFor_outgrowing]
  decide +kernel

/-- So it is not true that garbage never makes the call fail: without the string there would be
room. -/
theorem not_frugal :
    ¬ ∀ (config : ActorConfig) (loader : Loader) (now : Time) (p q : Actor) (guarded : Bool)
      (x : Handle) (v : ByteVector) (size bytes available : Nat), Reached config p →
      Resizes loader p guarded q x v size →
      Raises loader now p guarded q (.outOfMemory bytes available) →
      config.heap.heapLimit < p.liveBytes + v.capacityFor size := by
  intro hall
  have hfails : step .standard 0 outgrowing =
      .error (.outOfMemory 128 127) ((Operation.step .standard 0).after outgrowing) :=
    step_eq_error (by decide +kernel)
  have hmuch := hall tight .standard 0 outgrowing _ false _ _ 65 128 127 reached_outgrowing
    resizes_outgrowing (.inl ⟨rfl, _, hfails⟩)
  rw [liveBytes_outgrowing, capacityFor_outgrowing] at hmuch
  exact absurd hmuch (by decide)

end Machine

end ActorMachine
