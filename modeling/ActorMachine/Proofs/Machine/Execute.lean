import ActorMachine.Machine.Step
import ActorMachine.Proofs.Actor.Call
import ActorMachine.Proofs.Actor.Recovery
import ActorMachine.Proofs.Machine.Receiving

/-!
# Instructions inside a call

All instructions but calls and returns stay inside the innermost call.

* `operandFloor`: how many of the lowest values of the stack are no operands of an instruction.
  Operands are looked for on the whole stack, so nothing bounds this number by the slots of the
  call.
* `execute_spec`: such an instruction keeps the values below its floor, moves at most the
  instruction pointer of the innermost call, and leaves the actor sound.
-/

namespace ActorMachine

namespace Actor

variable {p q : Actor} {n : Nat}

/-- An actor with the instruction pointer of its innermost frame somewhere else. -/
def atIp (p : Actor) (ip : Nat) : Actor :=
  match p.frames with
  | f :: outer => { p with frames := { f with ip } :: outer }
  | [] => p

theorem atIp_of_frames {f : Frame} {outer : List Frame} (hframes : p.frames = f :: outer)
    (ip : Nat) : p.atIp ip = { p with frames := { f with ip } :: outer } := by
  rw [atIp, hframes]

/-- An actor is where its instruction pointer is. -/
theorem exists_atIp (p : Actor) : ∃ ip, p.atIp ip = p := by
  cases hframes : p.frames with
  | nil => exact ⟨0, by rw [atIp, hframes]⟩
  | cons f outer =>
    refine ⟨f.ip, ?_⟩
    rw [atIp, hframes]
    cases p
    simp_all

theorem atIp_atIp (p : Actor) (ip ip' : Nat) : (p.atIp ip).atIp ip' = p.atIp ip' := by
  cases hframes : p.frames with
  | nil => simp only [atIp, hframes]
  | cons f outer => simp only [atIp, hframes]

theorem stack_atIp (p : Actor) (ip : Nat) : (p.atIp ip).stack = p.stack := by
  rw [atIp]
  split <;> rfl

/-- Where the instruction pointer is does not matter to soundness. -/
theorem Sound.atIp (hp : p.Sound) (ip : Nat) : (p.atIp ip).Sound := by
  rw [Actor.atIp]
  split
  next => exact hp.congr rfl rfl rfl
  next => exact hp

/-- What is kept is kept wherever the instruction pointer is moved to. -/
theorem Keeps.atIp (h : Keeps n p q) (ip : Nat) : Keeps n (p.atIp ip) (q.atIp ip) := by
  have hq := h.sound.atIp ip
  rw [Actor.atIp, Actor.atIp, h.frames] at *
  cases hframes : p.frames with
  | nil => exact h
  | cons f outer =>
    rw [hframes] at hq
    exact ⟨hq, h.same, rfl, h.request, h.capacity, h.below⟩

end Actor

namespace Machine

open Actor (Action Keeps Sound onStack onMailbox push)

variable {p q : Actor} {n : Nat}

/-- Number of lowest values on a stack of some size that are no operands of an instruction. -/
def operandFloor (f : Frame) (size : Nat) : Instruction → Nat
  | .pop count => size - count.toNat
  | .storeLocal index => min (size - 1) (f.base + index.toNat)
  | .makeClosure index =>
    size - ((f.routine.nested? index.toNat).map fun r => r.prototype.upvalues.toNat).getD 0
  | .jumpUnless _ | .receive _ => size - 1
  | .call nargs => size - nargs.toNat - 1
  | .send => size - 2
  | _ => size

theorem operandFloor_le (f : Frame) (size : Nat) (i : Instruction) :
    operandFloor f size i ≤ size := by
  cases i with
  | storeLocal index => exact Nat.le_trans (Nat.min_le_left _ _) (Nat.sub_le _ _)
  | call nargs => exact Nat.le_trans (Nat.sub_le _ _) (Nat.sub_le _ _)
  | pop | makeClosure | jumpUnless | receive | send => exact Nat.sub_le _ _
  | _ => exact Nat.le_refl _

theorem operandFloor_makeClosure {f : Frame} {index : UInt32} {routine : Routine} (size : Nat)
    (h : f.routine.nested? index.toNat = some routine) :
    operandFloor f size (.makeClosure index) = size - routine.prototype.upvalues.toNat := by
  show size - ((f.routine.nested? index.toNat).map _).getD 0 = _
  rw [h]
  rfl

/-! ### Actions that stay inside a call -/

/-- The action keeps the lowest `n` values, whether it fails or not, and `post` holds of its
result. -/
def Confines (n : Nat) (p : Actor) {α : Type} (act : Action α) (post : α → Actor → Prop) : Prop :=
  Ensures act p (fun a q => Keeps n p q ∧ post a q) (fun _ q => Keeps n p q)

section Confines

variable {α β : Type} {act : Action α} {f : α → Action β} {post : β → Actor → Prop}

theorem Confines.bind {mid : α → Actor → Prop} (hact : Confines n p act mid)
    (hf : ∀ a q, Keeps n p q → mid a q → Confines n q (f a) post) :
    Confines n p (act >>= f) post := by
  rw [Confines, ensures_bind]
  refine Ensures.mono hact ?_ (fun _ _ => id)
  rintro a q ⟨hpq, hmid⟩
  refine Ensures.mono (hf a q hpq hmid) ?_ ?_
  · rintro b r ⟨hqr, hpost⟩
    exact ⟨hqr.trans hpq, hpost⟩
  · exact fun _ r hqr => hqr.trans hpq

/-- Looking something up changes nothing. -/
theorem confines_look (hp : p.Sound) (result : Except Fault α)
    (hf : ∀ a, result = .ok a → Confines n p (f a) post) :
    Confines n p (ofExcept result >>= f) post := by
  rw [Confines, ensures_bind, ensures_ofExcept]
  exact ⟨hf, fun _ _ => .refl n hp⟩

/-- A value goes on top of all that is there. -/
theorem confines_push (hp : p.Sound) {v : Value} (hv : p.heap.Backs v) (hn : n ≤ p.stack.size) :
    Confines n p (push v) fun _ _ => True := by
  refine Ensures.mono (Actor.push_spec hp hv) ?_ ?_
  · exact fun _ q hq => ⟨hq.keeps hn, trivial⟩
  · rintro _ _ ⟨rfl, -⟩
    exact .refl n hp

/-- What works on the heap alone keeps all values. -/
theorem confines_works {post : α → Heap → Prop} (hact : p.Works act post) :
    Confines n p act fun a q => (∃ heap, q = { p with heap }) ∧ post a q.heap := by
  refine Ensures.mono hact ?_ ?_
  · rintro a _ ⟨heap, rfl, hq, hpost⟩
    exact ⟨Actor.keeps_heap hq n, ⟨heap, rfl⟩, hpost⟩
  · rintro _ _ ⟨heap, rfl, hq⟩
    exact Actor.keeps_heap hq n

/-- Popping some values keeps those below. -/
theorem confines_pop (hp : p.Sound) (count : Nat) (hn : n ≤ p.stack.size - count) :
    Confines n p (onStack (Stack.pop count)) fun _ q =>
      q = { p with stack := p.stack.truncate (p.stack.size - count) } := by
  rw [Confines, Actor.ensures_onStack, Stack.ensures_pop]
  refine ⟨fun _ => ⟨?_, rfl⟩, fun _ => .refl n hp⟩
  refine Actor.keeps_stack (hp.truncate _) (Nat.le_refl _) ?_
  rw [Stack.toList_truncate, List.take_take, Nat.min_eq_left hn]

/-- Taking the top value keeps those below, and the value is backed. -/
theorem confines_popValue (hp : p.Sound) (hn : n ≤ p.stack.size - 1) :
    Confines n p (onStack Stack.popValue) fun v q =>
      q.heap.Backs v ∧ q.stack.size = p.stack.size - 1 := by
  rw [Confines, Actor.ensures_onStack, Stack.ensures_popValue]
  refine ⟨fun v hv => ?_, fun _ => .refl n hp⟩
  have hlist : ({ p.stack with values := p.stack.values.pop } : Stack).toList =
      p.stack.toList.take (p.stack.size - 1) := by
    rw [Stack.toList_popped, List.dropLast_eq_take, Stack.length_toList]
  have hmem : v ∈ p.stack.toList := by
    simpa [Stack.toList] using Array.mem_of_back? hv
  refine ⟨Actor.keeps_stack (hp.withStack ?_ hp.fits.popped) (Nat.le_refl _) ?_,
    hp.stack v hmem, ?_⟩
  · rw [hlist]
    exact fun w hw => hp.stack w (List.mem_of_mem_take hw)
  · rw [hlist, List.take_take, Nat.min_eq_left hn]
  · simp [Stack.size]

/-- Overwriting a slot keeps the values below it. -/
theorem confines_setSlot (hp : p.Sound) {v : Value} (hv : p.heap.Backs v) {slot : Nat}
    (hn : n ≤ slot) : Confines n p (onStack (Stack.setSlot slot v)) fun _ _ => True := by
  rw [Confines, Actor.ensures_onStack, Stack.ensures_setSlot]
  refine ⟨fun hslot => ⟨?_, trivial⟩, fun _ => .refl n hp⟩
  refine Actor.keeps_stack (hp.withStack ?_ (hp.fits.set slot v)) (Nat.le_refl _) ?_
  · rw [Stack.toList_set]
    intro w hw
    rcases List.mem_or_eq_of_mem_set hw with hw | rfl
    · exact hp.stack w hw
    · exact hv
  · rw [Stack.toList_set, List.take_set_of_le hn]

end Confines

/-! ### The instructions -/

/-- What is asked for is neither a new actor nor the end of this one. -/
structure Plain (o : Option Outcome) : Prop where
  /-- No new actor is wanted. -/
  newActor : ∀ callee args guarded, o ≠ some (.newActor callee args guarded)
  /-- The first function has not returned. -/
  exit : ∀ v, o ≠ some (.exit v)
  /-- There was no fault. -/
  trap : ∀ fault, o ≠ some (.trap fault)

theorem plain_none : Plain none :=
  ⟨by simp, by simp, by simp⟩

/-- The instruction stays in its call: it keeps the lowest `n` values, moves at most the innermost
instruction pointer, and what it asks for is plain. -/
def Stays (n : Nat) (p : Actor) (act : Action (Option Outcome)) : Prop :=
  Ensures act p (fun o q => (∃ ip, Keeps n (p.atIp ip) q) ∧ Plain o) (fun _ q => Keeps n p q)

/-- An action that stays in its call may be followed by one that does. -/
theorem Confines.stays {α : Type} {act : Action α} {mid : α → Actor → Prop}
    {f : α → Action (Option Outcome)} (hact : Confines n p act mid)
    (hf : ∀ a q, Keeps n p q → mid a q → Stays n q (f a)) : Stays n p (act >>= f) := by
  rw [Stays, ensures_bind]
  refine Ensures.mono hact ?_ (fun _ _ => id)
  rintro a q ⟨hpq, hmid⟩
  refine Ensures.mono (hf a q hpq hmid) ?_ ?_
  · rintro o r ⟨⟨ip, hqr⟩, ho⟩
    exact ⟨⟨ip, hqr.trans (hpq.atIp ip)⟩, ho⟩
  · exact fun _ r hqr => hqr.trans hpq

/-- An instruction that only has something to ask for has stayed in its call. -/
theorem stays_pure {o : Option Outcome} (hp : p.Sound) (ho : Plain o) : Stays n p (pure o) := by
  obtain ⟨ip, hip⟩ := p.exists_atIp
  refine ⟨⟨ip, ?_⟩, ho⟩
  rw [hip]
  exact .refl n hp

/-- So has one that is done. -/
theorem stays_done (hp : p.Sound) : Stays n p (pure none) :=
  stays_pure hp plain_none

theorem stays_look {α : Type} {f : α → Action (Option Outcome)} (hp : p.Sound)
    (result : Except Fault α) (hf : ∀ a, result = .ok a → Stays n p (f a)) :
    Stays n p (ofExcept result >>= f) := by
  rw [Stays, ensures_bind, ensures_ofExcept]
  exact ⟨hf, fun _ _ => .refl n hp⟩

/-- A jump moves the instruction pointer and nothing else. -/
theorem stays_jump (hp : p.Sound) (ip : Nat) : Stays n p (do setIp ip; return none) := by
  refine ⟨⟨ip, ?_⟩, plain_none⟩
  exact .refl n (hp.atIp ip)

theorem confines_importSymbol (hp : p.Sound) (hn : n ≤ p.stack.size) (loader : Loader)
    (i : Import String) : Confines n p (importSymbol loader i) fun _ _ => True := by
  refine confines_look hp _ fun symbol _ => ?_
  cases symbol with
  | native id => exact confines_push (v := .native id) hp trivial hn
  | function routine =>
    refine (confines_works (Actor.works_prepareHeap hp _)).bind fun _ q hpq _ => ?_
    -- An imported function has captured nothing, so its upvalues are nil.
    have hups : ∀ v ∈ Array.replicate routine.prototype.upvalues.toNat Value.nil,
        q.heap.Backs v := by
      intro v hv
      obtain ⟨-, rfl⟩ := Array.mem_replicate.1 hv
      trivial
    have halloc := Heap.safeAt_allocClosure hpq.sound.heap routine hups
    refine (confines_works (Actor.works_onHeap hpq.sound halloc)).bind fun r q' hq' hr => ?_
    exact confines_push hq'.sound hr.2 (hq'.le_size (hpq.le_size hn))

/-- The captured values stay on the stack until the closure is there. -/
theorem confines_makeClosure (hp : p.Sound) (routine : Routine)
    (hn : n ≤ p.stack.size - routine.prototype.upvalues.toNat) :
    Confines n p (makeClosure routine) fun _ _ => True := by
  rw [makeClosure, Confines, ensures_bind, ensures_get]
  dsimp only
  split
  next =>
    rw [ensures_bind, ensures_throw]
    exact .refl n hp
  next hsize =>
    -- A collection here finds the values among the roots; they are popped only afterwards.
    refine (confines_works (Actor.works_prepareHeap hp _)).bind ?_
    rintro _ _ hpq ⟨⟨heap, rfl⟩, -⟩
    rw [Confines, ensures_bind, ensures_get]
    have hups : ∀ v ∈ p.stack.values.extract
        (p.stack.size - routine.prototype.upvalues.toNat) p.stack.size, heap.Backs v := by
      intro v hv
      refine hpq.sound.stack v ?_
      rw [Array.mem_iff_getElem] at hv
      obtain ⟨i, hi, rfl⟩ := hv
      simp [Stack.toList]
    have halloc := Heap.safeAt_allocClosure hpq.sound.heap routine hups
    refine (confines_works (Actor.works_onHeap hpq.sound halloc)).bind ?_
    rintro r _ hqr ⟨⟨heap', rfl⟩, hr⟩
    refine (confines_pop hqr.sound _ hn).bind ?_
    rintro _ _ hrs rfl
    refine confines_push hrs.sound hr (hrs.le_size ?_)
    show n ≤ p.stack.size
    omega

theorem confines_pushConstant (hp : p.Sound) (hn : n ≤ p.stack.size) (c : Constant String) :
    Confines n p (pushConstant c) fun _ _ => True := by
  cases c with
  | int i => exact confines_push (v := .int i) hp trivial hn
  | real x => exact confines_push (v := .real x) hp trivial hn
  | text s =>
    refine Ensures.mono (Actor.pushString_spec hp s) ?_ ?_
    · rintro _ q ⟨heap, r, hq, -, hext⟩
      exact ⟨(hext.keeps hn).trans (Actor.keeps_heap hq n), trivial⟩
    · rintro _ _ ⟨heap, rfl, hq, -⟩
      exact Actor.keeps_heap hq n

/-- The message bound is one of the mailbox, so it is backed. -/
theorem confines_takeMessage? (hp : p.Sound) :
    Confines n p takeMessage? fun o q =>
      q.stack = p.stack ∧ ∀ v, o = some v → q.heap.Backs v := by
  rw [Confines, takeMessage?, Actor.ensures_onMailbox, ensures_bind, ensures_get]
  split
  next v mailbox hreceive =>
    rw [Mailbox.receive?, Option.map_eq_some_iff] at hreceive
    obtain ⟨w, hw, hpair⟩ := hreceive
    obtain ⟨rfl, rfl⟩ := Prod.mk.inj hpair
    have hmem : w ∈ p.mailbox.toList := by
      simpa [Mailbox.toList] using Array.mem_of_getElem? hw
    refine ⟨Actor.keeps_mailbox hp _ ?_ n, rfl, ?_⟩
    · exact fun _ => id
    · rintro _ ⟨⟩
      exact hp.mailbox w hmem
  next => exact ⟨.refl n hp, rfl, by simp⟩

/-- A change of the deadline keeps everything. -/
theorem confines_receiveDeadline (hp : p.Sound) (receiveDeadline : Option Time) :
    Confines n p (modify fun p => { p with receiveDeadline }) fun _ q => q.stack = p.stack :=
  ⟨⟨hp.congr rfl rfl rfl, ⟨rfl, rfl, rfl, rfl⟩, rfl, rfl, Nat.le_refl _, rfl⟩, rfl⟩

/-- A receive without a message gives up its timeout, or it stands where it stood. -/
theorem stays_jumpOrWait (hp : p.Sound) (hn : n ≤ p.stack.size - 1) (now : Time) (ip target : Nat)
    (deadline : Option Time) : Stays n p (jumpOrWait now ip target deadline) := by
  rw [jumpOrWait]
  split
  next =>
    refine (confines_receiveDeadline hp none).stays fun _ q hq hstack => ?_
    refine (confines_pop hq.sound 1 (by rwa [hstack])).stays ?_
    exact fun _ r hr _ => stays_jump hr.sound target
  next => exact ⟨⟨ip, .refl n (hp.atIp ip)⟩, by simp, by simp, by simp⟩

/-- A message takes the slot of the timeout, so there is room for it. -/
theorem stays_bindMessage (hp : p.Sound) (hn : n ≤ p.stack.size - 1) {message : Value}
    (hmessage : p.heap.Backs message) : Stays n p (bindMessage message) := by
  refine (confines_pop hp 1 hn).stays ?_
  rintro _ _ hpq rfl
  refine (confines_push (v := message) hpq.sound hmessage ?_).stays fun _ q hq _ => ?_
  · rw [Stack.size_truncate]
    omega
  · exact stays_done hq.sound

theorem stays_receive (hp : p.Sound) (hn : n ≤ p.stack.size - 1) (now : Time) (ip : Nat)
    (displacement : Int32) (length : Nat) : Stays n p (receive now ip displacement length) := by
  rw [receive_eq]
  refine stays_look hp _ fun timeout _ => ?_
  refine stays_look hp _ fun target _ => ?_
  refine (confines_takeMessage? hp).stays ?_
  rintro message q hpq ⟨hstack, hmessage⟩
  rw [← hstack] at hn
  cases message with
  | some v => exact stays_bindMessage hpq.sound hn (hmessage v rfl)
  | none =>
    have hfix : Confines n q (fixDeadline now timeout) fun _ r => r.stack = q.stack :=
      (ensures_fixDeadline now timeout).2 (confines_receiveDeadline hpq.sound _)
    refine hfix.stays fun deadline r hr hstack => ?_
    exact stays_jumpOrWait hr.sound (by rwa [hstack]) now ip target deadline

theorem stays_send (hp : p.Sound) (hn : n ≤ p.stack.size - 2) : Stays n p send := by
  rw [send]
  -- The message is on top of its receiver, so two values are taken.
  refine (confines_popValue hp (by omega)).stays ?_
  rintro message q hq ⟨-, hsize⟩
  refine (confines_popValue hq.sound (by omega)).stays ?_
  rintro v r hr ⟨-, -⟩
  cases v with
  | pid receiver =>
    rw [Stays, ensures_bind, ensures_get]
    refine stays_look hr.sound _ fun payload _ => ?_
    exact stays_pure hr.sound ⟨by simp, by simp, by simp⟩
  | _ => exact .refl n hr.sound

theorem confines_remove (hp : p.Sound) :
    Confines n p (discard <| onMailbox Mailbox.remove) fun _ _ => True := by
  rw [Confines, ensures_discard, Actor.ensures_onMailbox, Mailbox.remove, ensures_bind,
    ensures_get, ensures_bind, ensures_modify]
  split
  next position _ =>
    split
    next v _ =>
      rw [ensures_bind, ensures_modify]
      refine ⟨Actor.keeps_mailbox hp _ (fun w hw => ?_) n, trivial⟩
      have hmem : w ∈ p.mailbox.toList.eraseIdx position := by
        simpa [Mailbox.toList] using hw
      exact List.mem_of_mem_eraseIdx hmem
    next =>
      refine Actor.keeps_mailbox hp _ ?_ n
      exact fun _ => id
  next =>
    refine Actor.keeps_mailbox hp _ ?_ n
    exact fun _ => id

/-- What is loaded is on the stack, so it is backed. -/
theorem stays_loadLocal (hp : p.Sound) (loader : Loader) (now : Time) (f : Frame) (ip : Nat)
    (index : UInt32) : Stays p.stack.size p (execute loader now f ip (.loadLocal index)) := by
  refine stays_look hp _ fun slot _ => ?_
  rw [Stays, ensures_bind, ensures_get]
  refine stays_look hp _ fun v hv => ?_
  have hmem : v ∈ p.stack.toList := by
    simpa [Stack.toList] using Array.mem_of_getElem? (Stack.slot_eq_ok_iff.1 hv)
  exact (confines_push hp (hp.stack v hmem) (Nat.le_refl _)).stays
    fun _ q hq _ => stays_done hq.sound

/-- The floor is the lower one of the value that is taken and the slot that is written. -/
theorem stays_storeLocal (hp : p.Sound) (loader : Loader) (now : Time) (f : Frame) (ip : Nat)
    (index : UInt32) :
    Stays (min (p.stack.size - 1) (f.base + index.toNat)) p
      (execute loader now f ip (.storeLocal index)) := by
  refine stays_look hp _ fun slot hslot => ?_
  have hle : min (p.stack.size - 1) (f.base + index.toNat) ≤ slot := by
    rw [localSlot] at hslot
    split at hslot
    · obtain rfl := Except.ok.inj hslot
      exact Nat.min_le_right _ _
    · cases hslot
  refine (confines_popValue hp (Nat.min_le_left _ _)).stays ?_
  rintro v q hq ⟨hv, -⟩
  exact (confines_setSlot hq.sound hv hle).stays fun _ r hr _ => stays_done hr.sound

/-- A closure takes its upvalues from the stack, as many as its routine has. -/
theorem stays_makeClosure (hp : p.Sound) (loader : Loader) (now : Time) (f : Frame) (ip : Nat)
    (index : UInt32) :
    Stays (operandFloor f p.stack.size (.makeClosure index)) p
      (execute loader now f ip (.makeClosure index)) := by
  refine stays_look hp _ fun routine hroutine => ?_
  have hsome : f.routine.nested? index.toNat = some routine := by
    cases hnested : f.routine.nested? index.toNat with
    | some r =>
      rw [hnested] at hroutine
      exact congrArg some (Except.ok.inj hroutine)
    | none =>
      rw [hnested] at hroutine
      cases hroutine
  have hfloor := Nat.le_of_eq (operandFloor_makeClosure p.stack.size hsome)
  exact (confines_makeClosure hp routine hfloor).stays fun _ q hq _ => stays_done hq.sound

theorem confines_rewind (hp : p.Sound) :
    Confines n p (modify fun p => { p with mailbox := p.mailbox.rewind }) fun _ _ => True := by
  refine ⟨Actor.keeps_mailbox hp _ ?_ _, trivial⟩
  exact fun _ => id

/-- An instruction that is neither a call nor a return stays in its call and leaves the values
below its floor alone. -/
theorem execute_spec (hp : p.Sound) (loader : Loader) (now : Time) (f : Frame) (ip : Nat)
    {i : Instruction} (hcall : ∀ nargs, i ≠ .call nargs) (hret : i ≠ .ret) :
    Stays (operandFloor f p.stack.size i) p (execute loader now f ip i) := by
  cases i with
  | nop => exact stays_done hp
  | breakpoint => exact stays_pure hp ⟨by simp, by simp, by simp⟩
  | pop count =>
    exact (confines_pop hp count.toNat (Nat.le_refl _)).stays fun _ q hq _ => stays_done hq.sound
  | constant index =>
    refine stays_look hp _ fun c _ => ?_
    exact (confines_pushConstant hp (Nat.le_refl _) c).stays fun _ q hq _ => stays_done hq.sound
  | nil =>
    exact (confines_push (v := .nil) hp trivial (Nat.le_refl _)).stays
      fun _ q hq _ => stays_done hq.sound
  | bool b =>
    exact (confines_push (v := .bool b) hp trivial (Nat.le_refl _)).stays
      fun _ q hq _ => stays_done hq.sound
  | int k =>
    exact (confines_push (v := .int k.toInt64) hp trivial (Nat.le_refl _)).stays
      fun _ q hq _ => stays_done hq.sound
  | loadLocal index => exact stays_loadLocal hp loader now f ip index
  | storeLocal index => exact stays_storeLocal hp loader now f ip index
  | importSymbol index =>
    refine stays_look hp _ fun i _ => ?_
    exact (confines_importSymbol hp (Nat.le_refl _) loader i).stays
      fun _ q hq _ => stays_done hq.sound
  | makeClosure index => exact stays_makeClosure hp loader now f ip index
  | jump displacement =>
    exact stays_look hp _ fun target _ => stays_jump hp target
  | jumpUnless displacement =>
    refine stays_look hp _ fun target _ => ?_
    refine (confines_popValue hp (Nat.le_refl _)).stays fun condition q hq _ => ?_
    dsimp only
    split
    next => exact stays_jump hq.sound target
    next => exact stays_done hq.sound
  | call nargs => exact absurd rfl (hcall nargs)
  | ret => exact absurd rfl hret
  | send => exact stays_send hp (Nat.le_refl _)
  | receive displacement => exact stays_receive hp (Nat.le_refl _) now ip displacement _
  | remove =>
    refine (confines_remove hp).stays fun _ q hq _ => ?_
    exact (confines_receiveDeadline hq.sound none).stays fun _ r hr _ => stays_done hr.sound
  | rewind => exact (confines_rewind hp).stays fun _ r hr _ => stays_done hr.sound

end Machine

end ActorMachine
