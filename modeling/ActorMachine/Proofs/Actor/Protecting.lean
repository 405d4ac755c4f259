import ActorMachine.Proofs.Actor.Recovery
import ActorMachine.Proofs.Copying
import ActorMachine.Proofs.Machine.Room

/-!
# Bringing back what was there before a failure

An action that is protected may fail wherever it is. Stack and frames are then cut back to what they
were, and the fault is described on top of the stack. Nothing is assumed of the actor but that its
stack fits and that its heap has come about by operations: there may be handles made up by hand on
the stack and in the heap.

* `Retains`: nothing has changed but stack and heap, and what the roots reach is as it was.
* `ensures_pushError`: the description of a fault is put on the stack if the stack admits one more
  value, and nothing is put there otherwise.
* `protect_restores_iff`: so the stack is the one at entry with the description on top exactly if
  the stack, cut back, admits one more value. It is the one at entry without a description if not.
-/

namespace ActorMachine.Actor

variable {p q r : Actor} {config : HeapConfig} {fault : Fault} {x : Handle} {object : HeapObject}
  {bytes : Nat} {α : Type}

/-- Nothing has changed but the stack and the heap, and what the stack and the mailbox reached is as
it was. -/
structure Retains (p q : Actor) : Prop where
  /-- Frames, mailbox and everything else are as before. -/
  same : q = { p with stack := q.stack, heap := q.heap }
  /-- What was reached is under its handle as it was. -/
  kept : ∀ x object, p.heap.Reaches p.roots x → p.heap.lookup? x = some object →
    q.heap.lookup? x = some object

/-- What is live leaves room for a text. -/
def RoomFor (p : Actor) (text : String) : Prop :=
  p.liveBytes + text.utf8ByteSize ≤ p.heap.config.heapLimit

theorem Retains.mono {q' : Actor} (hpq : Retains p q)
    (hsame : q' = { q with stack := q'.stack, heap := q'.heap })
    (hkept : ∀ x object, q.heap.lookup? x = some object → q'.heap.lookup? x = some object) :
    Retains p q' where
  same := by rw [hsame, hpq.same]
  kept x object hreaches hlook := hkept x object (hpq.kept x object hreaches hlook)

/-! ### Making ready -/

@[simp]
theorem stack_tidied (p : Actor) (bytes : Nat) : (p.tidied bytes).stack = p.stack := by
  rw [tidied]
  split <;> rfl

/-- A heap that has come about by operations has come about so after making ready. -/
theorem reached_tidied (hheap : Heap.Reached config p.heap) (bytes : Nat) :
    Heap.Reached config (p.tidied bytes).heap := by
  rw [tidied]
  split
  next => exact .next (.collect p.roots) hheap
  next => exact hheap

/-- Making ready does away with garbage only. -/
theorem retains_tidied (p : Actor) (bytes : Nat) : Retains p (p.tidied bytes) := by
  rw [tidied]
  split
  next => exact ⟨rfl, fun _ _ hreaches hlook =>
    Heap.lookup?_collect_eq_some_iff.2 ⟨hlook, hreaches⟩⟩
  next => exact ⟨rfl, fun _ _ _ hlook => hlook⟩

/-- If the room is short even so, a collection has just been made. -/
theorem sinceCollection_tidied (hshort : (p.tidied bytes).heap.available < bytes) :
    (p.tidied bytes).heap.sinceCollection = 0 := by
  rw [tidied] at hshort ⊢
  split at hshort
  next hdue => rw [if_pos hdue]; rfl
  next hdue => simp [hshort] at hdue

/-! ### Describing a fault -/

/-- A string is put on the stack if there is room for it and the stack admits one more value. If it
is not, the stack is as it was. -/
theorem ensures_pushString (hfits : p.stack.Fits) (hheap : Heap.Reached config p.heap)
    (text : String) :
    Ensures (pushString text) p
      (fun _ q => Retains p q ∧ p.stack.Admits 1 ∧ p.RoomFor text ∧
        ∃ r, q.stack.toList = p.stack.toList ++ [.ref r] ∧ q.heap.string r = .ok text)
      (fun _ q => Retains p q ∧ q.stack = p.stack ∧ (p.stack.Admits 1 → ¬ p.RoomFor text ∧
        q.heap.available < text.utf8ByteSize ∧ q.heap.sinceCollection = 0)) := by
  -- Whether a collection comes first or not, the room that there is for the text is what is asked.
  have hroom : text.utf8ByteSize ≤ (p.tidied text.utf8ByteSize).heap.available ↔ p.RoomFor text :=
    le_available_tidied_iff (Heap.accounts_of_reached hheap)
  have hfree := (Heap.balanced_of_reached (reached_tidied hheap text.utf8ByteSize)).freeList
  have hretains := retains_tidied p text.utf8ByteSize
  rw [pushString, ensures_bind, ensures_prepareHeap]
  refine ⟨fun henough => ?_, fun hshort => ?_⟩
  · rw [ensures_bind, ensures_onHeap, Heap.allocString]
    refine Heap.ensures_alloc hfree (.string text) rfl henough fun r heap hadds _ hlook hkind => ?_
    rw [push, ensures_onStack, stack_tidied]
    refine (Stack.push_spec hfits (.ref r)).mono ?_ ?_
    · rintro _ _ ⟨capacity, rfl, -, -, hadmits⟩
      exact ⟨hretains.mono rfl fun _ _ => hadds.kept, hadmits, hroom.1 henough, r,
        Stack.toList_pushed _ _ _, Heap.string_eq_ok_iff.2 ⟨hlook, hkind⟩⟩
    · -- The string stays, and nothing refers to it.
      rintro _ _ ⟨rfl, -, hfull, -⟩
      exact ⟨hretains.mono rfl fun _ _ => hadds.kept, rfl, fun hadmits => absurd hadmits hfull⟩
  · exact ⟨hretains, stack_tidied p _, fun _ =>
      ⟨fun henough => absurd (hroom.2 henough) (Nat.not_le.2 hshort), hshort,
        sinceCollection_tidied hshort⟩⟩

/-- The description of a fault is put on the stack exactly if the stack admits one more value. It is
nil exactly if what is live leaves no room for the message. -/
theorem ensures_pushError (hfits : p.stack.Fits) (hheap : Heap.Reached config p.heap)
    (fault : Fault) :
    Ensures (pushError fault) p
      (fun _ q => Retains p q ∧
        (p.stack.Admits 1 → ∃ d, q.stack.toList = p.stack.toList ++ [d] ∧
          Describes q.heap fault d ∧ (d = .nil ↔ ¬ p.RoomFor fault.message)) ∧
        (¬ p.stack.Admits 1 → q.stack = p.stack))
      (fun _ _ => False) := by
  rw [pushError, ensures_bind, ensures_attempt]
  refine (ensures_pushString hfits hheap fault.message).mono ?_ ?_
  · rintro _ q ⟨hretains, hadmits, hroom, r, hstack, htext⟩
    refine ⟨hretains, fun _ => ⟨.ref r, hstack, htext, ?_, fun hshort => absurd hroom hshort⟩,
      fun hfull => absurd hadmits hfull⟩
    rintro ⟨⟩
  · rintro _ q ⟨hretains, hstack, hshort⟩
    -- Nil takes the place of the string, and needs no less of the stack.
    rw [ensures_discard, ensures_attempt, push, ensures_onStack, hstack]
    refine (Stack.push_spec hfits .nil).mono ?_ ?_
    · rintro _ _ ⟨capacity, rfl, -, -, hadmits⟩
      obtain ⟨hroom, hdescribes⟩ := hshort hadmits
      exact ⟨hretains.mono rfl fun _ _ => id,
        fun _ => ⟨.nil, Stack.toList_pushed _ _ _, hdescribes, fun _ => hroom, fun _ => rfl⟩,
        fun hfull => absurd hadmits hfull⟩
    · rintro _ _ ⟨rfl, -, hfull, -⟩
      exact ⟨hretains.mono rfl fun _ _ => id, fun hadmits => absurd hadmits hfull, fun _ => rfl⟩

/-! ### Protecting an action -/

/-- The actor `q`, cut back to the height of the stack and to the calls of `p`. -/
def cutBack (p q : Actor) : Actor :=
  { q with stack := q.stack.truncate p.stack.size, frames := p.frames }

/-- A failure is described in the actor that is cut back, and is passed on. -/
theorem protect_of_error {act : Action α} (hfail : act p = .error fault q)
    (hframes : p.frames <:+ q.frames) :
    protect act p = (do pushError fault; throw fault) (cutBack p q) := by
  have hdrop : q.frames.drop (q.frames.length - p.frames.length) = p.frames :=
    (List.suffix_iff_eq_drop.1 hframes).symm
  have hattempt : attempt act p = .ok (.error fault) q := by rw [attempt, hfail]
  rw [cutBack, ← hdrop]
  simp only [protect, bind, EStateM.bind, get, getThe, MonadStateOf.get, estateM_get, hattempt]
  rfl

/-- An action that has failed after it has left what was on the stack and in progress at entry in
place: it is brought back, and the fault is passed on. The fault is described on top exactly if the
stack, cut back to what was there, admits one more value; the description is the message of the
fault, or nil exactly if what is live then leaves no room for the message. -/
theorem protect_restores_iff {act : Action α} (hfail : act p = .error fault q)
    (hstack : p.stack.toList <+: q.stack.toList) (hframes : p.frames <:+ q.frames)
    (hfits : q.stack.Fits) (hheap : Heap.Reached config q.heap) :
    ∃ r, protect act p = .error fault r ∧
      r = { q with frames := p.frames, stack := r.stack, heap := r.heap } ∧
      (∀ x object, q.heap.Reaches (p.stack.toList ++ q.mailbox.toList) x →
        q.heap.lookup? x = some object → r.heap.lookup? x = some object) ∧
      ((∃ d, r.stack.toList = p.stack.toList ++ [d] ∧ Describes r.heap fault d ∧
          (d = .nil ↔ config.heapLimit < q.heap.liveBytes (p.stack.toList ++ q.mailbox.toList) +
            fault.message.utf8ByteSize)) ↔
        (q.stack.truncate p.stack.size).Admits 1) ∧
      (¬ (q.stack.truncate p.stack.size).Admits 1 → r.stack.toList = p.stack.toList) := by
  have hcut : (q.stack.truncate p.stack.size).toList = p.stack.toList := by
    rw [Stack.toList_truncate, ← Stack.length_toList]
    exact (List.prefix_iff_eq_take.1 hstack).symm
  have hspec := ensures_pushError (p := cutBack p q) (hfits.truncate p.stack.size) hheap fault
  obtain ⟨_, r, hrun, hretains, hadmitted, hfull⟩ := hspec.exists_ok
  -- So what is live then is told by the stack at entry and by the mailbox.
  have hroots : (cutBack p q).roots = p.stack.toList ++ q.mailbox.toList :=
    congrArg (· ++ q.mailbox.toList) hcut
  have hroom : ¬ (cutBack p q).RoomFor fault.message ↔
      config.heapLimit < q.heap.liveBytes (p.stack.toList ++ q.mailbox.toList) +
        fault.message.utf8ByteSize := by
    rw [RoomFor, liveBytes, hroots, ← Heap.config_of_reached hheap, Nat.not_le]
    rfl
  rw [hroom] at hadmitted
  refine ⟨r, ?_, hretains.same, ?_, ⟨?_, fun hadmits => ?_⟩, fun hrefused => ?_⟩
  · rw [protect_of_error hfail hframes]
    simp only [bind, EStateM.bind, hrun]
    rfl
  · rw [← hroots]
    exact hretains.kept
  · -- Nothing is described on top if no more is admitted.
    rintro ⟨d, hd, -⟩
    by_contra hrefused
    rw [hfull hrefused] at hd
    exact absurd (hcut.symm.trans hd) (by simp)
  · obtain ⟨d, hd, hdescribes⟩ := hadmitted hadmits
    exact ⟨d, hd.trans (congrArg (· ++ [d]) hcut), hdescribes⟩
  · rw [hfull hrefused]
    exact hcut

/-- An actor with a value on its stack, which may not become higher than this. -/
def topped (maxStack : Nat) : Actor :=
  let p := create ⟨1⟩ { maxStack }
  { p with stack := { p.stack with values := #[.bool true], capacity := 1 } }

/-- Two values are pushed, and then a code is thrown. -/
def pushThrow : Action Unit := do
  push (.int 2)
  push (.int 3)
  throw (.thrown 7)

/-- Both values are gone afterwards, and the message is on top of what was there. -/
theorem protect_restores_iff_pushThrow :
    ∃ r h, protect pushThrow (topped 16) = .error (.thrown 7) r ∧ r.frames = [] ∧
      r.stack.toList = [.bool true, .ref h] ∧ r.heap.string h = .ok "thrown error code 7" := by
  obtain ⟨q, hfail, hstack, hframes, hheap⟩ : ∃ q, pushThrow (topped 16) = .error (.thrown 7) q ∧
      q.stack = ⟨#[.bool true, .int 2, .int 3], 16, 16⟩ ∧ q.frames = [] ∧ q.heap = .empty {} :=
    ⟨_, rfl, rfl, rfl, rfl⟩
  have hfits : q.stack.Fits := by
    rw [hstack]
    exact ⟨by decide, by decide, by decide⟩
  have hreached : Heap.Reached {} q.heap := by
    rw [hheap]
    exact .empty
  obtain ⟨r, hrun, hsame, -, hiff, -⟩ := protect_restores_iff hfail (by rw [hstack]; decide)
    (by rw [hframes]; exact List.suffix_refl _) hfits hreached
  have hadmits : (q.stack.truncate (topped 16).stack.size).Admits 1 := by
    rw [(hfits.truncate _).admits_iff (.inl (by rw [hstack]; decide)), hstack]
    decide
  obtain ⟨d, hd, hdescribes, hnil⟩ := hiff.2 hadmits
  -- Nothing is live, so there is room for the message.
  have hlive := (Heap.accounts_of_reached hreached).liveBytes_le
    ((topped 16).stack.toList ++ q.mailbox.toList)
  have hused : q.heap.used = 0 := by rw [hheap]; rfl
  have hmessage : (Fault.thrown 7).message.utf8ByteSize = 19 := by decide +kernel
  cases d with
  | ref h => exact ⟨r, h, hrun, by rw [hsame]; rfl, hd, hdescribes⟩
  | nil =>
    have hshort := hnil.1 rfl
    rw [hmessage] at hshort
    have hlimit : ({} : HeapConfig).heapLimit = 67108864 := rfl
    omega
  | _ => exact hdescribes.elim

/-- A stack that has reached its limit gets no description, so an action that is protected need not
be described. -/
theorem not_protect_describes :
    ¬ ∀ (act : Action Unit) (p q : Actor) (fault : Fault),
      act p = .error fault q → p.stack.toList <+: q.stack.toList → p.frames <:+ q.frames →
      q.stack.Fits → Heap.Reached q.config.heap q.heap →
      ∃ r d, protect act p = .error fault r ∧ r.frames = p.frames ∧
        r.stack.toList = p.stack.toList ++ [d] ∧
        (d = .nil ∨ ∃ h, d = .ref h ∧ r.heap.string h = .ok fault.message) := by
  intro hclaim
  obtain ⟨r, d, hrun, -, hstack, -⟩ := hclaim (throw (.thrown 7)) (topped 1) (topped 1) (.thrown 7)
    rfl (List.prefix_refl _) (List.suffix_refl _) ⟨by decide, by decide, by decide⟩ .empty
  obtain ⟨r', hrun', hheight⟩ : ∃ r', protect (throw (.thrown 7) : Action Unit) (topped 1) =
      .error (.thrown 7) r' ∧ r'.stack.toList = [.bool true] := ⟨_, rfl, rfl⟩
  obtain ⟨-, rfl⟩ := EStateM.Result.error.inj (hrun.symm.trans hrun')
  rw [hheight] at hstack
  have hlength : 1 = (topped 1).stack.size + 1 := by
    simpa using congrArg List.length hstack
  exact absurd hlength (by decide)

end ActorMachine.Actor
