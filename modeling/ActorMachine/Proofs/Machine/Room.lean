import ActorMachine.Proofs.Content
import ActorMachine.Proofs.Heap.Accounts
import ActorMachine.Proofs.Heap.Collection
import ActorMachine.Proofs.Machine.Ages
import ActorMachine.Proofs.Machine.Upkeep

/-!
# Making room

Before it allocates, an actor makes room. Whether it collects for that depends on how much garbage
there is and on when the last collection was. What comes of it does not.

* `Heap.liveBytes`, `Actor.liveBytes`: the bytes charged for what the roots reach. A collection
  leaves exactly that (`Heap.Accounts.available_collect`).
* `Sweeps`: nothing has changed but that some objects are gone which nothing reached.
* `Actor.tidied`: the actor that has made ready. `le_available_tidied_iff`: it has room for some
  bytes exactly if what is live leaves enough of the limit.
* `makesRoom_of_reached`: so every actor that is reached makes room for every number of bytes for
  which what is live leaves enough.
-/

namespace ActorMachine

namespace Heap

variable {h t : Heap} {roots : List Value} {handle : Handle} {config : HeapConfig}

/-- Bytes charged for the objects that some values reach. -/
def liveBytes (h : Heap) (roots : List Value) : Nat :=
  chargeOf (h.kept roots)

/-- What is charged is charged for what is reached or for garbage. -/
theorem Accounts.liveBytes_le (hacc : h.Accounts) (roots : List Value) :
    h.liveBytes roots ≤ h.used := by
  rw [hacc.used, ← chargeOf_eq_of_perm (perm_kept_append_garbage h roots), chargeOf_append]
  exact Nat.le_add_right _ _

/-- What is available and what is charged make up the limit. -/
theorem Accounts.available_add (hacc : h.Accounts) :
    h.available + chargeOf h.objects = h.config.heapLimit := by
  rw [available, ← hacc.used]
  exact Nat.sub_add_cancel hacc.used_le

/-- A collection makes all of the limit available that is not charged for what is reached. -/
theorem Accounts.available_collect (hacc : h.Accounts) (roots : List Value) :
    (h.collect roots).2.available + h.liveBytes roots = h.config.heapLimit := by
  have hevolves := evolves_collect roots h
  rw [liveBytes, ← objects_collect, (hacc.evolves hevolves).available_add,
    config_eq_of_evolves hevolves]

/-- What is reached depends on the objects that are reached only. -/
theorem Reaches.congr (hreached : h.Reaches roots handle)
    (hlook : ∀ other, h.Reaches roots other → t.lookup? other = h.lookup? other) :
    t.Reaches roots handle := by
  induction hreached with
  | root hmem hnames => exact .root hmem hnames
  | reference hbefore hlive hmem ih => exact .reference ih ((hlook _ hbefore).trans hlive) hmem

end Heap

namespace Actor

open Heap (Accounts)

variable {p q : Actor} {bytes : Nat}

/-- Bytes charged for the objects that the stack and the mailbox reach. -/
def liveBytes (p : Actor) : Nat :=
  p.heap.liveBytes p.roots

/-- Nothing has changed but that some objects are gone which neither the stack nor the mailbox
reached. -/
structure Sweeps (p q : Actor) : Prop where
  /-- Stack, frames, mailbox and everything else but the heap are as before. -/
  same : q = { p with heap := q.heap }
  /-- The settings of the heap are as before. -/
  config : q.heap.config = p.heap.config
  /-- What was reached is reached still, under the same handle. -/
  kept : ∀ handle, p.heap.Reaches p.roots handle →
    q.heap.lookup? handle = p.heap.lookup? handle ∧ q.heap.Reaches q.roots handle
  /-- Nothing else is there than what was there, in the order of the slots. -/
  objects : q.heap.objects.Sublist p.heap.objects
  /-- Only what nothing reached is gone. -/
  gone : ∀ entry ∈ p.heap.objects, entry ∉ q.heap.objects → ¬ p.heap.Reaches p.roots entry.1
  /-- A value on the stack or in the mailbox captures to what it captured to. -/
  capture : ∀ v ∈ p.roots, ∃ payload,
    Payload.capture p.heap v = .ok payload ∧ Payload.capture q.heap v = .ok payload
  /-- What is not charged for the objects that are left is available. -/
  available : q.heap.available + Heap.chargeOf q.heap.objects = q.heap.config.heapLimit

theorem sweeps_refl (hp : p.Sound) (hacc : p.heap.Accounts) : Sweeps p p where
  same := rfl
  config := rfl
  kept _ hreached := ⟨rfl, hreached⟩
  objects := .refl _
  gone _ hentry hgone := absurd hentry hgone
  capture v hv := by
    obtain ⟨payload, hpayload⟩ := Payload.exists_capture hp.heap (hp.roots v hv)
    exact ⟨payload, hpayload, hpayload⟩
  available := hacc.available_add

/-- A collection sweeps. -/
theorem sweeps_collect (hp : p.Sound) (hfits : p.heap.Fits) (hacc : p.heap.Accounts) :
    Sweeps p { p with heap := (p.heap.collect p.roots).2 } := by
  have hevolves := Heap.evolves_collect p.roots p.heap
  have hlook : ∀ handle, p.heap.Reaches p.roots handle →
      (p.heap.collect p.roots).2.lookup? handle = p.heap.lookup? handle := by
    intro handle hreached
    refine Option.ext fun object => ?_
    rw [Heap.lookup?_collect_eq_some_iff]
    exact and_iff_left hreached
  refine
    { same := rfl
      config := Heap.config_eq_of_evolves hevolves
      kept := fun handle hreached => ⟨hlook handle hreached, hreached.congr hlook⟩
      objects := ?_
      gone := fun entry hentry hgone hreached => ?_
      capture := fun v hv => ?_
      available := (hacc.evolves hevolves).available_add }
  · rw [Heap.objects_collect]
    exact List.filter_sublist
  · refine hgone (Heap.mem_objects.2 ?_)
    rw [hlook entry.1 hreached]
    exact Heap.mem_objects.1 hentry
  · obtain ⟨payload, hpayload⟩ := Payload.exists_capture hp.heap (hp.roots v hv)
    refine ⟨payload, hpayload, ?_⟩
    -- A collection lets the heap age by one loss at most, and the roots are still there.
    have hq := sound_collectGarbage hp
    have hages := Heap.ages_collect hp.heap hfits p.roots
    rw [← hpayload]
    exact Payload.capture_eq_of_ages hp.heap hq.heap hages (by decide) (hp.roots v hv)
      (hq.roots v hv) fun _ _ => id

/-- The actor that has made ready for some bytes: it has collected if that was due or the room was
short. -/
def tidied (p : Actor) (bytes : Nat) : Actor :=
  if p.heap.shouldCollect || decide (p.heap.available < bytes) then
    { p with heap := (p.heap.collect p.roots).2 }
  else p

/-- Making room fails exactly if there is still too little of it then. -/
theorem ensures_prepareHeap {ok : Unit → Actor → Prop} {fail : Fault → Actor → Prop} :
    Ensures (prepareHeap bytes) p ok fail ↔
      (bytes ≤ (p.tidied bytes).heap.available → ok () (p.tidied bytes)) ∧
        ((p.tidied bytes).heap.available < bytes →
          fail (.outOfMemory bytes (p.tidied bytes).heap.available) (p.tidied bytes)) := by
  rw [prepareHeap, ensures_bind, ensures_get, tidied]
  dsimp only
  split
  next =>
    rw [ensures_bind, ensures_discard, ensures_collectGarbage, ensures_onHeap,
      Heap.ensures_reserve]
  next => rw [ensures_onHeap, Heap.ensures_reserve]

theorem sweeps_tidied (hp : p.Sound) (hfits : p.heap.Fits) (hacc : p.heap.Accounts)
    (bytes : Nat) : Sweeps p (p.tidied bytes) := by
  rw [tidied]
  split
  next => exact sweeps_collect hp hfits hacc
  next => exact sweeps_refl hp hacc

/-- How much room there is then: all that what is live leaves, or what there was before if that was
enough. -/
theorem available_tidied (hacc : p.heap.Accounts) (bytes : Nat) :
    (p.tidied bytes).heap.available + p.liveBytes = p.heap.config.heapLimit ∨
      (p.heap.shouldCollect = false ∧ bytes ≤ p.heap.available ∧ p.tidied bytes = p) := by
  by_cases hdue : (p.heap.shouldCollect || decide (p.heap.available < bytes)) = true
  · rw [tidied, if_pos hdue]
    exact .inl (hacc.available_collect p.roots)
  · obtain ⟨hcollect, hshort⟩ := Bool.or_eq_false_iff.1 (Bool.eq_false_of_not_eq_true hdue)
    rw [tidied, if_neg hdue]
    exact .inr ⟨hcollect, Nat.not_lt.1 (decide_eq_false_iff_not.1 hshort), rfl⟩

/-- It is enough exactly if what is live leaves enough. -/
theorem le_available_tidied_iff (hacc : p.heap.Accounts) :
    bytes ≤ (p.tidied bytes).heap.available ↔
      p.liveBytes + bytes ≤ p.heap.config.heapLimit := by
  rcases available_tidied hacc bytes with hlive | ⟨-, hroom, hsame⟩
  · omega
  · -- Without a collection more than what is live is charged, and there was room all the same.
    have hle : p.liveBytes ≤ p.heap.used := hacc.liveBytes_le p.roots
    have hlimit := hacc.used_le
    rw [hsame]
    rw [Heap.available] at hroom ⊢
    omega

end Actor

namespace Machine

open Actor (Sweeps prepareHeap)

variable {config : ActorConfig} {p : Actor}

/-- Making room for a number of bytes depends on what is live and on the limit only, and cannot be
noticed. -/
structure MakesRoom (config : ActorConfig) (p : Actor) (bytes : Nat) : Prop where
  /-- It succeeds exactly if what is live leaves enough of the limit. -/
  succeeds_iff : (∃ q, prepareHeap bytes p = .ok () q) ↔
    p.liveBytes + bytes ≤ config.heap.heapLimit
  /-- Then there is room for as many bytes more, and only garbage is gone. -/
  made : ∀ q, prepareHeap bytes p = .ok () q → Sweeps p q ∧ bytes ≤ q.heap.available
  /-- Otherwise the fault says what is available, and only garbage is gone. -/
  refused : ∀ fault q, prepareHeap bytes p = .error fault q →
    Sweeps p q ∧ fault = .outOfMemory bytes q.heap.available

/-- Every actor makes room for as many bytes as what is live leaves of the limit, and nothing that
it can reach changes thereby. -/
theorem makesRoom_of_reached (h : Reached config p) (bytes : Nat) : MakesRoom config p bytes := by
  have hheap := heap_of_reached h
  have hacc := Heap.accounts_of_reached hheap
  have hsweeps := Actor.sweeps_tidied (steady_of_reached h).sound (fits_of_reached h) hacc bytes
  -- Whether a collection takes place or not, it is what is live that decides about the room.
  have hroom : bytes ≤ (p.tidied bytes).heap.available ↔
      p.liveBytes + bytes ≤ p.heap.config.heapLimit := Actor.le_available_tidied_iff hacc
  rw [Heap.config_of_reached hheap] at hroom
  have hspec : Ensures (prepareHeap bytes) p
      (fun _ q => p.liveBytes + bytes ≤ config.heap.heapLimit ∧ Sweeps p q ∧
        bytes ≤ q.heap.available)
      (fun fault q => ¬ p.liveBytes + bytes ≤ config.heap.heapLimit ∧ Sweeps p q ∧
        fault = .outOfMemory bytes q.heap.available) := by
    rw [Actor.ensures_prepareHeap]
    refine ⟨fun henough => ⟨hroom.1 henough, hsweeps, henough⟩, fun hshort => ⟨?_, hsweeps, rfl⟩⟩
    exact fun hlive => absurd (hroom.2 hlive) (Nat.not_le.2 hshort)
  refine
    { succeeds_iff := ⟨fun ⟨q, hq⟩ => (hspec.of_ok hq).1, fun hlive => ?_⟩
      made := fun q hq => (hspec.of_ok hq).2
      refused := fun fault q hq => (hspec.of_error hq).2 }
  cases hrun : prepareHeap bytes p with
  | ok _ q => exact ⟨q, rfl⟩
  | error fault q => exact absurd hlive (hspec.of_error hrun).1

/-- A function that forgets its argument. -/
def forgetter : Routine :=
  .loose { Prototype.blank with arguments := 1, code := #[.nil, .storeLocal 0, .ret] }

/-- An actor that has forgotten nine bytes, which are garbage now. -/
def forgetful : Actor :=
  let config : ActorConfig := { heap := { heapLimit := 150 } }
  stepped .standard 0 (started config (.closure forgetter []) [.string "forgotten"]) 2

/-- Only its function is live. -/
theorem liveBytes_forgetful : forgetful.liveBytes = 88 := by
  have hroots : forgetful.roots.filterMap Value.handle? = [⟨0, 0⟩] := by decide +kernel
  have hsize : forgetful.heap.slots.size = 2 := by decide +kernel
  have hclosure : (forgetful.heap.lookup? ⟨0, 0⟩).map HeapObject.references = some [] := by
    decide +kernel
  obtain ⟨closure, hclosure, hleads⟩ := Option.map_eq_some_iff.1 hclosure
  have hmarks : forgetful.heap.marksFrom forgetful.roots = #[true, false] := by
    rw [Heap.marksFrom, hroots, hsize]
    simp [Heap.mark, hclosure, hleads]
    rfl
  rw [Actor.liveBytes, Heap.liveBytes, Heap.kept_eq, hmarks]
  decide +kernel

/-- Room for sixty bytes is made by a collection. For one byte more than what is live leaves there
is none, whatever is collected. -/
theorem makesRoom_forgetful :
    let config : ActorConfig := { heap := { heapLimit := 150 } }
    Reached config forgetful ∧ forgetful.heap.used = 97 ∧ forgetful.liveBytes = 88 ∧
      MakesRoom config forgetful 60 ∧ MakesRoom config forgetful 63 := by
  intro config
  have hreached : Reached config forgetful :=
    reached_stepped (reached_started (by decide +kernel)) .standard 0 2
  exact ⟨hreached, by decide +kernel, liveBytes_forgetful, makesRoom_of_reached hreached 60,
    makesRoom_of_reached hreached 63⟩

end Machine

end ActorMachine
