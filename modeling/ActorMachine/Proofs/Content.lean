import ActorMachine.Proofs.Heap.Ages
import ActorMachine.Proofs.Payload

/-!
# What values stand for

* `Part`: what is captured along with a value.
* `capture_eq_of_ages`: a value that is there before and after captures to the same payload, unless
  a buffer that is part of it was written to.
-/

namespace ActorMachine

open Heap (Ages)

variable {h t u : Heap} {n : Nat} {written : Set Handle} {v w : Value} {payload : Payload}

/-- A value is part of another one: it is that, or part of what a closure there has captured. -/
inductive Heap.Part (h : Heap) : Value → Value → Prop
  /-- It is that. -/
  | whole (v : Value) : Part h v v
  /-- It is part of what was captured. -/
  | captured {r : HeapRef} {routine : Routine} {upvalues : Array Value} {v w : Value}
      (closure : h.lookup? r.handle = some (.closure routine upvalues)) (mem : v ∈ upvalues)
      (part : Part h v w) : Part h (.ref r) w

namespace Payload

/-! ### The depth of a capture -/

theorem bind_eq_pure_iff {α β : Type} {x : ExceptT Fault Option α}
    {f : α → ExceptT Fault Option β} {b : β} :
    (x >>= f) = pure b ↔ ∃ a, x = pure a ∧ f a = pure b := by
  match x with
  | none => exact ⟨nofun, fun ⟨_, hx, _⟩ => nomatch hx⟩
  | some (.error fault) => exact ⟨nofun, fun ⟨_, hx, _⟩ => nomatch hx⟩
  | some (.ok a) =>
    refine ⟨fun hf => ⟨a, rfl, hf⟩, fun ⟨a', hx, hf⟩ => ?_⟩
    obtain rfl := Except.ok.inj (Option.some.inj hx)
    exact hf

theorem pure_inj {α : Type} {a b : α} (h : (pure a : ExceptT Fault Option α) = pure b) : a = b :=
  Except.ok.inj (Option.some.inj h)

/-- What is captured from some values is captured from each of them. -/
theorem mapM_eq_pure_iff {α β : Type} {f : α → ExceptT Fault Option β} {as : List α}
    {bs : List β} : as.mapM f = pure bs ↔ List.Forall₂ (fun a b => f a = pure b) as bs := by
  induction as generalizing bs with
  | nil =>
    rw [List.mapM_nil, List.forall₂_nil_left_iff]
    exact ⟨fun h => (pure_inj h).symm, fun h => by rw [h]⟩
  | cons a as ih =>
    rw [List.mapM_cons, bind_eq_pure_iff, List.forall₂_cons_left_iff]
    constructor
    · rintro ⟨b, hb, hrest⟩
      obtain ⟨bs', hbs', heq⟩ := bind_eq_pure_iff.1 hrest
      exact ⟨b, bs', hb, ih.1 hbs', (pure_inj heq).symm⟩
    · rintro ⟨b, bs', hb, hbs', rfl⟩
      exact ⟨b, hb, bind_eq_pure_iff.2 ⟨bs', ih.2 hbs', rfl⟩⟩

/-- The second result is the first one, if there is a first one. -/
def Extends {α : Type} (x y : ExceptT Fault Option α) : Prop :=
  ∀ result, x = .mk (some result) → y = .mk (some result)

theorem Extends.bind {α β : Type} {x y : ExceptT Fault Option α}
    {f g : α → ExceptT Fault Option β} (hxy : Extends x y) (hfg : ∀ a, Extends (f a) (g a)) :
    Extends (x >>= f) (y >>= g) := by
  intro result hresult
  match x with
  | none => cases hresult
  | some (.error fault) =>
    obtain rfl := hxy _ rfl
    exact hresult
  | some (.ok a) =>
    obtain rfl := hxy _ rfl
    exact hfg a result hresult

/-- Capturing values one after the other has more results if capturing each of them has. -/
theorem Extends.mapM {α β : Type} {f g : α → ExceptT Fault Option β}
    (hfg : ∀ a, Extends (f a) (g a)) (as : List α) : Extends (as.mapM f) (as.mapM g) := by
  induction as with
  | nil => exact fun _ => id
  | cons a as ih =>
    rw [List.mapM_cons, List.mapM_cons]
    exact (hfg a).bind fun b => ih.bind fun bs => fun _ => id

/-- A capture that has an answer, be it a payload or a fault, has the same answer at any greater
depth. -/
theorem captureWithin_extends (h : Heap) (depth : Nat) (v : Value) :
    Extends (captureWithin h depth v) (captureWithin h (depth + 1) v) := by
  induction depth generalizing v with
  | zero =>
    cases v with
    | ref r => exact nofun
    | _ => exact fun _ => id
  | succ depth ih =>
    cases v with
    | ref r =>
      rw [captureWithin, captureWithin]
      refine Extends.bind (fun _ => id) fun object => ?_
      cases object with
      | closure routine upvalues =>
        -- Only the upvalues are captured at a smaller depth.
        exact (Extends.mapM ih upvalues.toList).bind fun payloads => fun _ => id
      | _ => exact fun _ => id
    | _ => exact fun _ => id

theorem captureWithin_extends_of_le (v : Value) {depth depth' : Nat} (hle : depth ≤ depth') :
    Extends (captureWithin h depth v) (captureWithin h depth' v) := by
  induction hle with
  | refl => exact fun _ => id
  | step _ ih => exact fun result hresult => captureWithin_extends h _ v _ (ih result hresult)

theorem captureWithin_of_le {depth depth' : Nat} (hle : depth ≤ depth')
    (hv : captureWithin h depth v = pure payload) : captureWithin h depth' v = pure payload :=
  captureWithin_extends_of_le v hle _ hv

/-- A capture that succeeds is the answer at the depth that it takes for enough. -/
theorem captureWithin_of_capture (hpayload : capture h v = .ok payload) :
    captureWithin h (h.slots.size + 1) v = pure payload := by
  rw [capture] at hpayload
  generalize captureWithin h (h.slots.size + 1) v = x at hpayload ⊢
  rcases x with _ | (fault | payload')
  · cases hpayload
  · cases hpayload
  · obtain rfl := Except.ok.inj hpayload
    rfl

/-- An answer at some depth is that of the capture. -/
theorem capture_of_captureWithin (hs : h.Sound) (hv : h.Backs v) {depth : Nat}
    (hpayload : captureWithin h depth v = pure payload) : capture h v = .ok payload := by
  obtain ⟨payload', hpayload'⟩ := exists_capture hs hv
  -- Both answers are the one at the greater of the two depths.
  have h1 := captureWithin_of_le (Nat.le_max_left depth (h.slots.size + 1)) hpayload
  have h2 := captureWithin_of_le (Nat.le_max_right depth (h.slots.size + 1))
    (captureWithin_of_capture hpayload')
  rw [pure_inj (h1.symm.trans h2)]
  exact hpayload'

/-! ### Captures as heaps age -/

/-- Capturing values one after the other depends on the single captures alone. -/
theorem mapM_congr {α β : Type} {f g : α → ExceptT Fault Option β} {as : List α}
    (hfg : ∀ a ∈ as, f a = g a) : as.mapM f = as.mapM g := by
  induction as with
  | nil => rfl
  | cons a as ih =>
    rw [List.mapM_cons, List.mapM_cons, hfg a List.mem_cons_self,
      ih fun b hb => hfg b (List.mem_cons_of_mem a hb)]

/-- The bytes in use that are captured are found behind the header. -/
theorem bufferBytes_eq_ok {r : HeapRef} {header : BufferHeader} (hs : h.Sound)
    (hheader : h.header r = .ok header) :
    ∃ bytes, h.bufferBytes r = .ok bytes ∧ h.inUse header = some bytes := by
  obtain ⟨bytes, hbytes, -⟩ := Heap.exists_region hs hheader
  exact ⟨bytes.extract 0 header.size, Heap.bufferBytes_of_header hheader hbytes,
    Heap.inUse_eq_of_lookup? hbytes⟩

/-- A value that is there before and after has the same content, at every depth, if no part of it
was written to. -/
theorem captureWithin_eq_of_ages (hs : h.Sound) (ht : t.Sound) (hages : Ages n written h t)
    (hn : n < 2 ^ 32) (hv : h.Backs v) (hv' : t.Backs v)
    (hparts : ∀ r, h.Part v (.ref r) → r.handle ∉ written) (depth : Nat) :
    captureWithin t depth v = captureWithin h depth v := by
  induction depth generalizing v with
  | zero => cases v <;> rfl
  | succ depth ih =>
    cases v with
    | ref r =>
      obtain ⟨object, object', hlook, hlook', hsame⟩ :=
        hages.sameContent hn hv hv' (hparts r (.whole _))
      -- The reference is tagged rightly before and after, so both captures read the object.
      have hkind : object.kind = r.kind := by
        obtain ⟨⟨o, ho, hkind⟩, -⟩ := hv
        rwa [Option.some.inj (hlook.symm.trans ho)]
      have hkind' : object'.kind = r.kind := by
        obtain ⟨⟨o, ho, hkind⟩, -⟩ := hv'
        rwa [Option.some.inj (hlook'.symm.trans ho)]
      rw [captureWithin, captureWithin, Heap.deref_eq_ok_iff.2 ⟨hlook, hkind⟩,
        Heap.deref_eq_ok_iff.2 ⟨hlook', hkind'⟩]
      cases object with
      | string text | fixedBuffer bytes =>
        obtain rfl := hsame
        rfl
      | buffer header =>
        cases object' <;> cases hkind.trans hkind'.symm
        rename_i header'
        -- The two headers may differ, but the bytes behind them do not.
        obtain ⟨bytes, hbytes, huse⟩ :=
          bufferBytes_eq_ok hs (Heap.header_eq_ok_iff.2 ⟨hlook, hkind.symm⟩)
        obtain ⟨bytes', hbytes', huse'⟩ :=
          bufferBytes_eq_ok ht (Heap.header_eq_ok_iff.2 ⟨hlook', hkind'.symm⟩)
        have heq : bytes' = bytes :=
          Option.some.inj (huse'.symm.trans (Eq.trans hsame huse))
        change (captureWithin.liftExcept (t.bufferBytes r) >>= _) =
          (captureWithin.liftExcept (h.bufferBytes r) >>= _)
        rw [hbytes', hbytes, heq]
      | closure routine upvalues =>
        -- What the closure has captured is part of the value, and has aged no more than this.
        obtain rfl := hsame
        have hups : upvalues.toList.mapM (captureWithin t depth) =
            upvalues.toList.mapM (captureWithin h depth) := by
          refine mapM_congr fun u hu => ?_
          have hmem : u ∈ upvalues := Array.mem_toList_iff.1 hu
          exact ih (hs.upvalues hlook u hmem) (ht.upvalues hlook' u hmem) fun s hs =>
            hparts s (.captured hlook hmem hs)
        change (upvalues.toList.mapM (captureWithin t depth) >>= _) =
          (upvalues.toList.mapM (captureWithin h depth) >>= _)
        rw [hups]
    | _ => rfl

/-- A value that is there before and after captures to the same payload, if no part of it was
written to. -/
theorem capture_eq_of_ages (hs : h.Sound) (ht : t.Sound) (hages : Ages n written h t)
    (hn : n < 2 ^ 32) (hv : h.Backs v) (hv' : t.Backs v)
    (hparts : ∀ r, h.Part v (.ref r) → r.handle ∉ written) : capture t v = capture h v := by
  obtain ⟨payload, hpayload⟩ := exists_capture hs hv
  have hdepth := captureWithin_of_capture hpayload
  have hsame := captureWithin_eq_of_ages hs ht hages hn hv hv' hparts (h.slots.size + 1)
  rw [hpayload]
  exact capture_of_captureWithin ht hv' (hsame.trans hdepth)

end Payload

end ActorMachine
