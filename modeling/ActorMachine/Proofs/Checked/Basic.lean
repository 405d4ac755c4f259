import ActorMachine.Proofs.Ensures

/-!
# Programs that can crash

The machine itself is total: where a position may be wrong it looks first, and differences of
sizes are cut off at zero. An implementation takes some of these looks for granted. It accesses
an element without asking whether it is there, takes one size from another without asking
which is larger, or asserts what it does not check.

A checked action spells these places out. There it crashes, unlike the plain action, if what is
taken for granted does not hold. A crash is no fault: nothing catches it.

* `element`, `slice`, `minus` and so on: what can be taken for granted.
* `Crashing`, `sure`: actions that can crash, and plain actions as such.
* `Runs`: from one state, a checked action does what a plain one does, so it does not crash.
* `Secure`: from all states of an invariant it does so, and the invariant is kept up.
* `SecureAt`: from one state it does so, and it ends in a state of the invariant.
-/

namespace ActorMachine

variable {σ α β : Type}

/-- What has gone wrong in a crash. -/
inductive Crash
  /-- There is no element at the position. -/
  | index (position size : Nat)
  /-- There is no such part. -/
  | slice (start stop size : Nat)
  /-- The difference is below zero. -/
  | difference (size less : Nat)
  /-- Bytes are copied to a place that is larger or smaller than they are. -/
  | copy (size place : Nat)
  /-- What was asserted is false. -/
  | assertion
deriving DecidableEq, Repr

/-- Why an action has no result. -/
inductive Failure
  /-- There was a fault. -/
  | fault (fault : Fault)
  /-- There was a crash. -/
  | crash (crash : Crash)

/-- Operations that can crash. -/
abbrev Crashing (σ : Type) :=
  EStateM Failure σ

namespace Crashing

/-! ### What is taken for granted -/

/-- The element at a position. -/
def element (xs : Array α) (position : Nat) : Except Crash α :=
  match xs[position]? with
  | some x => .ok x
  | none => .error (.index position xs.size)

/-- The byte at a position. -/
def byte (bytes : ByteArray) (position : Nat) : Except Crash UInt8 :=
  element bytes.data position

/-- The elements from position `start` up to position `stop`. -/
def slice (xs : Array α) (start stop : Nat) : Except Crash (Array α) :=
  if start ≤ stop ∧ stop ≤ xs.size then .ok (xs.extract start stop)
  else .error (.slice start stop xs.size)

/-- The bytes from position `start` up to position `stop`. -/
def sliceBytes (bytes : ByteArray) (start stop : Nat) : Except Crash ByteArray :=
  if start ≤ stop ∧ stop ≤ bytes.size then .ok (bytes.extract start stop)
  else .error (.slice start stop bytes.size)

/-- The difference of two sizes. -/
def minus (size less : Nat) : Except Crash Nat :=
  if less ≤ size then .ok (size - less) else .error (.difference size less)

/-- Bytes and the place they are copied to are of the same size. -/
def sameSize (bytes place : ByteArray) : Except Crash Unit :=
  if bytes.size = place.size then .ok () else .error (.copy bytes.size place.size)

/-- A condition that is asserted. -/
def assert (condition : Prop) [Decidable condition] : Except Crash Unit :=
  if condition then .ok () else .error .assertion

theorem element_eq_ok {xs : Array α} {position : Nat} {x : α} (h : xs[position]? = some x) :
    element xs position = .ok x := by
  rw [element, h]

theorem element_eq_of_lt {xs : Array α} {position : Nat} (h : position < xs.size) :
    element xs position = .ok xs[position] :=
  element_eq_ok (Array.getElem?_eq_getElem h)

theorem slice_eq_ok {xs : Array α} {start stop : Nat} (hstart : start ≤ stop)
    (hstop : stop ≤ xs.size) : slice xs start stop = .ok (xs.extract start stop) :=
  if_pos ⟨hstart, hstop⟩

theorem sliceBytes_eq_ok {bytes : ByteArray} {start stop : Nat} (hstart : start ≤ stop)
    (hstop : stop ≤ bytes.size) : sliceBytes bytes start stop = .ok (bytes.extract start stop) :=
  if_pos ⟨hstart, hstop⟩

theorem minus_eq_ok {size less : Nat} (h : less ≤ size) : minus size less = .ok (size - less) :=
  if_pos h

theorem sameSize_eq_ok {bytes place : ByteArray} (h : bytes.size = place.size) :
    sameSize bytes place = .ok () :=
  if_pos h

theorem assert_eq_ok {condition : Prop} [Decidable condition] (h : condition) :
    assert condition = .ok () :=
  if_pos h

/-! ### Checked actions -/

/-- A fault is no crash. -/
def faulty (result : Except Fault α) : Except Failure α :=
  result.mapError .fault

/-- What is taken for granted may be wrong. -/
def granted (result : Except Crash α) : Except Failure α :=
  result.mapError .crash

/-- A plain action, which cannot crash. -/
def sure (act : EStateM Fault σ α) : Crashing σ α := fun s =>
  match act s with
  | .ok a s => .ok a s
  | .error fault s => .error (.fault fault) s

/-- Something is computed that may fail. -/
def look (result : Except Fault α) : Crashing σ α :=
  ofExcept (faulty result)

/-- Something is taken for granted. -/
def grant (result : Except Crash α) : Crashing σ α :=
  ofExcept (granted result)

/-- Fails. -/
def fail (fault : Fault) : Crashing σ α :=
  throw (.fault fault)

@[simp]
theorem sure_modify (f : σ → σ) : sure (modify f : EStateM Fault σ PUnit) = modify f := rfl

@[simp]
theorem sure_modifyGet (f : σ → α × σ) :
    sure (modifyGet f : EStateM Fault σ α) = modifyGet f := rfl

theorem sure_ofExcept (result : Except Fault α) :
    sure (ofExcept result : EStateM Fault σ α) = look result := by
  cases result <;> rfl

/-- Plain actions one after the other are checked actions one after the other. -/
theorem sure_bind (act : EStateM Fault σ β) (f : β → EStateM Fault σ α) :
    sure (act >>= f) = sure act >>= fun b => sure (f b) := by
  funext s
  simp only [sure, bind, EStateM.bind]
  cases act s <;> rfl

end Crashing

open Crashing

/-! ### Actions that do not crash -/

/-- Run from `s`, the checked action does what the plain one does. -/
def Runs (checked : Crashing σ α) (act : EStateM Fault σ α) (s : σ) : Prop :=
  checked s = sure act s

section Runs

variable {s : σ} {checked : Crashing σ α} {act : EStateM Fault σ α}

/-- An action that does what a plain one does not crash. -/
theorem Runs.ne_crash (h : Runs checked act s) (crash : Crash) (t : σ) :
    checked s ≠ .error (.crash crash) t := by
  rw [h, sure]
  cases act s with
  | ok a u => exact nofun
  | error fault u => exact nofun

theorem runs_sure (act : EStateM Fault σ α) (s : σ) : Runs (sure act) act s :=
  rfl

/-- Run from `s`, the action ends in this state, whether it fails or not. -/
def ending (act : EStateM Fault σ α) (s : σ) : σ :=
  match act s with
  | .ok _ t | .error _ t => t

/-- The checked action ends in this state, unless it crashes. -/
def endingChecked (checked : Crashing σ α) (s : σ) : Except Crash σ :=
  match checked s with
  | .ok _ t | .error (.fault _) t => .ok t
  | .error (.crash crash) _ => .error crash

theorem Runs.endingChecked_eq (h : Runs checked act s) :
    endingChecked checked s = .ok (ending act s) := by
  rw [endingChecked, ending, h, sure]
  cases act s <;> rfl

theorem ending_of_ensures {post : σ → Prop} (h : Ensures act s (fun _ => post) fun _ => post) :
    post (ending act s) := by
  rw [ending]
  cases hact : act s with
  | ok a t => exact h.of_ok hact
  | error fault t => exact h.of_error hact

/-- What is done next is done in the state that there is then. -/
theorem Runs.bind {checked : Crashing σ β} {act : EStateM Fault σ β} {f : β → Crashing σ α}
    {g : β → EStateM Fault σ α} (hact : Runs checked act s)
    (hf : Ensures act s (fun b t => Runs (f b) (g b) t) fun _ _ => True) :
    Runs (checked >>= f) (act >>= g) s := by
  rw [Runs, sure_bind]
  simp only [Bind.bind, EStateM.bind, Runs] at hact ⊢
  rw [hact, sure]
  cases hrun : act s with
  | ok b t => exact hf.of_ok hrun
  | error fault t => rfl

/-- A plain action may follow. -/
theorem Runs.bind_sure {checked : Crashing σ β} {act : EStateM Fault σ β}
    (hact : Runs checked act s) (f : β → EStateM Fault σ α) :
    Runs (checked >>= fun b => sure (f b)) (act >>= f) s :=
  hact.bind ((ensures_result act s).mono (fun _ _ _ => rfl) fun _ _ _ => trivial)

/-- Something is computed that may fail. -/
theorem runs_look {result : Except Fault β} {f : β → Crashing σ α} {g : β → EStateM Fault σ α}
    (hf : ∀ b, result = .ok b → Runs (f b) (g b) s) :
    Runs (look result >>= f) (ofExcept result >>= g) s := by
  cases result with
  | ok b => exact hf b rfl
  | error fault => rfl

/-- Only the checked action computes it, and has a result. -/
theorem runs_look_left {result : Except Fault β} {b : β} {f : β → Crashing σ α}
    (hresult : result = .ok b) (h : Runs (f b) act s) : Runs (look result >>= f) act s := by
  subst hresult
  exact h

/-- What is taken for granted holds. -/
theorem runs_grant {result : Except Crash β} {b : β} {f : β → Crashing σ α}
    (hresult : result = .ok b) (h : Runs (f b) act s) :
    Runs (grant result >>= f) act s := by
  subst hresult
  exact h

/-- Both actions look at the state. -/
theorem runs_get {f : σ → Crashing σ α} {g : σ → EStateM Fault σ α} (h : Runs (f s) (g s) s) :
    Runs (get >>= f) (get >>= g) s :=
  h

/-- Only the checked action looks at the state. -/
theorem runs_get_left {f : σ → Crashing σ α} (h : Runs (f s) act s) : Runs (get >>= f) act s :=
  h

/-- Only the plain action looks at the state. -/
theorem runs_get_right {g : σ → EStateM Fault σ α} (h : Runs checked (g s) s) :
    Runs checked (get >>= g) s :=
  h

end Runs

/-! ### Invariants -/

/-- From whatever state of the invariant it is run, the checked action does what the plain one does.
It ends in a state of the invariant, and `post` holds of its result. -/
structure Secure (inv : σ → Prop) (checked : Crashing σ α) (act : EStateM Fault σ α)
    (post : α → Prop) : Prop where
  /-- It does what the plain one does. -/
  runs : ∀ s, inv s → Runs checked act s
  /-- The invariant is kept up. -/
  upholds : Upholds inv act post

section Secure

variable {inv : σ → Prop} {post : α → Prop} {mid : β → Prop}

/-- What is done next is done in a state of the invariant. -/
theorem Secure.runs_bind {s : σ} {checked : Crashing σ β} {act : EStateM Fault σ β}
    {f : β → Crashing σ α} {g : β → EStateM Fault σ α} (hact : Secure inv checked act mid)
    (hs : inv s) (hf : ∀ b t, inv t → mid b → Runs (f b) (g b) t) :
    Runs (checked >>= f) (act >>= g) s :=
  (hact.runs s hs).bind
    ((hact.upholds s hs).mono (fun b t h => hf b t h.1 h.2) fun _ _ _ => trivial)

/-- Wherever the action ends, the invariant holds. -/
theorem Secure.ending {s : σ} {checked : Crashing σ α} {act : EStateM Fault σ α}
    (hact : Secure inv checked act post) (hs : inv s) : inv (ending act s) :=
  ending_of_ensures ((hact.upholds s hs).mono (fun _ _ => And.left) fun _ _ => id)

theorem secure_sure {act : EStateM Fault σ α} (hact : Upholds inv act post) :
    Secure inv (sure act) act post where
  runs s _ := runs_sure act s
  upholds := hact

theorem secure_pure {a : α} (ha : post a) : Secure inv (pure a) (pure a) post :=
  secure_sure (upholds_pure ha)

theorem secure_fail (fault : Fault) : Secure inv (fail fault) (throw fault) post :=
  secure_sure (upholds_throw fault)

/-- Nothing is done after a fault. -/
theorem secure_fail_bind (fault : Fault) (f : β → Crashing σ α) (g : β → EStateM Fault σ α) :
    Secure inv (fail fault >>= f) (throw fault >>= g) post where
  runs _ _ := rfl
  upholds := upholds_throw_bind fault g

theorem Secure.mono {checked : Crashing σ α} {act : EStateM Fault σ α} {post' : α → Prop}
    (h : Secure inv checked act post) (hpost : ∀ a, post a → post' a) :
    Secure inv checked act post' where
  runs := h.runs
  upholds := h.upholds.mono hpost

theorem Secure.bind {checked : Crashing σ β} {act : EStateM Fault σ β} {f : β → Crashing σ α}
    {g : β → EStateM Fault σ α} (hact : Secure inv checked act mid)
    (hf : ∀ b, mid b → Secure inv (f b) (g b) post) :
    Secure inv (checked >>= f) (act >>= g) post where
  runs _ hs := hact.runs_bind hs fun b t ht hb => (hf b hb).runs t ht
  upholds := hact.upholds.bind fun b hb => (hf b hb).upholds

theorem Secure.map {checked : Crashing σ β} {act : EStateM Fault σ β} {f : β → α}
    (hact : Secure inv checked act mid) (hf : ∀ b, mid b → post (f b)) :
    Secure inv (f <$> checked) (f <$> act) post := by
  rw [← bind_pure_comp, ← bind_pure_comp]
  exact hact.bind fun b hb => secure_pure (hf b hb)

theorem Secure.discard {checked : Crashing σ β} {act : EStateM Fault σ β}
    (hact : Secure inv checked act mid) :
    Secure inv (discard checked) (discard act) fun _ => True :=
  hact.map fun _ _ => trivial

/-- What is done next with the state that is looked at may rely on the invariant. -/
theorem secure_get_bind {f : σ → Crashing σ α} {g : σ → EStateM Fault σ α}
    (hf : ∀ s, inv s → Secure inv (f s) (g s) post) :
    Secure inv (get >>= f) (get >>= g) post where
  runs s hs := runs_get ((hf s hs).runs s hs)
  upholds := upholds_get_bind fun s hs => (hf s hs).upholds

/-- Something is computed that may fail. -/
theorem secure_look {result : Except Fault β} {f : β → Crashing σ α} {g : β → EStateM Fault σ α}
    (hf : ∀ b, result = .ok b → Secure inv (f b) (g b) post) :
    Secure inv (look result >>= f) (ofExcept result >>= g) post := by
  cases result with
  | ok b => exact hf b rfl
  | error fault => exact secure_fail_bind fault f g

theorem secure_ofExcept {result : Except Fault α} (hpost : ∀ a, result = .ok a → post a) :
    Secure inv (look result) (ofExcept result) post := by
  rw [← sure_ofExcept]
  exact secure_sure (upholds_ofExcept hpost)

/-- What is taken for granted holds. -/
theorem secure_grant {result : Except Crash β} {b : β} {f : β → Crashing σ α}
    {act : EStateM Fault σ α} (hresult : result = .ok b) (h : Secure inv (f b) act post) :
    Secure inv (grant result >>= f) act post := by
  subst hresult
  exact h

theorem secure_modify {f : σ → σ} (hf : ∀ s, inv s → inv (f s)) :
    Secure inv (modify f) (modify f) fun _ => True :=
  secure_sure (upholds_modify hf)

theorem secure_forM {f : β → Crashing σ PUnit} {g : β → EStateM Fault σ PUnit} {bs : List β}
    (hf : ∀ b ∈ bs, Secure inv (f b) (g b) fun _ => True) :
    Secure inv (bs.forM f) (bs.forM g) fun _ => True := by
  induction bs with
  | nil => exact secure_pure trivial
  | cons b bs ih =>
    exact (hf b List.mem_cons_self).bind fun _ _ =>
      ih fun b hb => hf b (List.mem_cons_of_mem _ hb)

theorem secure_mapM {f : β → Crashing σ α} {g : β → EStateM Fault σ α} {bs : List β}
    (hf : ∀ b, Secure inv (f b) (g b) fun _ => True) :
    Secure inv (bs.mapM f) (bs.mapM g) fun _ => True := by
  induction bs with
  | nil => exact secure_pure trivial
  | cons b bs ih =>
    rw [List.mapM_cons, List.mapM_cons]
    exact (hf b).bind fun _ _ => ih.bind fun _ _ => secure_pure trivial

end Secure

/-! ### Single states of an invariant -/

/-- Run from `s`, the checked action does what the plain one does. It ends in a state of the
invariant, and `post` holds of its result. -/
structure SecureAt (inv : σ → Prop) (checked : Crashing σ α) (act : EStateM Fault σ α)
    (post : α → Prop) (s : σ) : Prop where
  /-- It does what the plain one does. -/
  runs : Runs checked act s
  /-- It ends in a state of the invariant. -/
  ensures : Ensures act s (fun a t => inv t ∧ post a) fun _ => inv

section SecureAt

variable {inv inv' : σ → Prop} {post : α → Prop} {mid : β → Prop} {s : σ}

theorem secure_of_secureAt {checked : Crashing σ α} {act : EStateM Fault σ α}
    (h : ∀ s, inv s → SecureAt inv checked act post s) : Secure inv checked act post where
  runs s hs := (h s hs).runs
  upholds s hs := (h s hs).ensures

theorem Secure.secureAt {checked : Crashing σ α} {act : EStateM Fault σ α}
    (h : Secure inv checked act post) (hs : inv s) : SecureAt inv checked act post s where
  runs := h.runs s hs
  ensures := h.upholds s hs

/-- What is known of the state may be more than has to be kept up. -/
theorem SecureAt.weaken {checked : Crashing σ α} {act : EStateM Fault σ α}
    (h : SecureAt inv' checked act post s) (hinv : ∀ t, inv' t → inv t) :
    SecureAt inv checked act post s where
  runs := h.runs
  ensures := h.ensures.mono (fun _ t ht => ⟨hinv t ht.1, ht.2⟩) fun _ => hinv

/-- As long as the stronger invariant lasts, what is done next may rely on it. -/
theorem Secure.secureAt_bind {checked : Crashing σ β} {act : EStateM Fault σ β}
    {f : β → Crashing σ α} {g : β → EStateM Fault σ α} (hact : Secure inv' checked act mid)
    (hs : inv' s) (hinv : ∀ t, inv' t → inv t)
    (hf : ∀ b t, inv' t → mid b → SecureAt inv (f b) (g b) post t) :
    SecureAt inv (checked >>= f) (act >>= g) post s where
  runs := hact.runs_bind hs fun b t ht hb => (hf b t ht hb).runs
  ensures := by
    rw [ensures_bind]
    exact (hact.upholds s hs).mono (fun b t ht => (hf b t ht.1 ht.2).ensures)
      fun _ t ht => hinv t ht

/-- It matters only what the actions do in this state. -/
theorem SecureAt.congr {checked checked' : Crashing σ α} {act act' : EStateM Fault σ α}
    (h : SecureAt inv checked act post s) (hchecked : checked' s = checked s)
    (hact : act' s = act s) : SecureAt inv checked' act' post s where
  runs := by
    rw [Runs, sure, hchecked, hact]
    exact h.runs
  ensures := by
    rw [Ensures, hact]
    exact h.ensures

theorem secureAt_get_bind {f : σ → Crashing σ α} {g : σ → EStateM Fault σ α}
    (h : SecureAt inv (f s) (g s) post s) : SecureAt inv (get >>= f) (get >>= g) post s :=
  h.congr rfl rfl

/-- Something is computed that may fail. -/
theorem secureAt_look {result : Except Fault β} {f : β → Crashing σ α}
    {g : β → EStateM Fault σ α} (hs : inv s)
    (hf : ∀ b, result = .ok b → SecureAt inv (f b) (g b) post s) :
    SecureAt inv (look result >>= f) (ofExcept result >>= g) post s := by
  cases result with
  | ok b => exact hf b rfl
  | error fault => exact (secure_fail_bind fault f g).secureAt hs

/-- What is taken for granted holds. -/
theorem secureAt_grant {result : Except Crash β} {b : β} {f : β → Crashing σ α}
    {act : EStateM Fault σ α} (hresult : result = .ok b) (h : SecureAt inv (f b) act post s) :
    SecureAt inv (grant result >>= f) act post s := by
  subst hresult
  exact h

end SecureAt

end ActorMachine
