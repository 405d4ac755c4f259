import ActorMachine.Actor.Basic

/-!
# What an action ensures

`Ensures act s ok fail` says of an action run from the state `s` that `ok` holds of its result
and the state it leaves, or, where it fails, `fail` of its fault and the state it leaves. One
rule for each way of building an action brings such a statement about a program down to
statements about its parts; each operation then needs a statement of its own only once.

`Upholds inv act post` says that an action keeps up an invariant from wherever it is run.
-/

namespace ActorMachine

variable {σ α β : Type}

/-- What is computed from a result is there if both are. -/
theorem except_bind_eq_ok_iff {ε : Type} {result : Except ε α} {f : α → Except ε β} {b : β} :
    (result >>= f) = .ok b ↔ ∃ a, result = .ok a ∧ f a = .ok b := by
  cases result with
  | error fault => exact ⟨nofun, fun ⟨_, hresult, _⟩ => nomatch hresult⟩
  | ok a => exact ⟨fun hf => ⟨a, rfl, hf⟩, fun ⟨_, hresult, hf⟩ => Except.ok.inj hresult ▸ hf⟩

/-- The state is answered and stays. -/
theorem estateM_get {ε : Type} (s : σ) : (EStateM.get : EStateM ε σ σ) s = .ok s s := rfl

/-- Run from `s`, the action ends as `ok` says or fails as `fail` says. -/
def Ensures (act : EStateM Fault σ α) (s : σ) (ok : α → σ → Prop)
    (fail : Fault → σ → Prop) : Prop :=
  match act s with
  | .ok a t => ok a t
  | .error fault t => fail fault t

section Rules

variable {s : σ} {ok : α → σ → Prop} {fail : Fault → σ → Prop}

/-- What an action ensures may be weakened. -/
theorem Ensures.mono {act : EStateM Fault σ α} {ok' : α → σ → Prop} {fail' : Fault → σ → Prop}
    (h : Ensures act s ok fail) (hok : ∀ a t, ok a t → ok' a t)
    (hfail : ∀ fault t, fail fault t → fail' fault t) : Ensures act s ok' fail' := by
  unfold Ensures at h ⊢
  cases hact : act s with
  | ok a t => exact hok a t (by simpa [hact] using h)
  | error fault t => exact hfail fault t (by simpa [hact] using h)

/-- Two things that an action ensures hold together. -/
theorem Ensures.and {act : EStateM Fault σ α} {ok' : α → σ → Prop} {fail' : Fault → σ → Prop}
    (h : Ensures act s ok fail) (h' : Ensures act s ok' fail') :
    Ensures act s (fun a t => ok a t ∧ ok' a t) (fun fault t => fail fault t ∧ fail' fault t) := by
  unfold Ensures at h h' ⊢
  cases hact : act s with
  | ok a t => exact ⟨by simpa [hact] using h, by simpa [hact] using h'⟩
  | error fault t => exact ⟨by simpa [hact] using h, by simpa [hact] using h'⟩

/-- What an action ensures holds of the result it has. -/
theorem Ensures.of_ok {act : EStateM Fault σ α} {a : α} {t : σ} (h : Ensures act s ok fail)
    (hact : act s = .ok a t) : ok a t := by
  simpa [Ensures, hact] using h

/-- What an action ensures holds of the fault it ends in. -/
theorem Ensures.of_error {act : EStateM Fault σ α} {fault : Fault} {t : σ}
    (h : Ensures act s ok fail) (hact : act s = .error fault t) : fail fault t := by
  simpa [Ensures, hact] using h

/-- An action whose faults are excluded has a result. -/
theorem Ensures.exists_ok {act : EStateM Fault σ α} (h : Ensures act s ok fun _ _ => False) :
    ∃ a t, act s = .ok a t ∧ ok a t := by
  unfold Ensures at h
  cases hact : act s with
  | ok a t => exact ⟨a, t, rfl, by simpa [hact] using h⟩
  | error fault t => simp [hact] at h

/-- What an action ensures can be told apart by what it comes to. -/
theorem ensures_result (act : EStateM Fault σ α) (s : σ) :
    Ensures act s (fun a t => act s = .ok a t) (fun fault t => act s = .error fault t) := by
  unfold Ensures
  cases act s <;> rfl

@[simp]
theorem ensures_pure (a : α) : Ensures (pure a) s ok fail ↔ ok a s := Iff.rfl

@[simp]
theorem ensures_bind (act : EStateM Fault σ β) (f : β → EStateM Fault σ α) :
    Ensures (act >>= f) s ok fail ↔
      Ensures act s (fun b t => Ensures (f b) t ok fail) fail := by
  simp only [Ensures, bind, EStateM.bind]
  cases act s <;> rfl

@[simp]
theorem ensures_map (f : β → α) (act : EStateM Fault σ β) :
    Ensures (f <$> act) s ok fail ↔ Ensures act s (fun b t => ok (f b) t) fail := by
  simp only [Ensures, Functor.map, EStateM.map]
  cases act s <;> rfl

@[simp]
theorem ensures_get {ok : σ → σ → Prop} : Ensures get s ok fail ↔ ok s s := Iff.rfl

@[simp]
theorem ensures_modify {ok : PUnit → σ → Prop} (f : σ → σ) :
    Ensures (modify f) s ok fail ↔ ok ⟨⟩ (f s) := Iff.rfl

@[simp]
theorem ensures_modifyGet (f : σ → α × σ) :
    Ensures (modifyGet f) s ok fail ↔ ok (f s).1 (f s).2 := Iff.rfl

@[simp]
theorem ensures_throw (fault : Fault) : Ensures (throw fault) s ok fail ↔ fail fault s := Iff.rfl

@[simp]
theorem ensures_ofExcept (result : Except Fault α) :
    Ensures (ofExcept result) s ok fail ↔
      (∀ a, result = .ok a → ok a s) ∧ ∀ fault, result = .error fault → fail fault s := by
  cases result <;> simp [Ensures, ofExcept] <;> rfl

@[simp]
theorem ensures_discard {ok : PUnit → σ → Prop} (act : EStateM Fault σ β) :
    Ensures (discard act) s ok fail ↔ Ensures act s (fun _ t => ok ⟨⟩ t) fail := by
  simp only [Ensures, discard, Functor.discard, Functor.mapConst, Function.comp,
    EStateM.map]
  cases act s <;> rfl

/-- What each of some actions keeps up, all of them keep up one after the other. -/
theorem ensures_mapM_of_forall {inv : σ → Prop} {f : β → EStateM Fault σ α} {bs : List β}
    (hf : ∀ b ∈ bs, ∀ s, inv s → Ensures (f b) s (fun _ => inv) fun _ => inv) (hs : inv s) :
    Ensures (bs.mapM f) s (fun _ => inv) fun _ => inv := by
  induction bs generalizing s with
  | nil => exact hs
  | cons b bs ih =>
    obtain ⟨hb, hbs⟩ := List.forall_mem_cons.1 hf
    rw [List.mapM_cons, ensures_bind]
    refine (hb s hs).mono (fun a t ht => ?_) fun _ _ h => h
    rw [ensures_bind]
    exact (ih hbs ht).mono (fun _ _ h => h) fun _ _ h => h

end Rules

/-! ### Invariants -/

section Upholds

variable {inv : σ → Prop} {post : α → Prop} {mid : β → Prop}

/-- From whatever state of the invariant the action is run, it ends in one of the invariant, and
`post` holds of its result. -/
def Upholds (inv : σ → Prop) (act : EStateM Fault σ α) (post : α → Prop) : Prop :=
  ∀ s, inv s → Ensures act s (fun a t => inv t ∧ post a) fun _ t => inv t

theorem upholds_pure {a : α} (ha : post a) : Upholds inv (pure a) post :=
  fun _ hs => ⟨hs, ha⟩

theorem upholds_throw (fault : Fault) : Upholds inv (throw fault) post :=
  fun _ hs => hs

/-- Nothing is done after a fault. -/
theorem upholds_throw_bind (fault : Fault) (f : β → EStateM Fault σ α) :
    Upholds inv (throw fault >>= f) post :=
  fun _ hs => hs

theorem Upholds.mono {act : EStateM Fault σ α} {post' : α → Prop} (hact : Upholds inv act post)
    (hpost : ∀ a, post a → post' a) : Upholds inv act post' :=
  fun s hs => (hact s hs).mono (fun _ _ h => ⟨h.1, hpost _ h.2⟩) fun _ _ h => h

theorem Upholds.bind {act : EStateM Fault σ β} {f : β → EStateM Fault σ α}
    (hact : Upholds inv act mid) (hf : ∀ b, mid b → Upholds inv (f b) post) :
    Upholds inv (act >>= f) post := by
  intro s hs
  rw [ensures_bind]
  exact (hact s hs).mono (fun b t h => hf b h.2 t h.1) fun _ _ h => h

theorem Upholds.map {act : EStateM Fault σ β} {f : β → α} (hact : Upholds inv act mid)
    (hf : ∀ b, mid b → post (f b)) : Upholds inv (f <$> act) post := by
  rw [← bind_pure_comp]
  exact hact.bind fun b hb => upholds_pure (hf b hb)

theorem Upholds.discard {act : EStateM Fault σ β} (hact : Upholds inv act mid) :
    Upholds inv (discard act) fun _ => True := by
  intro s hs
  rw [ensures_discard]
  exact (hact s hs).mono (fun _ _ h => ⟨h.1, trivial⟩) fun _ _ h => h

/-- What is done next with the state that is looked at may rely on the invariant. -/
theorem upholds_get_bind {f : σ → EStateM Fault σ α} (hf : ∀ s, inv s → Upholds inv (f s) post) :
    Upholds inv (get >>= f) post :=
  fun s hs => hf s hs s hs

/-- Something is computed that may fail. -/
theorem upholds_look {result : Except Fault β} {f : β → EStateM Fault σ α}
    (hf : ∀ b, result = .ok b → Upholds inv (f b) post) :
    Upholds inv (ofExcept result >>= f) post := by
  intro s hs
  rw [ensures_bind, ensures_ofExcept]
  exact ⟨fun b hb => hf b hb s hs, fun _ _ => hs⟩

theorem upholds_ofExcept {result : Except Fault α} (hpost : ∀ a, result = .ok a → post a) :
    Upholds inv (ofExcept result) post := by
  intro s hs
  rw [ensures_ofExcept]
  exact ⟨fun a ha => ⟨hs, hpost a ha⟩, fun _ _ => hs⟩

theorem upholds_modify {f : σ → σ} (hf : ∀ s, inv s → inv (f s)) :
    Upholds inv (modify f) fun _ => True :=
  fun s hs => ⟨hf s hs, trivial⟩

theorem upholds_modifyGet {f : σ → α × σ} (hf : ∀ s, inv s → inv (f s).2 ∧ post (f s).1) :
    Upholds inv (modifyGet f) post :=
  hf

theorem upholds_forM {f : β → EStateM Fault σ PUnit} {bs : List β}
    (hf : ∀ b ∈ bs, Upholds inv (f b) fun _ => True) :
    Upholds inv (bs.forM f) fun _ => True := by
  induction bs with
  | nil => exact upholds_pure trivial
  | cons b bs ih =>
    exact (hf b List.mem_cons_self).bind fun _ _ =>
      ih fun b hb => hf b (List.mem_cons_of_mem _ hb)

/-- The state after an action is one of the invariant, whether the action fails or not. -/
theorem Upholds.of_ok {act : EStateM Fault σ α} {s t : σ} {a : α} (hact : Upholds inv act post)
    (hs : inv s) (hrun : act s = .ok a t) : inv t ∧ post a :=
  (hact s hs).of_ok hrun

theorem Upholds.of_error {act : EStateM Fault σ α} {s t : σ} {fault : Fault}
    (hact : Upholds inv act post) (hs : inv s) (hrun : act s = .error fault t) : inv t :=
  (hact s hs).of_error hrun

end Upholds

namespace Actor

variable {p : Actor} {ok : α → Actor → Prop} {fail : Fault → Actor → Prop}

@[simp]
theorem ensures_onStack (act : Stack.Action α) :
    Ensures (onStack act) p ok fail ↔
      Ensures act p.stack (fun a stack => ok a { p with stack })
        (fun fault stack => fail fault { p with stack }) := by
  unfold Ensures onStack
  cases hact : act p.stack <;> simp [hact]

@[simp]
theorem ensures_onHeap (act : Heap.Action α) :
    Ensures (onHeap act) p ok fail ↔
      Ensures act p.heap (fun a heap => ok a { p with heap })
        (fun fault heap => fail fault { p with heap }) := by
  unfold Ensures onHeap
  cases hact : act p.heap <;> simp [hact]

@[simp]
theorem ensures_onMailbox (act : EStateM Fault Mailbox α) :
    Ensures (onMailbox act) p ok fail ↔
      Ensures act p.mailbox (fun a mailbox => ok a { p with mailbox })
        (fun fault mailbox => fail fault { p with mailbox }) := by
  unfold Ensures onMailbox
  cases hact : act p.mailbox <;> simp [hact]

/-- An attempt does not fail: its fault is a result. -/
@[simp]
theorem ensures_attempt {ok : Except Fault α → Actor → Prop} (act : Action α) :
    Ensures (attempt act) p ok fail ↔
      Ensures act p (fun a q => ok (.ok a) q) (fun fault q => ok (.error fault) q) := by
  unfold Ensures attempt
  cases act p <;> simp

/-- What an action keeps up, an attempt to do it keeps up as well. -/
theorem upholds_attempt {inv : Actor → Prop} {post : α → Prop} {act : Action α}
    (hact : Upholds inv act post) :
    Upholds inv (attempt act) fun result => ∀ a, result = .ok a → post a := by
  intro p hp
  rw [ensures_attempt]
  refine (hact p hp).mono ?_ fun _ _ h => ⟨h, by simp⟩
  rintro a q ⟨hq, ha⟩
  refine ⟨hq, ?_⟩
  rintro _ ⟨⟩
  exact ha

@[simp]
theorem ensures_collectGarbage {ok : Nat → Actor → Prop} :
    Ensures collectGarbage p ok fail ↔
      ok (p.heap.collect p.roots).1 { p with heap := (p.heap.collect p.roots).2 } := Iff.rfl

end Actor

end ActorMachine
