import ActorMachine.Proofs.Ensures
import Mathlib.Data.List.Forall2

/-!
# Actions that agree

Two actions are run, each from a state of its own. `Agrees S R act act'` says that from states that
are related by `S` both come to the same: to results that are related by `R`, or to the same fault,
and in either case to states that are related again. One rule for each way of building an action
brings such a statement down to statements about the parts of both actions. `Respects S R act` says
so of an action that is run in both.
-/

namespace ActorMachine

variable {σ α α' β β' : Type}

/-! ### Options and lists -/

section Options

variable {R : α → α' → Prop} {Q : β → β' → Prop}

/-- Either neither of two is there, or both are. -/
theorem eq_of_rel {o : Option α} {o' : Option α'} (h : Option.Rel R o o') :
    (o = none ∧ o' = none) ∨ ∃ a a', o = some a ∧ o' = some a' ∧ R a a' := by
  cases h with
  | none => exact .inl ⟨rfl, rfl⟩
  | some hrelated => exact .inr ⟨_, _, rfl, rfl, hrelated⟩

/-- If one of two is not there, the other one is not either. -/
theorem eq_none_of_rel {o : Option α} {o' : Option α'} (h : Option.Rel R o o') (ho : o = none) :
    o' = none := by
  subst ho
  cases h
  rfl

/-- If one of two is there, so is the other one. -/
theorem exists_of_rel {o : Option α} {o' : Option α'} {a : α} (h : Option.Rel R o o')
    (ho : o = some a) : ∃ a', o' = some a' ∧ R a a' := by
  subst ho
  cases h with
  | some hrelated => exact ⟨_, rfl, hrelated⟩

theorem rel_map {o : Option α} {o' : Option α'} {f : α → β} {f' : α' → β'} (h : Option.Rel R o o')
    (hf : ∀ a a', R a a' → Q (f a) (f' a')) : Option.Rel Q (o.map f) (o'.map f') := by
  cases h with
  | none => exact .none
  | some hrelated => exact .some (hf _ _ hrelated)

theorem rel_bind {o : Option α} {o' : Option α'} {f : α → Option β} {f' : α' → Option β'}
    (h : Option.Rel R o o') (hf : ∀ a a', R a a' → Option.Rel Q (f a) (f' a')) :
    Option.Rel Q (o.bind f) (o'.bind f') := by
  cases h with
  | none => exact .none
  | some hrelated => exact hf _ _ hrelated

theorem rel_or {o o₁ : Option α} {o' o₁' : Option α'} (h : Option.Rel R o o')
    (h₁ : Option.Rel R o₁ o₁') : Option.Rel R (o.or o₁) (o'.or o₁') := by
  cases h with
  | none => exact h₁
  | some hrelated => exact .some hrelated

end Options

section Lists

variable {R : α → α' → Prop} {as : List α} {as' : List α'}

/-- What stands at the same position is related. -/
theorem rel_getElem? (h : List.Forall₂ R as as') (i : Nat) : Option.Rel R as[i]? as'[i]? := by
  induction h generalizing i with
  | nil => exact .none
  | cons hfirst _ ih =>
    cases i with
    | zero => exact .some hfirst
    | succ i => exact ih i

theorem rel_find? {P : α → Bool} {P' : α' → Bool} (h : List.Forall₂ R as as')
    (hP : ∀ a a', R a a' → P' a' = P a) : Option.Rel R (as.find? P) (as'.find? P') := by
  induction h with
  | nil => exact .none
  | @cons a a' _ _ hfirst _ ih =>
    rw [List.find?_cons, List.find?_cons, hP a a' hfirst]
    cases P a with
    | true => exact .some hfirst
    | false => exact ih

theorem any_eq_of_forall₂ {P : α → Bool} {P' : α' → Bool} (h : List.Forall₂ R as as')
    (hP : ∀ a a', R a a' → P' a' = P a) : as'.any P' = as.any P := by
  induction h with
  | nil => rfl
  | cons hfirst _ ih => rw [List.any_cons, List.any_cons, hP _ _ hfirst, ih]

theorem isEmpty_eq_of_forall₂ (h : List.Forall₂ R as as') : as'.isEmpty = as.isEmpty := by
  cases h <;> rfl

theorem map_eq_of_forall₂ {f : α → β} {f' : α' → β} (h : List.Forall₂ R as as')
    (hf : ∀ a a', R a a' → f' a' = f a) : as'.map f' = as.map f := by
  induction h with
  | nil => rfl
  | cons hfirst _ ih => rw [List.map_cons, List.map_cons, hf _ _ hfirst, ih]

/-- What is put at the same position is related to what is put there. -/
theorem forall₂_set {a : α} {a' : α'} (h : List.Forall₂ R as as') (ha : R a a') (i : Nat) :
    List.Forall₂ R (as.set i a) (as'.set i a') := by
  induction h generalizing i with
  | nil => exact .nil
  | cons hfirst hrest ih =>
    cases i with
    | zero => exact .cons ha hrest
    | succ i => exact .cons hfirst (ih i)

theorem forall₂_modify {f : α → α} {f' : α' → α'} (h : List.Forall₂ R as as')
    (hf : ∀ a a', R a a' → R (f a) (f' a')) (i : Nat) :
    List.Forall₂ R (as.modify i f) (as'.modify i f') := by
  induction h generalizing i with
  | nil => cases i <;> exact .nil
  | cons hfirst hrest ih =>
    cases i with
    | zero => exact .cons (hf _ _ hfirst) hrest
    | succ i => exact .cons hfirst (ih i)

end Lists

/-! ### Computations -/

/-- Two computations come to the same: to results that are related, or to the same fault. -/
inductive Alike (R : α → α' → Prop) : Except Fault α → Except Fault α' → Prop
  /-- Both have a result. -/
  | ok {a : α} {a' : α'} (related : R a a') : Alike R (.ok a) (.ok a')
  /-- Both have the same fault. -/
  | error (fault : Fault) : Alike R (.error fault) (.error fault)

section Alike

variable {R : α → α' → Prop} {Q : β → β' → Prop}

theorem alike_refl (result : Except Fault α) : Alike Eq result result := by
  cases result with
  | ok a => exact .ok rfl
  | error fault => exact .error fault

theorem Alike.eq {result result' : Except Fault α} (h : Alike Eq result result') :
    result' = result := by
  cases h with
  | ok heq => rw [heq]
  | error => rfl

/-- Either both have results, or both the same fault. -/
theorem Alike.results {result : Except Fault α} {result' : Except Fault α'}
    (h : Alike R result result') : (∃ a a', result = .ok a ∧ result' = .ok a' ∧ R a a') ∨
      ∃ fault, result = .error fault ∧ result' = .error fault := by
  cases h with
  | ok hrelated => exact .inl ⟨_, _, rfl, rfl, hrelated⟩
  | error fault => exact .inr ⟨fault, rfl, rfl⟩

theorem Alike.bind {result : Except Fault β} {result' : Except Fault β'} {f : β → Except Fault α}
    {f' : β' → Except Fault α'} (h : Alike Q result result')
    (hf : ∀ b b', Q b b' → Alike R (f b) (f' b')) : Alike R (result >>= f) (result' >>= f') := by
  cases h with
  | ok hrelated => exact hf _ _ hrelated
  | error fault => exact .error fault

end Alike

/-! ### Actions -/

/-- Two runs come to the same, and to states that are related. -/
inductive Concurs (S : σ → σ → Prop) (R : α → α' → Prop) :
    EStateM.Result Fault σ α → EStateM.Result Fault σ α' → Prop
  /-- Both have a result. -/
  | ok {a : α} {a' : α'} {s t : σ} (related : R a a') (states : S s t) :
      Concurs S R (.ok a s) (.ok a' t)
  /-- Both have the same fault. -/
  | error {s t : σ} (fault : Fault) (states : S s t) : Concurs S R (.error fault s) (.error fault t)

/-- From states that are related two actions come to the same. -/
def Agrees (S : σ → σ → Prop) (R : α → α' → Prop) (act : EStateM Fault σ α)
    (act' : EStateM Fault σ α') : Prop :=
  ∀ s t, S s t → Concurs S R (act s) (act' t)

/-- From states that are related an action comes to the same. -/
abbrev Respects (S : σ → σ → Prop) (R : α → α → Prop) (act : EStateM Fault σ α) : Prop :=
  Agrees S R act act

section Rules

variable {S : σ → σ → Prop} {R : α → α' → Prop} {Q : β → β' → Prop}

/-- Either both have results, or both the same fault. -/
theorem Agrees.runs {act : EStateM Fault σ α} {act' : EStateM Fault σ α'} {s t : σ}
    (h : Agrees S R act act') (hst : S s t) :
    (∃ a a' s' t', act s = .ok a s' ∧ act' t = .ok a' t' ∧ R a a' ∧ S s' t') ∨
      ∃ fault s' t', act s = .error fault s' ∧ act' t = .error fault t' ∧ S s' t' := by
  generalize hact : act s = run
  generalize hact' : act' t = run'
  have hruns := h s t hst
  rw [hact, hact'] at hruns
  cases hruns with
  | ok hrelated hstates => exact .inl ⟨_, _, _, _, rfl, rfl, hrelated, hstates⟩
  | error fault hstates => exact .inr ⟨fault, _, _, rfl, rfl, hstates⟩

theorem agrees_pure {a : α} {a' : α'} (h : R a a') : Agrees S R (pure a) (pure a') :=
  fun _ _ hst => .ok h hst

theorem agrees_throw (fault : Fault) : Agrees S R (throw fault) (throw fault) :=
  fun _ _ hst => .error fault hst

/-- Nothing is done after a fault. -/
theorem agrees_throw_bind (fault : Fault) (f : β → EStateM Fault σ α)
    (f' : β' → EStateM Fault σ α') : Agrees S R (throw fault >>= f) (throw fault >>= f') :=
  fun _ _ hst => .error fault hst

theorem Agrees.bind {act : EStateM Fault σ β} {act' : EStateM Fault σ β'}
    {f : β → EStateM Fault σ α} {f' : β' → EStateM Fault σ α'} (h : Agrees S Q act act')
    (hf : ∀ b b', Q b b' → Agrees S R (f b) (f' b')) : Agrees S R (act >>= f) (act' >>= f') := by
  intro s t hst
  change Concurs S R (EStateM.bind act f s) (EStateM.bind act' f' t)
  rcases h.runs hst with ⟨b, b', s', t', hact, hact', hrelated, hstates⟩ |
    ⟨fault, s', t', hact, hact', hstates⟩
  · simp only [EStateM.bind, hact, hact']
    exact hf b b' hrelated s' t' hstates
  · simp only [EStateM.bind, hact, hact']
    exact .error fault hstates

/-- What comes first has the same result in both. -/
theorem Agrees.andThen {act act' : EStateM Fault σ β} {f : β → EStateM Fault σ α}
    {f' : β → EStateM Fault σ α'} (h : Agrees S Eq act act')
    (hf : ∀ b, Agrees S R (f b) (f' b)) : Agrees S R (act >>= f) (act' >>= f') :=
  h.bind fun b _ heq => heq ▸ hf b

theorem Agrees.map {act : EStateM Fault σ β} {act' : EStateM Fault σ β'} {f : β → α} {f' : β' → α'}
    (h : Agrees S Q act act') (hf : ∀ b b', Q b b' → R (f b) (f' b')) :
    Agrees S R (f <$> act) (f' <$> act') := by
  rw [← bind_pure_comp, ← bind_pure_comp]
  exact h.bind fun b b' hb => agrees_pure (hf b b' hb)

theorem Agrees.discard {act : EStateM Fault σ β} {act' : EStateM Fault σ β'}
    (h : Agrees S Q act act') : Agrees S Eq (discard act) (discard act') :=
  h.map fun _ _ _ => rfl

/-- What is done next may depend on the states, of which it is known that they are related. -/
theorem agrees_get_bind {f : σ → EStateM Fault σ α} {f' : σ → EStateM Fault σ α'}
    (hf : ∀ s t, S s t → Agrees S R (f s) (f' t)) : Agrees S R (get >>= f) (get >>= f') :=
  fun s t hst => hf s t hst s t hst

theorem agrees_ofExcept {result : Except Fault α} {result' : Except Fault α'}
    (h : Alike R result result') : Agrees S R (ofExcept result) (ofExcept result') := by
  cases h with
  | ok hrelated => exact agrees_pure hrelated
  | error fault => exact agrees_throw fault

/-- Something is computed that may fail. -/
theorem agrees_look {result : Except Fault β} {result' : Except Fault β'}
    {f : β → EStateM Fault σ α} {f' : β' → EStateM Fault σ α'} (h : Alike Q result result')
    (hf : ∀ b b', Q b b' → Agrees S R (f b) (f' b')) :
    Agrees S R (ofExcept result >>= f) (ofExcept result' >>= f') :=
  (agrees_ofExcept h).bind hf

/-- The same is computed in both. -/
theorem agrees_look_same {result : Except Fault β} {f : β → EStateM Fault σ α}
    {f' : β → EStateM Fault σ α'} (hf : ∀ b, Agrees S R (f b) (f' b)) :
    Agrees S R (ofExcept result >>= f) (ofExcept result >>= f') :=
  (agrees_ofExcept (alike_refl result)).andThen hf

theorem agrees_modify {f f' : σ → σ} (hf : ∀ s t, S s t → S (f s) (f' t)) :
    Agrees S Eq (modify f) (modify f') :=
  fun s t hst => .ok rfl (hf s t hst)

theorem agrees_modifyGet {f : σ → α × σ} {f' : σ → α' × σ}
    (hf : ∀ s t, S s t → R (f s).1 (f' t).1 ∧ S (f s).2 (f' t).2) :
    Agrees S R (modifyGet f) (modifyGet f') :=
  fun s t hst => .ok (hf s t hst).1 (hf s t hst).2

theorem agrees_forM {f : β → EStateM Fault σ PUnit} {f' : β' → EStateM Fault σ PUnit}
    {bs : List β} {bs' : List β'} (h : List.Forall₂ Q bs bs')
    (hf : ∀ b b', Q b b' → Agrees S Eq (f b) (f' b')) : Agrees S Eq (bs.forM f) (bs'.forM f') := by
  induction h with
  | nil => exact agrees_pure rfl
  | cons hb _ ih => exact (hf _ _ hb).andThen fun _ => ih

theorem agrees_mapM {f : β → EStateM Fault σ α} {f' : β' → EStateM Fault σ α'}
    {bs : List β} {bs' : List β'} (h : List.Forall₂ Q bs bs')
    (hf : ∀ b b', Q b b' → Agrees S R (f b) (f' b')) :
    Agrees S (List.Forall₂ R) (bs.mapM f) (bs'.mapM f') := by
  induction h with
  | nil => exact agrees_pure .nil
  | cons hb _ ih =>
    rw [List.mapM_cons, List.mapM_cons]
    exact (hf _ _ hb).bind fun a a' ha => ih.bind fun as as' has => agrees_pure (.cons ha has)

end Rules

end ActorMachine
