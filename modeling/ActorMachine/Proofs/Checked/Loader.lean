import ActorMachine.Proofs.Checked.Builtin
import ActorMachine.Proofs.Loader.Linking
import ActorMachine.Machine.Step

/-!
# How built-in functions are registered

The machine hands a native the arguments that the caller has given, once their number is the one
that it was registered with. So a function can take for granted only what its registration says.

* `Loader.Fitting`: every native is registered with the arguments that it takes for granted.
* `presumed_le_of_nativeFor`: then it gets them from whatever call.
* `fitting_foldl`: a loader stays fitting as long as the libraries that it registers are.
-/

namespace ActorMachine

open Machine (nativeFor)

/-- Number of arguments that a native takes for granted. A protected call looks for its own. -/
def NativeBody.presumed : NativeBody → Nat
  | function builtin => builtin.presumed
  | protectedCall => 0

/-- Registered with this number of arguments, or with any number, a native gets those that it takes
for granted. -/
def NativeBody.Suits (body : NativeBody) (arity : Option Nat) : Prop :=
  body.presumed ≤ arity.getD 0
deriving Decidable

/-- Its entries register natives with the arguments that they take for granted. -/
def Library.Fitting (library : Library) : Prop :=
  ∀ entry ∈ library.entries, ∀ name arity, readEntry entry.1 = .ok (name, arity) →
    entry.2.Suits arity

namespace Loader

variable {l : Loader}

/-- Every native is registered with the arguments that it takes for granted. -/
def Fitting (l : Loader) : Prop :=
  ∀ native ∈ l.natives, native.body.Suits native.arity
deriving Decidable

theorem presumed_le_of_nativeFor {id : NativeId} {nargs : Nat} {body : NativeBody}
    (hl : l.Fitting) (h : nativeFor l id nargs = .ok body) : body.presumed ≤ nargs := by
  rw [nativeFor] at h
  cases hnative : l.native? id with
  | none => rw [hnative] at h; cases h
  | some native =>
    have hsuits := hl native (Array.mem_of_getElem? hnative)
    rw [NativeBody.Suits] at hsuits
    rw [hnative] at h
    -- With any number of arguments it takes none for granted, and otherwise no more than it asks
    -- for.
    cases harity : native.arity with
    | none =>
      simp only [harity] at h hsuits
      obtain rfl := Except.ok.inj h
      exact hsuits.trans (Nat.zero_le nargs)
    | some arity =>
      simp only [harity] at h hsuits
      split at h
      next => cases h
      next heq =>
        obtain rfl := Except.ok.inj h
        exact hsuits.trans (Nat.le_of_eq (not_not.1 heq))

theorem fitting_standard : standard.Fitting := by
  decide +kernel

theorem fitting_addLibrary (hl : l.Fitting) {library : Library} (hlibrary : library.Fitting) :
    Ensures (addLibrary library) l (fun _ => Fitting) fun _ => Fitting := by
  rw [addLibrary, ensures_bind, ensures_get]
  split
  next => exact hl
  next =>
    rw [ensures_bind]
    refine (ensures_mapM_of_forall (fun entry hentry l hl => ?_) hl).mono (fun table l' hl' => ?_)
      fun _ _ h => h
    · show Ensures (ofExcept (Library.readEntry entry.1) >>= fun _ => modifyGet _) _ _ _
      rw [ensures_bind, ensures_ofExcept]
      refine ⟨fun read hread native hnative => ?_, fun _ _ => hl⟩
      rcases Array.mem_push.1 hnative with hnative | rfl
      · exact hl native hnative
      · exact hlibrary entry hentry _ _ hread
    · exact hl'

theorem natives_foldl_promote (acc : LinkReport × Loader) (chunks : List Chunk) :
    (chunks.foldl promote acc).2.natives = acc.2.natives := by
  induction chunks generalizing acc with
  | nil => rfl
  | cons chunk chunks ih =>
    rw [List.foldl_cons, ih, promote_eq]

/-- Only libraries register natives, and this one registers them with what they take for granted. -/
def Operation.Fitting : Operation → Prop
  | addLibrary library => library.Fitting
  | _ => True

theorem Fitting.after (hl : l.Fitting) {op : Operation} (hop : op.Fitting) :
    (op.after l).Fitting := by
  refine Operation.after_of_ensures ?_
  cases op with
  | addLibrary library => exact fitting_addLibrary hl hop
  | addChunk module =>
    rw [Operation.run, ensures_discard, addChunk]
    split
    next => exact hl
    next => exact hl
  | link =>
    rw [Operation.run, ensures_discard, link, ensures_bind, ensures_get]
    split
    next => exact hl
    next =>
      rw [ensures_modifyGet]
      intro native hnative
      rw [natives_foldl_promote] at hnative
      exact hl native hnative
  | collectGarbage outside => exact hl

/-- Modules may come and go, and libraries may be added. -/
theorem fitting_foldl (hl : l.Fitting) {ops : List Operation} (hops : ∀ op ∈ ops, op.Fitting) :
    (ops.foldl (fun l op => op.after l) l).Fitting := by
  induction ops generalizing l with
  | nil => exact hl
  | cons op ops ih =>
    obtain ⟨hop, hops⟩ := List.forall_mem_cons.1 hops
    exact ih (hl.after hop) hops

end Loader

end ActorMachine
