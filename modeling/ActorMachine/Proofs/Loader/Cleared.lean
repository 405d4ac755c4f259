import ActorMachine.Loader.Garbage
import ActorMachine.Loader.Link
import ActorMachine.Proofs.Breakpoints

/-!
# Loaders with cleared breakpoints

A loader reads the names, the imports and the nested prototypes of modules, never their
instructions.

* `Loader.Cleared`: the second loader is the first one with some breakpoints cleared in its modules
  and in what the embedding program holds.
* `Loader.Cleared.resolve`: the same names lead to the same code but for breakpoints.
* `respects_link`, `respects_hold` and so on: what is done to both comes to the same.
-/

namespace ActorMachine

/-- The second symbol is the first one with some breakpoints cleared in its code. -/
inductive Symbol.Cleared : Symbol → Symbol → Prop
  /-- A native has no code. -/
  | native (id : NativeId) : Cleared (.native id) (.native id)
  /-- A function has. -/
  | function {routine routine' : Routine} (code : routine.Cleared routine') :
      Cleared (.function routine) (.function routine')

namespace Loader

/-- The second loader is the first one with some breakpoints cleared in its modules. -/
structure Cleared (l m : Loader) : Prop where
  /-- The natives are the same, -/
  natives : m.natives = l.natives
  /-- and so are the libraries. -/
  libraries : m.libraries = l.libraries
  /-- The modules are the same but for breakpoints: those that are not linked, -/
  pending : List.Forall₂ Chunk.Cleared l.pending m.pending
  /-- those that imports can reach -/
  running : List.Forall₂ Chunk.Cleared l.running m.running
  /-- and those that were replaced. -/
  garbage : List.Forall₂ Chunk.Cleared l.garbage m.garbage
  /-- As many modules were taken in, -/
  nextChunk : m.nextChunk = l.nextChunk
  /-- the same listeners are told of links, -/
  listeners : m.listeners = l.listeners
  /-- and the embedding program holds the same. -/
  holds : List.Forall₂ (Option.Rel Symbol.Cleared) l.holds.toList m.holds.toList

variable {l m : Loader}

/-- A loader without modules has no breakpoints. -/
theorem cleared_of_no_modules (hpending : l.pending = []) (hrunning : l.running = [])
    (hgarbage : l.garbage = []) (hholds : l.holds = #[]) : l.Cleared l := by
  refine ⟨rfl, rfl, ?_, ?_, ?_, rfl, rfl, ?_⟩
  · rw [hpending]; exact .nil
  · rw [hrunning]; exact .nil
  · rw [hgarbage]; exact .nil
  · rw [hholds]; exact .nil

theorem Cleared.native? (h : l.Cleared m) (id : NativeId) : m.native? id = l.native? id := by
  rw [Loader.native?, Loader.native?, h.natives]

/-! ### Names -/

/-- The same name stands for the same symbol. -/
theorem Cleared.resolve? (h : l.Cleared m) (module name : String) :
    Option.Rel Symbol.Cleared (l.resolve? module name) (m.resolve? module name) := by
  rw [Loader.resolve?, Loader.resolve?, h.libraries]
  split
  next table _ =>
    cases table.lookup name with
    | none => exact .none
    | some id => exact .some (.native id)
  next =>
    have hfound : Option.Rel Chunk.Cleared
        (l.running.reverse.find? fun chunk => chunk.name = module)
        (m.running.reverse.find? fun chunk => chunk.name = module) :=
      rel_find? (List.forall₂_reverse_iff.2 h.running) fun chunk chunk' hc => by rw [hc.name]
    rcases eq_of_rel hfound with ⟨hnone, hnone'⟩ | ⟨chunk, chunk', hsome, hsome', hc⟩
    · rw [hnone, hnone']
      exact .none
    · rw [hsome, hsome']
      exact rel_map (hc.root.find? name) fun _ _ => .function

theorem Cleared.resolve (h : l.Cleared m) (module name : String) :
    Alike Symbol.Cleared (l.resolve module name) (m.resolve module name) := by
  rw [Loader.resolve, Loader.resolve]
  rcases eq_of_rel (h.resolve? module name) with
    ⟨hnone, hnone'⟩ | ⟨symbol, symbol', hsome, hsome', hs⟩
  · rw [hnone, hnone']
    exact .error _
  · rw [hsome, hsome']
    exact .ok hs

/-! ### What is kept -/

/-- The embedding program holds the same routines. -/
theorem Cleared.heldRoutines (h : l.Cleared m) :
    List.Forall₂ Routine.Cleared l.heldRoutines m.heldRoutines := by
  rw [Loader.heldRoutines, Loader.heldRoutines]
  refine List.rel_filterMap ?_ h.holds
  intro symbol symbol' hs
  cases hs with
  | none => exact .none
  | some hs =>
    cases hs with
    | native => exact .none
    | function hcode => exact .some hcode

/-- A module is kept by any of its routines, whatever breakpoints they have. -/
theorem isKept_eq {kept kept' : List Routine} (h : List.Forall₂ Routine.Cleared kept kept')
    {chunk chunk' : Chunk} (hc : chunk.Cleared chunk') :
    isKept kept' chunk' = isKept kept chunk := by
  rw [isKept, isKept, hc.id]
  exact any_eq_of_forall₂ h fun r s hrs => by rw [hrs.origin]

theorem Cleared.collectGarbage (h : l.Cleared m) {outside outside' : List Routine}
    (houtside : List.Forall₂ Routine.Cleared outside outside') :
    (m.collectGarbage outside').1 = (l.collectGarbage outside).1 ∧
      (l.collectGarbage outside).2.Cleared (m.collectGarbage outside').2 := by
  have hkept : List.Forall₂ Routine.Cleared (l.heldRoutines ++ outside)
      (m.heldRoutines ++ outside') := List.rel_append h.heldRoutines houtside
  have hgarbage : List.Forall₂ Chunk.Cleared
      (l.garbage.filter (isKept (l.heldRoutines ++ outside)))
      (m.garbage.filter (isKept (m.heldRoutines ++ outside'))) := by
    refine List.rel_filter ?_ h.garbage
    intro chunk chunk' hc
    exact (congrArg (· = true) (isKept_eq hkept hc)).symm.to_iff
  rw [Loader.collectGarbage, Loader.collectGarbage]
  refine ⟨?_, { h with garbage := hgarbage }⟩
  dsimp only
  rw [h.garbage.length_eq, hgarbage.length_eq]

/-! ### Actions -/

theorem agrees_addChunk {module module' : Prototype} (hmodule : module.Cleared module') :
    Agrees Cleared Eq (addChunk module) (addChunk module') := by
  rw [addChunk, addChunk, hmodule.symbol]
  have htaken : Agrees Cleared Eq
      (modifyGet fun l =>
        ((⟨l.nextChunk⟩ : ChunkId), { l with
          nextChunk := l.nextChunk + 1, pending := l.pending ++ [⟨⟨l.nextChunk⟩, module⟩] }))
      (modifyGet fun l =>
        ((⟨l.nextChunk⟩ : ChunkId), { l with
          nextChunk := l.nextChunk + 1, pending := l.pending ++ [⟨⟨l.nextChunk⟩, module'⟩] })) := by
    refine agrees_modifyGet fun l m h => ?_
    have hchunk : Chunk.Cleared ⟨⟨l.nextChunk⟩, module⟩ ⟨⟨l.nextChunk⟩, module'⟩ := ⟨rfl, hmodule⟩
    rw [h.nextChunk]
    exact ⟨rfl, { h with
      nextChunk := rfl
      pending := List.rel_append h.pending (.cons hchunk .nil) }⟩
  split
  next => exact agrees_throw_bind _ _ _
  next => exact htaken

theorem respects_hold (module name : String) : Respects Cleared Eq (hold module name) := by
  refine agrees_get_bind fun l m h => ?_
  refine agrees_look (h.resolve module name) fun symbol symbol' hs => ?_
  refine agrees_modifyGet fun l m h => ⟨?_, { h with holds := ?_ }⟩
  · simpa using h.holds.length_eq
  · simpa using List.rel_append h.holds (.cons (.some hs) .nil)

theorem Cleared.drop (h : l.Cleared m) (number : Nat) :
    (l.drop number).Cleared (m.drop number) := by
  refine { h with holds := ?_ }
  simpa [Loader.drop] using forall₂_set h.holds .none number

/-- Libraries are registered under the same numbers. -/
theorem respects_addLibrary (library : Library) : Respects Cleared Eq (addLibrary library) := by
  refine agrees_get_bind fun l m h => ?_
  dsimp only
  rw [h.libraries]
  split
  next => exact agrees_throw_bind _ _ _
  next =>
    have hsame : List.Forall₂ Eq library.entries library.entries :=
      List.forall₂_same.2 fun _ _ => rfl
    refine (agrees_mapM (R := Eq) hsame fun entry _ heq => ?_).bind fun table _ htable => ?_
    · subst heq
      refine agrees_look_same fun read => agrees_modifyGet fun l m h => ?_
      obtain ⟨name, arity⟩ := read
      exact ⟨by rw [h.natives], { h with natives := by rw [h.natives] }⟩
    · rw [List.forall₂_eq_eq_eq] at htable
      subst htable
      exact agrees_modify fun l m h => { h with libraries := by rw [h.libraries] }

/-! ### Links -/

/-- The same imports can be resolved. -/
theorem Cleared.isResolvable (h : l.Cleared m) (i : Import String) :
    m.isResolvable i = l.isResolvable i := by
  rw [Loader.isResolvable, Loader.isResolvable, h.libraries]
  split
  next => rfl
  next =>
    refine any_eq_of_forall₂ (List.rel_append h.running h.pending) fun chunk chunk' hc => ?_
    rw [hc.name]
    rcases eq_of_rel (hc.root.find? i.name) with ⟨hnone, hnone'⟩ | ⟨r, r', hsome, hsome', -⟩
    · rw [hnone, hnone']
    · rw [hsome, hsome', Option.isSome_some, Option.isSome_some]

/-- The same is imported. -/
theorem importsOf_eq {chunk chunk' : Chunk} (hc : chunk.Cleared chunk') :
    importsOf chunk' = importsOf chunk := by
  rw [importsOf, importsOf, List.flatMap, List.flatMap]
  refine congrArg _ (map_eq_of_forall₂ hc.root.walk fun r s hrs => ?_)
  rw [hrs.prototype.imports]

theorem Cleared.unresolved? (h : l.Cleared m) : m.unresolved? = l.unresolved? := by
  rw [Loader.unresolved?, Loader.unresolved?, List.flatMap, List.flatMap,
    map_eq_of_forall₂ h.pending fun _ _ => importsOf_eq]
  simp only [h.isResolvable]

theorem forall₂_eraseP {name : String} {chunks chunks' : List Chunk}
    (h : List.Forall₂ Chunk.Cleared chunks chunks') :
    List.Forall₂ Chunk.Cleared (chunks.eraseP fun old => old.name = name)
      (chunks'.eraseP fun old => old.name = name) := by
  induction h with
  | nil => exact .nil
  | @cons chunk chunk' _ _ hc hrest ih =>
    by_cases hname : chunk.name = name
    · rwa [List.eraseP_cons_of_pos (by simpa using hname),
        List.eraseP_cons_of_pos (by simpa [hc.name] using hname)]
    · rw [List.eraseP_cons_of_neg (by simpa using hname),
        List.eraseP_cons_of_neg (by simpa [hc.name] using hname)]
      exact .cons hc ih

/-- The same module is replaced. -/
theorem Cleared.promote {acc acc' : LinkReport × Loader} (h : acc'.1 = acc.1 ∧ acc.2.Cleared acc'.2)
    {chunk chunk' : Chunk} (hc : chunk.Cleared chunk') :
    (Loader.promote acc' chunk').1 = (Loader.promote acc chunk).1 ∧
      (Loader.promote acc chunk).2.Cleared (Loader.promote acc' chunk').2 := by
  obtain ⟨report, l⟩ := acc
  obtain ⟨_, m⟩ := acc'
  obtain ⟨rfl, h⟩ := h
  -- Names do not change, so the same module is replaced, or none.
  have hfound : Option.Rel Chunk.Cleared (l.running.find? fun old => old.name = chunk.name)
      (m.running.find? fun old => old.name = chunk.name) :=
    rel_find? h.running fun old old' ho => by rw [ho.name]
  have hlinked : List.Forall₂ Chunk.Cleared [chunk] [chunk'] := .cons hc .nil
  rw [Loader.promote, Loader.promote]
  dsimp only at h hfound ⊢
  rw [hc.name, hc.id]
  rcases eq_of_rel hfound with ⟨hnone, hnone'⟩ | ⟨old, old', hsome, hsome', ho⟩
  · rw [hnone, hnone']
    exact ⟨rfl, { h with running := List.rel_append h.running hlinked }⟩
  · rw [hsome, hsome']
    dsimp only
    rw [ho.id]
    exact ⟨rfl, { h with
      running := List.rel_append (forall₂_eraseP h.running) hlinked
      garbage := List.rel_append h.garbage (.cons ho .nil) }⟩

theorem respects_link : Respects Cleared Eq link := by
  -- The induction is over the pending modules, which are promoted in the same order.
  have hfold {acc acc' : LinkReport × Loader} (hacc : acc'.1 = acc.1 ∧ acc.2.Cleared acc'.2)
      {chunks chunks' : List Chunk} (h : List.Forall₂ Chunk.Cleared chunks chunks') :
      (chunks'.foldl Loader.promote acc').1 = (chunks.foldl Loader.promote acc).1 ∧
        (chunks.foldl Loader.promote acc).2.Cleared (chunks'.foldl Loader.promote acc').2 := by
    induction h generalizing acc acc' with
    | nil => exact hacc
    | cons hc _ ih => exact ih (Cleared.promote hacc hc)
  refine agrees_get_bind fun l m h => ?_
  rw [h.unresolved?]
  split
  next => exact agrees_throw _
  next =>
    refine agrees_modifyGet fun l m h => ?_
    have hempty : Cleared { l with pending := [] } { m with pending := [] } :=
      { h with pending := .nil }
    obtain ⟨hreport, hlinked⟩ :=
      @hfold ({}, { l with pending := [] }) ({}, { m with pending := [] })
      ⟨rfl, hempty⟩ _ _ h.pending
    have htold := hlinked.listeners
    refine ⟨?_, hlinked⟩
    dsimp only at hreport htold ⊢
    rw [hreport, htold]

end Loader

end ActorMachine
