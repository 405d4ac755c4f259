import ActorMachine.Proofs.Agreement

/-!
# Breakpoints

A breakpoint is cleared by putting a `nop` in its place. Any number of breakpoints may be cleared in
a prototype and in the ones nested in it, and the places of instructions stay what they are.

* `Instruction.Cleared`, `Prototype.Cleared`, `Routine.Cleared`, `Chunk.Cleared`: the second is the
  first with some of its breakpoints cleared, maybe none.
* `Routine.Cleared.nested?`, `Routine.Cleared.find?`, `Routine.Cleared.walk`: what is nested in the
  one is nested in the other at the same place.
-/

namespace ActorMachine

/-- The second instruction is the first one, unless that is a breakpoint that was cleared. -/
inductive Instruction.Cleared : Instruction → Instruction → Prop
  /-- The instruction stays. -/
  | same (i : Instruction) : Cleared i i
  /-- A breakpoint is cleared. -/
  | breakpoint : Cleared .breakpoint .nop

namespace Prototype

/-- The second prototype is the first one with some breakpoints cleared, in its own code and in that
of the prototypes nested in it. -/
inductive Cleared : Prototype → Prototype → Prop
  /-- All but the code stays. -/
  | intro (p : Prototype) {code : Array Instruction} {nested : List Prototype}
      (instructions : List.Forall₂ Instruction.Cleared p.code.toList code.toList)
      (within : List.Forall₂ Cleared p.nested nested) : Cleared p { p with code, nested }

variable {p q : Prototype}

theorem Cleared.symbol (h : p.Cleared q) : q.symbol = p.symbol := by
  cases h
  rfl

theorem Cleared.upvalues (h : p.Cleared q) : q.upvalues = p.upvalues := by
  cases h
  rfl

theorem Cleared.arguments (h : p.Cleared q) : q.arguments = p.arguments := by
  cases h
  rfl

theorem Cleared.locals (h : p.Cleared q) : q.locals = p.locals := by
  cases h
  rfl

theorem Cleared.constants (h : p.Cleared q) : q.constants = p.constants := by
  cases h
  rfl

theorem Cleared.imports (h : p.Cleared q) : q.imports = p.imports := by
  cases h
  rfl

theorem Cleared.frameSize (h : p.Cleared q) : q.frameSize = p.frameSize := by
  cases h
  rfl

theorem Cleared.code (h : p.Cleared q) :
    List.Forall₂ Instruction.Cleared p.code.toList q.code.toList := by
  cases h with
  | intro _ hcode => exact hcode

theorem Cleared.nested (h : p.Cleared q) : List.Forall₂ Cleared p.nested q.nested := by
  cases h with
  | intro _ _ hnested => exact hnested

/-- Jumps may lead equally far. -/
theorem Cleared.size_code (h : p.Cleared q) : q.code.size = p.code.size := by
  simpa using h.code.length_eq.symm

mutual

/-- No breakpoint needs to be cleared. -/
theorem cleared_refl (p : Prototype) : p.Cleared p := by
  obtain ⟨symbol, source, upvalues, arguments, locals, code, constants, imports, nested⟩ := p
  exact .intro ⟨symbol, source, upvalues, arguments, locals, code, constants, imports, nested⟩
    (List.forall₂_same.2 fun i _ => .same i) (cleared_refl_all nested)

theorem cleared_refl_all (ps : List Prototype) : List.Forall₂ Cleared ps ps := by
  cases ps with
  | nil => exact .nil
  | cons p ps => exact .cons (cleared_refl p) (cleared_refl_all ps)

end

end Prototype

namespace Routine

/-- The code of the second routine is that of the first with some breakpoints cleared. -/
structure Cleared (r s : Routine) : Prop where
  /-- It belongs to the same module, -/
  origin : s.origin = r.origin
  /-- at the same place in it, -/
  path : s.path = r.path
  /-- and some of its breakpoints are cleared. -/
  prototype : r.prototype.Cleared s.prototype

variable {r s : Routine}

theorem cleared_refl (r : Routine) : r.Cleared r :=
  ⟨rfl, rfl, Prototype.cleared_refl _⟩

theorem Cleared.nested? (h : r.Cleared s) (index : Nat) :
    Option.Rel Cleared (r.nested? index) (s.nested? index) := by
  rw [Routine.nested?, Routine.nested?, h.path]
  exact rel_map (rel_getElem? h.prototype.nested index) fun _ _ hnested => ⟨h.origin, rfl, hnested⟩

mutual

theorem rel_findFrom (name : String) (origin : Option ChunkId) (path : List Nat) {p q : Prototype}
    (h : p.Cleared q) :
    Option.Rel Cleared (findFrom name origin path p) (findFrom name origin path q) := by
  cases h with
  | intro _ _ hnested =>
    obtain ⟨symbol, source, upvalues, arguments, locals, code, constants, imports, nested⟩ := p
    rw [findFrom, findFrom]
    exact rel_findNested name origin path 0 hnested

theorem rel_findNested (name : String) (origin : Option ChunkId) (path : List Nat) (index : Nat)
    {ps qs : List Prototype} (h : List.Forall₂ Prototype.Cleared ps qs) :
    Option.Rel Cleared (findNested name origin path index ps)
      (findNested name origin path index qs) := by
  cases h with
  | nil => exact .none
  | @cons p q ps qs hpq hrest =>
    rw [findNested, findNested, hpq.symbol]
    split
    next => exact .some ⟨rfl, rfl, hpq⟩
    next =>
      exact rel_or (rel_findFrom name origin (path ++ [index]) hpq)
        (rel_findNested name origin path (index + 1) hrest)

end

/-- The same routine is exported under a name. -/
theorem Cleared.find? (h : r.Cleared s) (name : String) :
    Option.Rel Cleared (r.find? name) (s.find? name) := by
  rw [Routine.find?, Routine.find?, h.origin, h.path]
  exact rel_findFrom name r.origin r.path h.prototype

mutual

theorem forall_walkFrom (origin : Option ChunkId) (path : List Nat) {p q : Prototype}
    (h : p.Cleared q) : List.Forall₂ Cleared (walkFrom origin path p) (walkFrom origin path q) := by
  have hwhole := h
  cases h with
  | intro _ _ hnested =>
    obtain ⟨symbol, source, upvalues, arguments, locals, code, constants, imports, nested⟩ := p
    rw [walkFrom, walkFrom]
    exact .cons ⟨rfl, rfl, hwhole⟩ (forall_walkNested origin path 0 hnested)

theorem forall_walkNested (origin : Option ChunkId) (path : List Nat) (index : Nat)
    {ps qs : List Prototype} (h : List.Forall₂ Prototype.Cleared ps qs) :
    List.Forall₂ Cleared (walkNested origin path index ps) (walkNested origin path index qs) := by
  cases h with
  | nil => exact .nil
  | cons hpq hrest =>
    rw [walkNested, walkNested]
    exact List.rel_append (forall_walkFrom origin (path ++ [index]) hpq)
      (forall_walkNested origin path (index + 1) hrest)

end

/-- The routines below are the same but for breakpoints. -/
theorem Cleared.walk (h : r.Cleared s) : List.Forall₂ Cleared r.walk s.walk := by
  rw [Routine.walk, Routine.walk, h.origin, h.path]
  exact forall_walkFrom r.origin r.path h.prototype

end Routine

namespace Chunk

/-- The code of the second module is that of the first with some breakpoints cleared. -/
structure Cleared (c d : Chunk) : Prop where
  /-- It has the same number. -/
  id : d.id = c.id
  /-- Some of its breakpoints are cleared. -/
  module : c.module.Cleared d.module

variable {c d : Chunk}

theorem Cleared.name (h : c.Cleared d) : d.name = c.name := by
  rw [Chunk.name, Chunk.name, h.module.symbol]

theorem Cleared.root (h : c.Cleared d) : c.root.Cleared d.root :=
  ⟨congrArg some h.id, rfl, h.module⟩

end Chunk

end ActorMachine
