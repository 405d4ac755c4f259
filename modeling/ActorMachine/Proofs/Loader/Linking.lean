import ActorMachine.Loader.Garbage
import ActorMachine.Loader.Link
import ActorMachine.Proofs.Ensures
import ActorMachine.Proofs.Traversals
import Mathlib.Data.List.Nodup

/-!
# What a link leads to

A link checks the imports of the pending modules before any of them replaces another, and an import
is resolved afterwards, among those that have not been replaced.

* `Reached`: the loaders that come about by registering libraries, taking in modules, linking and
  reclaiming. In all of them modules have numbers of their own, and those that run have names of
  their own (`consistent_of_reached`).
* `Progress`: what has become of the modules after some of the pending ones were made to run.
* `link_resolves_iff`: after a link an import of a linked module resolves exactly if the newest
  module of the name that it asks for exports what it asks for. If not, the check has found that in
  a module which this link has replaced.
-/

namespace ActorMachine

/-! ### The imports of a module -/

/-- A prototype is nested in another one, at any depth, or is that one. -/
inductive Prototype.Within (p : Prototype) : Prototype → Prop
  /-- It is that one. -/
  | root : Within p p
  /-- It is nested in one that is nested there directly, or is that. -/
  | nested {q r : Prototype} (hmem : r ∈ q.nested) (within : Within p r) : Within p q

namespace Routine

/-- The walks of several prototypes contain a walk of each of them. -/
theorem exists_walkFrom_subset {p : Prototype} {ps : List Prototype} (h : p ∈ ps)
    (origin : Option ChunkId) (path : List Nat) (index : Nat) :
    ∃ place, walkFrom origin place p ⊆ walkNested origin path index ps := by
  induction ps generalizing index with
  | nil => cases h
  | cons first ps ih =>
    rw [walkNested]
    rcases List.mem_cons.1 h with rfl | h
    · exact ⟨_, List.subset_append_left _ _⟩
    · obtain ⟨place, hsub⟩ := ih h (index + 1)
      exact ⟨place, List.subset_append_of_subset_right _ hsub⟩

/-- A walk comes past whatever is nested below its start. -/
theorem exists_mem_walkFrom {p q : Prototype} (h : p.Within q) (origin : Option ChunkId)
    (path : List Nat) : ∃ r ∈ walkFrom origin path q, r.prototype = p := by
  induction h generalizing path with
  | root =>
    rw [walkFrom_eq]
    exact ⟨_, List.mem_cons_self, rfl⟩
  | nested hmem _ ih =>
    obtain ⟨place, hsub⟩ := exists_walkFrom_subset hmem origin path 0
    obtain ⟨r, hr, hp⟩ := ih place
    rw [walkFrom_eq]
    exact ⟨r, List.mem_cons_of_mem _ (hsub hr), hp⟩

end Routine

namespace Loader

variable {l l' : Loader} {chunk other : Chunk} {chunks : List Chunk} {name : String}

/-! ### Modules of a name -/

/-- The last of some modules that has a name. -/
def newest (chunks : List Chunk) (name : String) : Option Chunk :=
  chunks.reverse.find? fun chunk => chunk.name = name

/-- A module that comes last is the newest of its name, and the others stay what they were. -/
theorem newest_append_singleton (chunks : List Chunk) (chunk : Chunk) (name : String) :
    newest (chunks ++ [chunk]) name =
      if chunk.name = name then some chunk else newest chunks name := by
  rw [newest, List.reverse_append, List.reverse_singleton, List.singleton_append, List.find?_cons]
  split
  next hname => rw [if_pos (of_decide_eq_true hname)]
  next hname => rw [if_neg (of_decide_eq_false hname), newest]

/-- Modules of another name do not matter to what the newest of a name is. -/
theorem newest_append_append {before others after : List Chunk}
    (hothers : ∀ other ∈ others, other.name ≠ name) :
    newest (before ++ (others ++ after)) name = newest (before ++ after) name := by
  have hnone : others.reverse.find? (fun chunk => chunk.name = name) = none := by
    simpa using hothers
  simp [newest, List.find?_append, hnone]

/-- The newest module of a name is one of the modules and has that name. -/
theorem mem_of_newest (h : newest chunks name = some chunk) :
    chunk ∈ chunks ∧ chunk.name = name := by
  refine ⟨by simpa using List.mem_of_find?_eq_some h, ?_⟩
  simpa using List.find?_some h

/-- If names are not shared, the module of a name is the newest. -/
theorem newest_eq_of_mem (hnames : (chunks.map Chunk.name).Nodup) (hmem : chunk ∈ chunks) :
    newest chunks chunk.name = some chunk := by
  cases hnewest : newest chunks chunk.name with
  | none =>
    have hnone := List.find?_eq_none.1 hnewest chunk (by simpa using hmem)
    simp at hnone
  | some other =>
    obtain ⟨hother, hname⟩ := mem_of_newest hnewest
    rw [List.inj_on_of_nodup_map hnames hother hmem hname]

/-! ### Making modules run -/

/-- The running module that a module replaces, if there is one. -/
def replacedBy (l : Loader) (chunk : Chunk) : List Chunk :=
  (l.running.find? fun old => old.name = chunk.name).toList

/-- The running modules without the one that a module replaces. -/
def remaining (l : Loader) (chunk : Chunk) : List Chunk :=
  l.running.eraseP fun old => old.name = chunk.name

/-- A module that is made to run goes behind those that it leaves running, and the one that it
replaces goes behind the garbage. -/
theorem promote_eq (report : LinkReport) (l : Loader) (chunk : Chunk) :
    promote (report, l) chunk =
      ({ linked := report.linked ++ [chunk.id]
         superseded := report.superseded ++ (l.replacedBy chunk).map Chunk.id },
        { l with
          running := l.remaining chunk ++ [chunk]
          garbage := l.garbage ++ l.replacedBy chunk }) := by
  rw [promote, replacedBy, remaining]
  cases hfind : l.running.find? fun old => old.name = chunk.name with
  | some old => rfl
  | none =>
    -- Nothing is replaced, so nothing is taken away.
    have hsame : l.running.eraseP (fun old => old.name = chunk.name) = l.running :=
      List.eraseP_of_forall_not (by simpa using hfind)
    simp [hsame]

/-- The module that is replaced stands between those that go on running, and has the name of the new
one. -/
theorem exists_split (l : Loader) (chunk : Chunk) :
    ∃ before after, l.running = before ++ (l.replacedBy chunk ++ after) ∧
      l.remaining chunk = before ++ after ∧ ∀ old ∈ l.replacedBy chunk, old.name = chunk.name := by
  rw [replacedBy, remaining]
  cases hfind : l.running.find? fun old => old.name = chunk.name with
  | none =>
    refine ⟨l.running, [], by simp, ?_, by simp⟩
    rw [List.eraseP_of_forall_not (by simpa using hfind), List.append_nil]
  | some old =>
    obtain ⟨hname, before, after, hrunning, hbefore⟩ := List.find?_eq_some_iff_append.1 hfind
    have hold : old.name = chunk.name := by simpa using hname
    refine ⟨before, after, hrunning, ?_, by simpa using hold⟩
    rw [hrunning, List.eraseP_append_right _ fun other hother => by simpa using hbefore other hother,
      List.eraseP_cons_of_pos (by simpa using hold)]

/-- If names are not shared, none of those that go on running has the name of the new module. -/
theorem name_ne_of_mem_remaining (hnames : (l.running.map Chunk.name).Nodup)
    (hmem : other ∈ l.remaining chunk) : other.name ≠ chunk.name := by
  have hsub : other ∈ l.running := List.mem_of_mem_eraseP hmem
  intro hname
  obtain ⟨before, after, hrunning, hremaining, hreplaced⟩ := l.exists_split chunk
  cases hfind : l.running.find? fun old => old.name = chunk.name with
  | none =>
    have hnone := List.find?_eq_none.1 hfind other hsub
    simp [hname] at hnone
  | some old =>
    rw [replacedBy, hfind] at hrunning hreplaced
    -- Otherwise two modules of one name would be running.
    have hold : old.name = chunk.name := hreplaced old (by simp)
    rw [hrunning] at hnames
    rw [hremaining] at hmem
    rw [List.map_append, List.map_append, List.nodup_append] at hnames
    obtain ⟨-, hafter, hapart⟩ := hnames
    rw [List.mem_append] at hmem
    rcases hmem with hmem | hmem
    · exact hapart _ (List.mem_map_of_mem hmem) old.name (by simp) (hname.trans hold.symm)
    · have hnot : old.name ∉ after.map Chunk.name := by simpa using (List.nodup_cons.1 hafter).1
      exact hnot (hold.trans hname.symm ▸ List.mem_map_of_mem hmem)

/-- What has become of the modules of a loader after the modules in `done` were made to run. -/
structure Progress (origin : Loader) (done : List Chunk) (report : LinkReport) (l : Loader) :
    Prop where
  /-- Nothing is pending. -/
  pending : l.pending = []
  /-- The libraries are the same. -/
  libraries : l.libraries = origin.libraries
  /-- No number was given out. -/
  nextChunk : l.nextChunk = origin.nextChunk
  /-- The report lists what was made to run. -/
  linked : report.linked = done.map Chunk.id
  /-- No two modules of one name run. -/
  names : (l.running.map Chunk.name).Nodup
  /-- Of each name the newest module runs. -/
  newest : ∀ name, newest l.running name = newest (origin.running ++ done) name
  /-- What was running or was made to run still runs or was replaced. -/
  kept : ∀ chunk ∈ origin.running ++ done,
    chunk ∈ l.running ∨ (chunk ∈ l.garbage ∧ chunk.id ∈ report.superseded)
  /-- No module comes or goes. -/
  perm : (l.running ++ l.garbage).Perm (origin.running ++ done ++ origin.garbage)

/-- The next module is made to run. -/
theorem Progress.promote {origin : Loader} {done : List Chunk} {report report' : LinkReport}
    (h : Progress origin done report l) (hpromote : promote (report, l) chunk = (report', l')) :
    Progress origin (done ++ [chunk]) report' l' := by
  rw [promote_eq] at hpromote
  obtain ⟨rfl, rfl⟩ := Prod.mk.inj hpromote
  obtain ⟨before, after, hrunning, hremaining, hreplaced⟩ := l.exists_split chunk
  refine ⟨h.pending, h.libraries, h.nextChunk, ?_, ?_, fun name => ?_, fun other hother => ?_, ?_⟩
  · rw [h.linked, List.map_append, List.map_singleton]
  · show ((l.remaining chunk ++ [chunk]).map Chunk.name).Nodup
    rw [List.map_append, List.map_singleton, List.nodup_append]
    refine ⟨h.names.sublist (List.eraseP_sublist.map _), List.nodup_singleton _, ?_⟩
    intro name hname name' hname'
    obtain ⟨other, hother, rfl⟩ := List.mem_map.1 hname
    rw [List.mem_singleton.1 hname']
    exact name_ne_of_mem_remaining h.names hother
  -- Only the newest of the new module's name becomes another one.
  · rw [← List.append_assoc, newest_append_singleton, newest_append_singleton, ← h.newest]
    split
    next => rfl
    next hname =>
      rw [hremaining, hrunning, newest_append_append]
      exact fun old hold => (hreplaced old hold).trans_ne hname
  · rw [← List.append_assoc, List.mem_append, List.mem_singleton] at hother
    show other ∈ l.remaining chunk ++ [chunk] ∨
      (other ∈ l.garbage ++ l.replacedBy chunk ∧
        other.id ∈ report.superseded ++ (l.replacedBy chunk).map Chunk.id)
    simp only [List.mem_append, List.mem_singleton]
    -- What still ran before, either goes on running or is what is replaced now.
    rcases hother with hother | rfl
    · rcases h.kept other hother with hruns | ⟨hin, hid⟩
      · rw [hrunning] at hruns
        simp only [List.mem_append] at hruns
        rw [hremaining, List.mem_append]
        rcases hruns with hruns | hruns | hruns
        · exact .inl (.inl (.inl hruns))
        · exact .inr ⟨.inr hruns, .inr (List.mem_map_of_mem hruns)⟩
        · exact .inl (.inl (.inr hruns))
      · exact .inr ⟨.inl hin, .inl hid⟩
    · exact .inl (.inr rfl)
  · show (l.remaining chunk ++ [chunk] ++ (l.garbage ++ l.replacedBy chunk)).Perm _
    classical
    rw [hremaining, List.perm_iff_count]
    intro other
    have hbefore := h.perm.count_eq other
    rw [hrunning] at hbefore
    simp only [List.count_append] at hbefore ⊢
    omega

/-- Some modules are made to run one after the other. -/
theorem Progress.foldl {origin : Loader} {done : List Chunk} {report : LinkReport}
    (h : Progress origin done report l) :
    Progress origin (done ++ chunks) (chunks.foldl Loader.promote (report, l)).1
      (chunks.foldl Loader.promote (report, l)).2 := by
  induction chunks generalizing done report l with
  | nil => simpa using h
  | cons chunk chunks ih =>
    rw [List.foldl_cons, List.append_cons]
    exact ih (h.promote rfl)

/-- A link that succeeds has found every import that the check asks for, and makes all pending
modules run. -/
theorem link_spec (hnames : (l.running.map Chunk.name).Nodup) :
    Ensures link l
      (fun linking l' => l.unresolved? = none ∧ Progress l l.pending linking.report l')
      (fun _ l' => l' = l) := by
  rw [link, ensures_bind, ensures_get]
  cases hunresolved : l.unresolved? with
  | some i => rfl
  | none =>
    have hstart : Progress l [] {} { l with pending := [] } :=
      ⟨rfl, rfl, rfl, rfl, hnames, fun name => by rw [List.append_nil],
        fun chunk hchunk => .inl (by simpa using hchunk), by simp⟩
    exact ⟨rfl, hstart.foldl⟩

/-! ### The loaders that come about -/

/-- The modules of a loader. -/
def modules (l : Loader) : List Chunk :=
  l.running ++ l.pending ++ l.garbage

/-- What identifies modules is not shared. -/
structure Consistent (l : Loader) : Prop where
  /-- No two modules have the same number. -/
  numbers : (l.modules.map Chunk.id).Nodup
  /-- The numbers still to be given out are new. -/
  fresh : ∀ chunk ∈ l.modules, chunk.id.number < l.nextChunk
  /-- No two modules of one name run. -/
  names : (l.running.map Chunk.name).Nodup

/-- What can happen to the modules of a loader. -/
inductive Operation
  /-- A library is registered. -/
  | addLibrary (library : Library)
  /-- A module is taken in. -/
  | addChunk (module : Prototype)
  /-- All pending modules are linked. -/
  | link
  /-- Replaced modules of which nothing is kept are dropped. -/
  | collectGarbage (outside : List Routine)

namespace Operation

/-- What an operation does. -/
def run : Operation → Action Unit
  | addLibrary library => Loader.addLibrary library
  | addChunk module => discard (Loader.addChunk module)
  | link => discard Loader.link
  | collectGarbage outside => modify fun l => (l.collectGarbage outside).2

/-- The loader after an operation, whether that has failed or not. -/
def after (op : Operation) (l : Loader) : Loader :=
  match op.run l with
  | .ok _ l' => l'
  | .error _ l' => l'

/-- What an operation ensures in both cases holds afterwards. -/
theorem after_of_ensures {op : Operation} {post : Loader → Prop}
    (h : Ensures op.run l (fun _ => post) fun _ => post) : post (op.after l) := by
  rw [after]
  cases hrun : op.run l with
  | ok _ l' => exact h.of_ok hrun
  | error fault l' => exact h.of_error hrun

end Operation

/-- The loaders that come about by operations in any order. -/
inductive Reached : Loader → Prop
  /-- There is neither a library nor a module. -/
  | empty : Reached .empty
  /-- Something has happened to the modules. -/
  | next {l : Loader} (op : Operation) (before : Reached l) : Reached (op.after l)

/-- Several operations lead from a loader that comes about to another one. -/
theorem Reached.foldl (h : Reached l) (ops : List Operation) :
    Reached (ops.foldl (fun l op => op.after l) l) := by
  induction ops generalizing l with
  | nil => exact h
  | cons op ops ih => exact ih (.next op h)

/-- Registering a library does not concern the modules. -/
theorem consistent_addLibrary (hl : l.Consistent) (library : Library) :
    Ensures (addLibrary library) l (fun _ => Consistent) fun _ => Consistent := by
  rw [addLibrary, ensures_bind, ensures_get]
  split
  next => exact hl
  next =>
    rw [ensures_bind]
    refine (ensures_mapM_of_forall (fun entry _ l hl => ?_) hl).mono (fun table l' hl' => ?_)
      fun _ _ h => h
    · show Ensures (ofExcept (Library.readEntry entry.1) >>= fun _ => modifyGet _) _ _ _
      rw [ensures_bind, ensures_ofExcept]
      exact ⟨fun _ _ => ⟨hl.numbers, hl.fresh, hl.names⟩, fun _ _ => hl⟩
    · exact ⟨hl'.numbers, hl'.fresh, hl'.names⟩

/-- A module that is taken in gets a number of its own. -/
theorem consistent_addChunk (hl : l.Consistent) (module : Prototype) :
    Ensures (addChunk module) l (fun _ => Consistent) fun _ => Consistent := by
  rw [addChunk]
  split
  next => exact hl
  next =>
    have hperm : (l.running ++ (l.pending ++ [(⟨⟨l.nextChunk⟩, module⟩ : Chunk)]) ++
        l.garbage).Perm (⟨⟨l.nextChunk⟩, module⟩ :: l.modules) := by
      rw [modules, ← List.append_assoc, List.append_assoc _ [_]]
      exact List.perm_middle
    refine ⟨(hperm.map Chunk.id).nodup_iff.2 (List.nodup_cons.2 ⟨fun hmem => ?_, hl.numbers⟩),
      fun chunk hchunk => ?_, hl.names⟩
    · obtain ⟨chunk, hchunk, hid⟩ := List.mem_map.1 hmem
      have hfresh := hl.fresh chunk hchunk
      rw [hid] at hfresh
      exact Nat.lt_irrefl _ hfresh
    · rcases List.mem_cons.1 (hperm.mem_iff.1 hchunk) with rfl | hchunk
      · exact Nat.lt_succ_self _
      · exact Nat.lt_succ_of_lt (hl.fresh chunk hchunk)

/-- A link renumbers nothing. -/
theorem consistent_link (hl : l.Consistent) :
    Ensures link l (fun _ => Consistent) fun _ => Consistent := by
  refine (link_spec hl.names).mono (fun linking l' hlink => ?_) fun _ _ h => h ▸ hl
  have hperm : (l'.modules).Perm l.modules := by
    rw [modules, hlink.2.pending, List.append_nil]
    exact hlink.2.perm
  refine ⟨(hperm.map Chunk.id).nodup_iff.2 hl.numbers, fun chunk hchunk => ?_, hlink.2.names⟩
  rw [hlink.2.nextChunk]
  exact hl.fresh chunk (hperm.mem_iff.1 hchunk)

/-- Dropping replaced modules leaves the others what they were. -/
theorem Consistent.collectGarbage (hl : l.Consistent) (outside : List Routine) :
    (l.collectGarbage outside).2.Consistent := by
  have hsub : (l.collectGarbage outside).2.modules.Sublist l.modules :=
    (List.Sublist.refl _).append List.filter_sublist
  exact ⟨hl.numbers.sublist (hsub.map _), fun chunk hchunk => hl.fresh chunk (hsub.mem hchunk),
    hl.names⟩

/-- What identifies modules stays so, whether an operation fails or not. -/
theorem Consistent.after (hl : l.Consistent) (op : Operation) : (op.after l).Consistent := by
  refine Operation.after_of_ensures ?_
  cases op with
  | addLibrary library => exact consistent_addLibrary hl library
  | addChunk module =>
    rw [Operation.run, ensures_discard]
    exact consistent_addChunk hl module
  | link =>
    rw [Operation.run, ensures_discard]
    exact consistent_link hl
  | collectGarbage outside => exact hl.collectGarbage outside

/-- Modules are identified in every loader that comes about. -/
theorem consistent_of_reached (h : Reached l) : l.Consistent := by
  induction h with
  | empty => exact ⟨List.nodup_nil, by simp [modules, empty], List.nodup_nil⟩
  | next op _ ih => exact ih.after op

/-! ### What resolves after a link -/

/-- An import asks for what the newest module of the name, running or pending, does not export. -/
def Dropped (l : Loader) (i : Import String) : Prop :=
  l.libraries.lookup i.module = none ∧
    ∃ chunk, newest (l.running ++ l.pending) i.module = some chunk ∧ chunk.root.find? i.name = none

/-- What stands for an import is looked up in a library or in the newest running module. -/
theorem exists_resolve_iff (l : Loader) (i : Import String) :
    (∃ symbol, l.resolve i.module i.name = .ok symbol) ↔
      (match l.libraries.lookup i.module with
        | some table => (table.lookup i.name).isSome = true
        | none => ∃ chunk, newest l.running i.module = some chunk ∧
            (chunk.root.find? i.name).isSome = true) := by
  rw [resolve, resolve?, newest]
  cases l.libraries.lookup i.module with
  | some table =>
    dsimp only
    cases table.lookup i.name <;> simp
  | none =>
    cases l.running.reverse.find? fun chunk => chunk.name = i.module with
    | none => simp
    | some chunk => cases hfind : chunk.root.find? i.name <;> simp [hfind]

/-- What the check asks for. -/
theorem isResolvable_iff (l : Loader) (i : Import String) :
    l.isResolvable i = true ↔
      (match l.libraries.lookup i.module with
        | some table => (table.lookup i.name).isSome = true
        | none => ∃ chunk ∈ l.running ++ l.pending, chunk.name = i.module ∧
            (chunk.root.find? i.name).isSome = true) := by
  rw [isResolvable]
  cases l.libraries.lookup i.module with
  | some table => rfl
  | none => simp only [List.any_eq_true, Bool.and_eq_true, decide_eq_true_eq]

/-- Some module of a name among several makes one of them the newest. -/
theorem exists_newest (hmem : chunk ∈ chunks) : ∃ other, newest chunks chunk.name = some other := by
  exact Option.isSome_iff_exists.1 (List.find?_isSome.2 ⟨chunk, by simpa using hmem, by simp⟩)

/-- A check that finds nothing has found every import of a pending module. -/
theorem isResolvable_of_unresolved? (h : l.unresolved? = none) (hmem : chunk ∈ l.pending)
    {p : Prototype} (hp : p.Within chunk.module) {i : Import String} (hi : i ∈ p.imports) :
    l.isResolvable i = true := by
  obtain ⟨r, hr, rfl⟩ := Routine.exists_mem_walkFrom hp (some chunk.id) []
  have hin : i ∈ l.pending.flatMap importsOf :=
    List.mem_flatMap.2 ⟨chunk, hmem, List.mem_flatMap.2 ⟨r, hr, Array.mem_toList_iff.2 hi⟩⟩
  simpa using List.find?_eq_none.1 h i hin

/-- A module that runs and was reported as linked had been pending. -/
theorem Progress.mem_done {report : LinkReport} (h : Progress l l.pending report l')
    (hnumbers : (l.modules.map Chunk.id).Nodup) (hruns : chunk ∈ l'.running)
    (hlinked : chunk.id ∈ report.linked) : chunk ∈ l.pending := by
  rw [h.linked] at hlinked
  obtain ⟨other, hother, hid⟩ := List.mem_map.1 hlinked
  have hold : chunk ∈ l.modules := h.perm.mem_iff.1 (List.mem_append_left _ hruns)
  have hmem : other ∈ l.modules := List.mem_append_left _ (List.mem_append_right _ hother)
  rwa [← List.inj_on_of_nodup_map hnumbers hmem hold hid]

/-- After a link an import of a linked module that runs resolves exactly if the newest module of the
name has not dropped what is asked for. If it has, a module that this link replaced exports it. -/
theorem link_resolves_iff {linking : Linking} (hl : Reached l) (hlink : link l = .ok linking l')
    (hruns : chunk ∈ l'.running) (hlinked : chunk.id ∈ linking.report.linked) {p : Prototype}
    (hp : p.Within chunk.module) {i : Import String} (hi : i ∈ p.imports) :
    ((∃ symbol, l'.resolve i.module i.name = .ok symbol) ↔ ¬l.Dropped i) ∧
      (l.Dropped i → ∃ old ∈ l'.garbage, old.id ∈ linking.report.superseded ∧
        old.name = i.module ∧ (old.root.find? i.name).isSome = true) := by
  have hcons := consistent_of_reached hl
  obtain ⟨hchecked, hprogress⟩ := (link_spec hcons.names).of_ok hlink
  have hresolvable : l.isResolvable i = true := by
    have hpending := hprogress.mem_done hcons.numbers hruns hlinked
    exact isResolvable_of_unresolved? hchecked hpending hp hi
  rw [exists_resolve_iff, hprogress.libraries, hprogress.newest, Dropped]
  rw [isResolvable_iff] at hresolvable
  cases hlibrary : l.libraries.lookup i.module with
  | some table =>
    rw [hlibrary] at hresolvable
    exact ⟨by simpa using hresolvable, fun h => nomatch h.1⟩
  | none =>
    rw [hlibrary] at hresolvable
    obtain ⟨found, hfound, hname, hexports⟩ := hresolvable
    obtain ⟨last, hlast⟩ := exists_newest hfound
    rw [hname] at hlast
    refine ⟨?_, ?_⟩
    -- Of a name that some module has there is a newest one, so only its exports matter.
    · simp only [hlast]
      simp [Option.isSome_iff_ne_none]
    · rintro ⟨-, other, hother, hdropped⟩
      -- If what the check has found were still running, it would be the newest of its name.
      rcases hprogress.kept found hfound with hstays | ⟨hgarbage, hid⟩
      · have hsame := newest_eq_of_mem hprogress.names hstays
        rw [hprogress.newest, hname, hother] at hsame
        obtain rfl := Option.some.inj hsame
        rw [hdropped] at hexports
        cases hexports
      · exact ⟨found, hgarbage, hid, hname, hexports⟩

/-- A module that exports functions without code and imports what it is given. -/
def moduleOf (name : String) (exports : List String) (imports : Array (Import String)) :
    Prototype :=
  { Prototype.blank with
    symbol := some name
    imports
    nested := exports.map fun name => { Prototype.blank with symbol := some name } }

/-- A module that imports `f` of `m` and the function `g` that it exports itself. -/
def importer : Prototype :=
  moduleOf "x" ["g"] #[⟨"m", "f"⟩, ⟨"x", "g"⟩]

/-- The module `m` runs and exports `f`. Pending are a new `m`, which exports nothing, and a module
that imports `f`. -/
def shrinking : Loader :=
  [Operation.addChunk (moduleOf "m" ["f"] #[]), .link, .addChunk (moduleOf "m" [] #[]),
    .addChunk importer].foldl (fun l op => op.after l) .empty

theorem reached_shrinking : Reached shrinking :=
  Reached.empty.foldl _

/-- Of the two imports one resolves, and the other has been dropped. -/
theorem link_resolves_shrinking : ∃ linking l', link shrinking = .ok linking l' ∧
    (∃ symbol, l'.resolve "x" "g" = .ok symbol) ∧
    (¬∃ symbol, l'.resolve "m" "f" = .ok symbol) ∧
    ∃ old ∈ l'.garbage, old.id ∈ linking.report.superseded ∧ old.name = "m" ∧
      (old.root.find? "f").isSome = true := by
  refine ⟨_, _, rfl, ?_⟩
  have hat {i : Import String} (hi : i ∈ importer.imports) :=
    @link_resolves_iff _ _ ⟨⟨2⟩, importer⟩ _ reached_shrinking rfl (.tail _ (.head _))
      (.tail _ (.head _)) _ .root _ hi
  have hdropped : shrinking.Dropped ⟨"m", "f"⟩ := ⟨rfl, ⟨⟨1⟩, moduleOf "m" [] #[]⟩, rfl, rfl⟩
  refine ⟨(hat (i := ⟨"x", "g"⟩) (by simp [importer, moduleOf])).1.2 ?_, ?_⟩
  · rintro ⟨-, chunk, hnewest, hnone⟩
    obtain rfl : (⟨⟨2⟩, importer⟩ : Chunk) = chunk := Option.some.inj hnewest
    cases hnone
  · obtain ⟨hiff, hreplaced⟩ := hat (i := ⟨"m", "f"⟩) (by simp [importer, moduleOf])
    exact ⟨fun hresolves => hiff.1 hresolves hdropped, hreplaced hdropped⟩

/-- Not all that a linked module imports resolves after a link: the module that the check has found
it in may be one that this link replaces. -/
theorem not_link_resolves :
    ¬∀ (l l' : Loader) (linking : Linking) (chunk : Chunk) (p : Prototype) (i : Import String),
      Reached l → link l = .ok linking l' → chunk ∈ l'.running → chunk.id ∈ linking.report.linked →
      p.Within chunk.module → i ∈ p.imports → ∃ symbol, l'.resolve i.module i.name = .ok symbol := by
  intro h
  obtain ⟨symbol, hsymbol⟩ := h shrinking _ _ ⟨⟨2⟩, importer⟩ _ ⟨"m", "f"⟩ reached_shrinking rfl
    (.tail _ (.head _)) (.tail _ (.head _)) .root (by simp [importer, moduleOf])
  cases hsymbol

end Loader

end ActorMachine
