import ActorMachine.Proofs.Loader.Linking

/-!
# The sets of modules over a history

A ledger is kept beside a loader: the numbers that were given out, those of the modules that were
reclaimed, the listeners that registered, and what they were told. Whatever happens to the loader,
the ledger and the sets of modules agree.

* `Recorded`: the loaders that come about, each with its ledger.
* `Tallies`: the ledger and the loader agree; what every operation preserves.
* `Superseding`: what a link moves from the running modules behind the garbage.
* `sets_of_recorded`: the sets share no module and lose none, and a link changes all of them or
  nothing.
-/

namespace ActorMachine.Loader

/-- What is remembered of all that has happened to a loader. -/
structure Ledger where
  /-- The numbers given out to modules, in the order of their arrival. -/
  issued : List ChunkId := []
  /-- The numbers of the modules that were reclaimed. -/
  reclaimed : List ChunkId := []
  /-- The listeners, in the order of their registration. -/
  listeners : List Listener := []
  /-- Who was told of which link, in the order of the telling. -/
  told : List (Listener × LinkReport) := []

/-- What an operation on a loader adds to the ledger. -/
def Operation.enter (op : Operation) (l : Loader) (ledger : Ledger) : Ledger :=
  match op with
  | .addLibrary _ => ledger
  | .addChunk module =>
    match Loader.addChunk module l with
    | .ok id _ => { ledger with issued := ledger.issued ++ [id] }
    | .error _ _ => ledger
  | .link =>
    match Loader.link l with
    | .ok linking _ => { ledger with told := ledger.told ++ linking.told }
    | .error _ _ => ledger
  | .collectGarbage outside =>
    let left := (l.collectGarbage outside).2.garbage.map Chunk.id
    let gone := (l.garbage.map Chunk.id).filter fun id => id ∉ left
    { ledger with reclaimed := ledger.reclaimed ++ gone }

/-- The loaders that come about by operations in any order and by the registration of listeners in
between, each with its ledger. -/
inductive Recorded : Ledger → Loader → Prop
  /-- There is neither a library nor a module nor a listener. -/
  | empty : Recorded {} .empty
  /-- Something has happened to the modules. -/
  | next {ledger : Ledger} {l : Loader} (op : Operation) (before : Recorded ledger l) :
    Recorded (op.enter l ledger) (op.after l)
  /-- A listener has been registered. -/
  | listen {ledger : Ledger} {l : Loader} (listener : Listener) (before : Recorded ledger l) :
    Recorded { ledger with listeners := ledger.listeners ++ [listener] } (l.addListener listener)

variable {ledger : Ledger} {l l' : Loader} {chunk : Chunk} {chunks : List Chunk}

/-! ### What an operation leaves alone -/

/-- The modules, the next number and the listeners are the same. -/
structure SameSets (l l' : Loader) : Prop where
  /-- The same modules are pending. -/
  pending : l'.pending = l.pending
  /-- The same modules run. -/
  running : l'.running = l.running
  /-- The same modules are garbage. -/
  garbage : l'.garbage = l.garbage
  /-- The next module gets the same number. -/
  nextChunk : l'.nextChunk = l.nextChunk
  /-- The same listeners are told. -/
  listeners : l'.listeners = l.listeners

/-- Registering a library does not concern the modules. -/
theorem sameSets_addLibrary (l : Loader) (library : Library) :
    Ensures (addLibrary library) l (fun _ => SameSets l) fun _ => SameSets l := by
  have hl : SameSets l l := ⟨rfl, rfl, rfl, rfl, rfl⟩
  rw [addLibrary, ensures_bind, ensures_get]
  split
  next => exact hl
  next =>
    rw [ensures_bind]
    refine (ensures_mapM_of_forall (fun entry _ l' hl' => ?_) hl).mono (fun table l' hl' => ?_)
      fun _ _ h => h
    · show Ensures (ofExcept (Library.readEntry entry.1) >>= fun _ => modifyGet _) _ _ _
      rw [ensures_bind, ensures_ofExcept]
      exact ⟨fun _ _ => ⟨hl'.1, hl'.2, hl'.3, hl'.4, hl'.5⟩, fun _ _ => hl'⟩
    · exact ⟨hl'.1, hl'.2, hl'.3, hl'.4, hl'.5⟩

/-- A module that is taken in gets the next number and waits behind the others. -/
theorem addChunk_spec (l : Loader) (module : Prototype) :
    Ensures (addChunk module) l
      (fun id l' => id = ⟨l.nextChunk⟩ ∧
        l' = { l with nextChunk := l.nextChunk + 1, pending := l.pending ++ [⟨id, module⟩] })
      (fun _ l' => l' = l) := by
  rw [addChunk]
  split
  next => rfl
  next => exact ⟨rfl, rfl⟩

/-- The loader after an operation is the one that the program of the operation leaves. -/
theorem Operation.after_eq {α : Type} {op : Operation} {act : Action α}
    (hrun : op.run = discard act) (l : Loader) : op.after l =
      match act l with
      | .ok _ l' | .error _ l' => l' := by
  rw [after, hrun]
  simp only [discard, Functor.discard, Functor.mapConst, Function.comp, EStateM.map]
  cases act l <;> rfl

/-! ### What a link moves -/

/-- What some modules that were made to run one after the other have replaced. -/
structure Superseding (origin : Loader) (done : List Chunk) (report : LinkReport) (l : Loader)
    (moved : List Chunk) : Prop where
  /-- They went behind the garbage. -/
  garbage : l.garbage = origin.garbage ++ moved
  /-- They are reported, in that order. -/
  superseded : report.superseded = moved.map Chunk.id
  /-- The others run. -/
  perm : (l.running ++ moved).Perm (origin.running ++ done)
  /-- Nobody is told of anything else. -/
  listeners : l.listeners = origin.listeners

/-- The next module replaces at most one of those that run. -/
theorem Superseding.promote {origin : Loader} {done moved : List Chunk} {report : LinkReport}
    (h : Superseding origin done report l moved) :
    Superseding origin (done ++ [chunk]) (promote (report, l) chunk).1
      (promote (report, l) chunk).2 (moved ++ l.replacedBy chunk) := by
  rw [promote_eq]
  obtain ⟨before, after, hrunning, hremaining, -⟩ := l.exists_split chunk
  refine ⟨?_, ?_, ?_, h.listeners⟩
  · rw [← List.append_assoc, ← h.garbage]
  · rw [List.map_append, ← h.superseded]
  · show (l.remaining chunk ++ [chunk] ++ (moved ++ l.replacedBy chunk)).Perm _
    classical
    rw [hremaining, List.perm_iff_count]
    intro other
    have hbefore := h.perm.count_eq other
    rw [hrunning] at hbefore
    simp only [List.count_append] at hbefore ⊢
    omega

/-- Some modules are made to run one after the other. -/
theorem Superseding.foldl {origin : Loader} {done moved : List Chunk} {report : LinkReport}
    (h : Superseding origin done report l moved) (chunks : List Chunk) :
    ∃ moved', Superseding origin (done ++ chunks) (chunks.foldl Loader.promote (report, l)).1
      (chunks.foldl Loader.promote (report, l)).2 moved' := by
  induction chunks generalizing done report l moved with
  | nil => exact ⟨moved, by simpa using h⟩
  | cons chunk chunks ih =>
    rw [List.foldl_cons, List.append_cons]
    exact ih h.promote

/-- A link that succeeds has moved what the pending modules replace, and has told every listener;
one that fails has changed nothing. -/
theorem link_moves (l : Loader) :
    Ensures link l
      (fun linking l' =>
        linking.told = l.listeners.map (fun listener => (listener, linking.report)) ∧
          ∃ moved, Superseding l l.pending linking.report l' moved)
      (fun _ l' => l' = l) := by
  rw [link, ensures_bind, ensures_get]
  cases l.unresolved? with
  | some i => rfl
  | none =>
    have hstart : Superseding l [] {} { l with pending := [] } [] :=
      ⟨by simp, rfl, by simp, rfl⟩
    obtain ⟨moved, hmoved⟩ := hstart.foldl l.pending
    exact ⟨congrArg (List.map _) hmoved.listeners, moved, hmoved⟩

/-! ### The ledger and the sets -/

/-- The ledger of a loader is in order. -/
structure Tallies (ledger : Ledger) (l : Loader) : Prop where
  /-- What identifies modules is not shared. -/
  consistent : l.Consistent
  /-- Numbers are given out one after the other. -/
  issued : ledger.issued = (List.range l.nextChunk).map ChunkId.mk
  /-- A number that was given out is in one of the sets or was reclaimed. -/
  perm : (l.pending.map Chunk.id ++ l.running.map Chunk.id ++ l.garbage.map Chunk.id ++
    ledger.reclaimed).Perm ledger.issued
  /-- The listeners are those that were registered. -/
  listeners : l.listeners = ledger.listeners

theorem Tallies.addLibrary (h : Tallies ledger l) (library : Library) :
    Tallies ledger ((Operation.addLibrary library).after l) := by
  obtain ⟨hpending, hrunning, hgarbage, hnext, hlisteners⟩ :
      SameSets l ((Operation.addLibrary library).after l) :=
    Operation.after_of_ensures (sameSets_addLibrary l library)
  refine ⟨h.consistent.after _, ?_, ?_, ?_⟩
  · rw [hnext, h.issued]
  · rw [hpending, hrunning, hgarbage]
    exact h.perm
  · rw [hlisteners, h.listeners]

theorem Tallies.addChunk (h : Tallies ledger l) (module : Prototype) :
    Tallies ((Operation.addChunk module).enter l ledger) ((Operation.addChunk module).after l) := by
  have hconsistent := h.consistent.after (.addChunk module)
  rw [Operation.after_eq (show (Operation.addChunk module).run = discard (Loader.addChunk module)
    from rfl)] at hconsistent ⊢
  rw [Operation.enter]
  cases hadd : Loader.addChunk module l with
  | error fault l' =>
    obtain rfl := (addChunk_spec l module).of_error hadd
    exact h
  | ok id l' =>
    rw [hadd] at hconsistent
    obtain ⟨rfl, rfl⟩ := (addChunk_spec l module).of_ok hadd
    refine ⟨hconsistent, ?_, ?_, h.listeners⟩
    · rw [List.range_succ, List.map_append, h.issued, List.map_singleton]
    · simp only [List.map_append, List.map_singleton, List.append_assoc, List.singleton_append]
      have hperm := h.perm
      simp only [List.append_assoc] at hperm
      exact List.perm_middle.trans ((hperm.cons _).trans (List.perm_append_singleton _ _).symm)

theorem Tallies.link (h : Tallies ledger l) :
    Tallies (Operation.link.enter l ledger) (Operation.link.after l) := by
  have hconsistent := h.consistent.after .link
  rw [Operation.after_eq (show Operation.link.run = discard Loader.link from rfl)] at hconsistent ⊢
  rw [Operation.enter]
  cases hlink : Loader.link l with
  | error fault l' =>
    obtain rfl := (link_moves l).of_error hlink
    exact h
  | ok linking l' =>
    rw [hlink] at hconsistent
    obtain ⟨-, hprogress⟩ := (link_spec h.consistent.names).of_ok hlink
    obtain ⟨-, moved, hmoved⟩ := (link_moves l).of_ok hlink
    refine ⟨hconsistent, ?_, ?_, hmoved.listeners.trans h.listeners⟩
    · rw [hprogress.nextChunk, h.issued]
    · -- Each number is counted: what runs or is garbage now was running or pending before.
      rw [hprogress.pending, hmoved.garbage, List.perm_iff_count]
      intro id
      have hbefore := h.perm.count_eq id
      have hmoves := (hmoved.perm.map Chunk.id).count_eq id
      simp only [List.map_append, List.map_nil, List.count_append, List.count_nil] at *
      omega

/-- Of replaced modules, those that are left and those that are gone are all there were. -/
theorem perm_left_gone (hnumbers : (l.garbage.map Chunk.id).Nodup) (outside : List Routine) :
    ((l.collectGarbage outside).2.garbage.map Chunk.id ++
      (l.garbage.map Chunk.id).filter fun id =>
        id ∉ (l.collectGarbage outside).2.garbage.map Chunk.id).Perm (l.garbage.map Chunk.id) := by
  have hsub : ((l.collectGarbage outside).2.garbage.map Chunk.id).Sublist
      (l.garbage.map Chunk.id) := List.filter_sublist.map _
  refine (List.perm_ext_iff_of_nodup ?_ hnumbers).2 fun id => ?_
  · refine (hnumbers.sublist hsub).append (hnumbers.sublist List.filter_sublist) ?_
    intro id hleft hgone
    simpa [hleft] using (List.mem_filter.1 hgone).2
  · rw [List.mem_append, List.mem_filter, decide_eq_true_eq]
    constructor
    · rintro (hleft | ⟨hin, -⟩)
      · exact hsub.mem hleft
      · exact hin
    · exact fun hin => or_iff_not_imp_left.2 fun hleft => ⟨hin, hleft⟩

theorem Tallies.collectGarbage (h : Tallies ledger l) (outside : List Routine) :
    Tallies ((Operation.collectGarbage outside).enter l ledger)
      ((Operation.collectGarbage outside).after l) := by
  have hnumbers : (l.garbage.map Chunk.id).Nodup :=
    h.consistent.numbers.sublist ((List.sublist_append_right _ _).map _)
  refine ⟨h.consistent.after _, h.issued, ?_, h.listeners⟩
  rw [List.perm_iff_count]
  intro id
  have hbefore := h.perm.count_eq id
  have hsplit := (perm_left_gone hnumbers outside).count_eq id
  show List.count id (l.pending.map Chunk.id ++ l.running.map Chunk.id ++
    (l.collectGarbage outside).2.garbage.map Chunk.id ++ (ledger.reclaimed ++ _)) =
      List.count id ledger.issued
  simp only [List.count_append] at *
  omega

/-- The ledger of a loader is in order, whatever has happened. -/
theorem tallies_of_recorded (h : Recorded ledger l) : Tallies ledger l := by
  induction h with
  | empty => exact ⟨consistent_of_reached .empty, rfl, .nil, rfl⟩
  | next op _ ih =>
    cases op with
    | addLibrary library => exact ih.addLibrary library
    | addChunk module => exact ih.addChunk module
    | link => exact ih.link
    | collectGarbage outside => exact ih.collectGarbage outside
  | listen listener _ ih =>
    obtain ⟨⟨hnumbers, hfresh, hnames⟩, hissued, hperm, hlisteners⟩ := ih
    exact ⟨⟨hnumbers, hfresh, hnames⟩, hissued, hperm, congrArg (· ++ [listener]) hlisteners⟩

/-- Whatever has happened to a loader, every number that was given out is the number of one module
in one of the sets, or was reclaimed, and no two modules of one name run. A link that fails changes
nothing and tells nobody. One that succeeds makes the pending modules run, of each name the last;
what they replace goes behind the garbage and is reported; and every listener is told, in the order
of registration. -/
theorem sets_of_recorded (h : Recorded ledger l) :
    ledger.issued.Nodup ∧
    (l.pending.map Chunk.id ++ l.running.map Chunk.id ++ l.garbage.map Chunk.id ++
      ledger.reclaimed).Perm ledger.issued ∧
    (l.running.map Chunk.name).Nodup ∧
    (∀ fault l', link l = .error fault l' → l' = l ∧ Operation.link.enter l ledger = ledger) ∧
    ∀ linking l', link l = .ok linking l' →
      l'.pending = [] ∧
      linking.report.linked = l.pending.map Chunk.id ∧
      (∃ moved, l'.garbage = l.garbage ++ moved ∧
        linking.report.superseded = moved.map Chunk.id ∧
        (l'.running ++ moved).Perm (l.running ++ l.pending)) ∧
      (∀ name, newest l'.running name = newest (l.running ++ l.pending) name) ∧
      (Operation.link.enter l ledger).told = ledger.told ++
        ledger.listeners.map fun listener => (listener, linking.report) := by
  obtain ⟨hconsistent, hissued, hperm, hlisteners⟩ := tallies_of_recorded h
  -- Numbers are given in turn, so none is given twice.
  have hnodup : ledger.issued.Nodup := by
    rw [hissued]
    exact List.nodup_range.map fun m n hmn => congrArg ChunkId.number hmn
  refine ⟨hnodup, hperm, hconsistent.names, fun fault l' hlink => ?_, fun linking l' hlink => ?_⟩
  · exact ⟨(link_moves l).of_error hlink, by rw [Operation.enter, hlink]⟩
  · obtain ⟨-, hprogress⟩ := (link_spec hconsistent.names).of_ok hlink
    obtain ⟨htold, moved, hmoved⟩ := (link_moves l).of_ok hlink
    refine ⟨hprogress.pending, hprogress.linked,
      ⟨moved, hmoved.garbage, hmoved.superseded, hmoved.perm⟩, hprogress.newest, ?_⟩
    simp only [Operation.enter, hlink, htold, hlisteners]

/-- What happens to a loader and its ledger, one operation after the other. -/
def Operation.both (state : Ledger × Loader) (op : Operation) : Ledger × Loader :=
  (op.enter state.2 state.1, op.after state.2)

/-- A listener and, in this order, the modules `m`, `x` and a second `m`, all of them pending. -/
def doubled : Ledger × Loader :=
  [.addChunk (moduleOf "m" ["f"] #[]), .addChunk (moduleOf "x" ["g"] #[⟨"m", "h"⟩]),
    .addChunk (moduleOf "m" ["h"] #[])].foldl Operation.both
      ({ listeners := [.numbered 0] }, Loader.empty.addListener (.numbered 0))

theorem Recorded.foldl {state : Ledger × Loader} (h : Recorded state.1 state.2)
    (ops : List Operation) :
    Recorded (ops.foldl Operation.both state).1 (ops.foldl Operation.both state).2 := by
  induction ops generalizing state with
  | nil => exact h
  | cons op ops ih => exact ih (.next op h)

/-- The second `m` supersedes the first within one link, and the listener is told of it. -/
theorem sets_doubled : ∃ linking l', link doubled.2 = .ok linking l' ∧
    linking.report.superseded = [⟨0⟩] ∧
    (∃ moved, l'.garbage = doubled.2.garbage ++ moved ∧
      linking.report.superseded = moved.map Chunk.id ∧
      (l'.running ++ moved).Perm (doubled.2.running ++ doubled.2.pending)) ∧
    (Operation.link.enter doubled.2 doubled.1).told =
      [(.numbered 0, { linked := [⟨0⟩, ⟨1⟩, ⟨2⟩], superseded := [⟨0⟩] })] := by
  have hrecorded : Recorded doubled.1 doubled.2 :=
    Recorded.foldl (.listen (.numbered 0) .empty) _
  obtain ⟨-, -, -, -, hlink⟩ := sets_of_recorded hrecorded
  refine ⟨_, _, rfl, rfl, ?_⟩
  obtain ⟨-, -, hmoved, -, htold⟩ := hlink _ _ rfl
  exact ⟨hmoved, htold⟩

end ActorMachine.Loader
