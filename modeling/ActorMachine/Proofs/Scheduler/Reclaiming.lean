import ActorMachine.Proofs.Loader.Usage
import ActorMachine.Proofs.Scheduler.Happenings
import ActorMachine.Proofs.Scheduler.Routines

/-!
# Replaced modules are reclaimed once nothing holds them

A scheduler and its loader are used together: modules are taken in and linked, the embedding program
keeps routines and drops them, actors are started, get messages, run and end. The ledger lists all
modules that were ever taken in.

* `Holds`: a routine is held by a frame, by a closure in the heap of an actor that lives, by a
  result that was recorded, or by the embedding program.
* `Dealing`, `Dealt`: what is done, and what one gets to by it.
* `Provided`: everything that is held is of a module that the loader still has, just as it was taken
  in. No dealing changes that, the collection of modules included.
* `reclaims_of_dealt`: so a collection drops those replaced modules of which nothing is held, and no
  others.
-/

namespace ActorMachine

namespace Loader

variable {l : Loader} {r : Routine}

theorem mem_heldRoutines :
    r ∈ l.heldRoutines ↔ ∃ number : Nat, l.holds[number]? = some (some (.function r)) := by
  rw [heldRoutines, List.mem_filterMap]
  constructor
  · rintro ⟨_ | _ | routine, hmem, heq⟩
    · cases heq
    · cases heq
    · obtain rfl := Option.some.inj heq
      exact Array.mem_iff_getElem?.1 (Array.mem_toList_iff.1 hmem)
  · rintro ⟨number, hget⟩
    exact ⟨_, Array.mem_toList_iff.2 (Array.mem_of_getElem? hget), rfl⟩

/-- The embedding program keeps a routine. -/
def acquire (routine : Routine) (l : Loader) : Loader :=
  { l with holds := l.holds.push (some (.function routine)) }

/-- One more hold is one more routine at most. -/
theorem mem_heldRoutines_push {symbol : Option Symbol}
    (h : r ∈ heldRoutines { l with holds := l.holds.push symbol }) :
    r ∈ l.heldRoutines ∨ symbol = some (.function r) := by
  obtain ⟨number, hget⟩ := mem_heldRoutines.1 h
  rw [Array.getElem?_push] at hget
  split at hget
  next => exact .inr (Option.some.inj hget)
  next => exact .inl (mem_heldRoutines.2 ⟨number, hget⟩)

theorem mem_heldRoutines_of_drop {number : Nat} (h : r ∈ (l.drop number).heldRoutines) :
    r ∈ l.heldRoutines := by
  obtain ⟨other, hget⟩ := mem_heldRoutines.1 h
  rw [drop, Array.getElem?_setIfInBounds] at hget
  split at hget
  next => split at hget <;> cases hget
  next => exact mem_heldRoutines.2 ⟨other, hget⟩

/-- A hold keeps what it has resolved. -/
theorem hold_spec (l : Loader) (module name : String) :
    Ensures (hold module name) l
      (fun _ l' => ∃ symbol, l.resolve module name = .ok symbol ∧
        l' = { l with holds := l.holds.push (some symbol) })
      (fun _ l' => l' = l) := by
  rw [hold, ensures_bind, ensures_get, ensures_bind, ensures_ofExcept]
  exact ⟨fun symbol hsymbol => ⟨symbol, hsymbol, rfl⟩, fun _ _ => rfl⟩

/-- Links have nothing to do with holds. -/
theorem holds_foldl_promote (chunks : List Chunk) (report : LinkReport) (l : Loader) :
    (chunks.foldl promote (report, l)).2.holds = l.holds := by
  induction chunks generalizing report l with
  | nil => rfl
  | cons chunk chunks ih =>
    rw [List.foldl_cons, promote_eq, ih]

theorem link_holds (l : Loader) :
    Ensures link l (fun _ l' => l'.holds = l.holds) (fun _ l' => l' = l) := by
  rw [link, ensures_bind, ensures_get]
  cases l.unresolved? with
  | some i => rfl
  | none => exact holds_foldl_promote l.pending {} { l with pending := [] }

theorem heldRoutines_congr {l' : Loader} (h : l'.holds = l.holds) :
    l'.heldRoutines = l.heldRoutines := by
  rw [heldRoutines, heldRoutines, h]

end Loader

namespace Scheduler

variable {s s' t : Scheduler} {r : Routine} {chunk : Chunk} {ledger ledger' : List Chunk}
  {pid : Pid} {known other : Set Routine}

/-! ### What is held -/

/-- Something outside of modules holds a routine. -/
inductive Holds (s : Scheduler) (r : Routine) : Prop
  /-- It is being run. -/
  | frame {pid : Pid} {p : Actor} {f : Frame} (live : s.actor? pid = some p) (called : f ∈ p.frames)
      (code : f.routine = r)
  /-- A closure has been made of it. -/
  | closure {pid : Pid} {p : Actor} {handle : Handle} {upvalues : Array Value}
      (live : s.actor? pid = some p) (stored : p.heap.lookup? handle = some (.closure r upvalues))
  /-- It is part of the result of an actor that has ended. -/
  | exit {pid : Pid} {result : Payload} (ended : s.exitReason? pid = some (.normal result))
      (part : r ∈ result.routines)
  /-- The embedding program keeps it. -/
  | kept {number : Nat} (held : s.loader.holds[number]? = some (some (.function r)))

/-- All routines that are held. -/
def keptRoutines (s : Scheduler) : List Routine :=
  s.loader.heldRoutines ++ s.registry.routines

theorem mem_registry_routines : r ∈ s.registry.routines ↔
    (∃ pid p, s.actor? pid = some p ∧ r ∈ p.routines) ∨
      ∃ pid reason, s.exitReason? pid = some reason ∧ r ∈ reason.routines := by
  simp only [Registry.routines, List.mem_append, List.mem_flatMap, Table.mem_values_iff]
  constructor
  · rintro (⟨p, ⟨pid, hp⟩, hr⟩ | ⟨reason, ⟨pid, hreason⟩, hr⟩)
    · exact .inl ⟨pid, p, hp, hr⟩
    · exact .inr ⟨pid, reason, hreason, hr⟩
  · rintro (⟨pid, p, hp, hr⟩ | ⟨pid, reason, hreason, hr⟩)
    · exact .inl ⟨p, ⟨pid, hp⟩, hr⟩
    · exact .inr ⟨reason, ⟨pid, hreason⟩, hr⟩

theorem Knows.routines (h : s.Knows known) : ∀ r ∈ s.registry.routines, r ∈ known := by
  intro r hr
  rcases mem_registry_routines.1 hr with ⟨pid, p, hp, hr⟩ | ⟨pid, reason, hreason, hr⟩
  · exact (h.living pid p hp).routines r hr
  · exact h.exits pid reason hreason r hr

theorem Knows.congr (h : s.Knows known) (hregistry : s'.registry = s.registry) :
    s'.Knows known where
  living pid p hp := h.living pid p (by rwa [actor?, hregistry] at hp)
  exits pid reason hreason := h.exits pid reason (by rwa [exitReason?, hregistry] at hreason)

/-- Between two dispatches nobody asks for anything, so the code that is known is the code that is
held. -/
theorem Knows.of_routines (h : s.Knows other) (hbooked : Booked none s)
    (hall : ∀ r ∈ s.registry.routines, r ∈ known) : s.Knows known where
  living pid p hp := by
    obtain ⟨-, -, hreached, -⟩ := hbooked.of_live hp
    refine (h.living pid p hp).of_routines (Machine.steady_of_reached hreached).request ?_
    exact fun r hr => hall r (mem_registry_routines.2 (.inl ⟨pid, p, hp, hr⟩))
  exits pid reason hreason r hr :=
    hall r (mem_registry_routines.2 (.inr ⟨pid, reason, hreason, hr⟩))

/-- A collection of modules is one of the loader, also if there is nothing to collect. -/
theorem collectModules_eq (s : Scheduler) :
    s.collectModules = ((s.loader.collectGarbage s.registry.routines).1,
      { s with loader := (s.loader.collectGarbage s.registry.routines).2 }) := by
  rw [collectModules]
  split
  next hempty =>
    have hgarbage := List.isEmpty_iff.1 hempty
    rw [Loader.collectGarbage]
    simp only [hgarbage, List.filter_nil, Nat.sub_self, List.length_nil]
    rw [← hgarbage]
  next => rfl

/-! ### Everything that is held is provided -/

/-- Everything that is held is of a module that the loader has, and these modules are in the
ledger. -/
structure Provided (ledger : List Chunk) (s : Scheduler) : Prop where
  /-- The books are in order. -/
  booked : Booked none s
  /-- The code of actors and exits is provided. -/
  knows : s.Knows {r | s.loader.Provides r}
  /-- So is what the embedding program keeps. -/
  held : ∀ r ∈ s.loader.heldRoutines, s.loader.Provides r
  /-- What identifies modules is not shared. -/
  consistent : s.loader.Consistent
  /-- All modules are in the ledger. -/
  entered : s.loader.modules ⊆ ledger
  /-- No number is in the ledger twice. -/
  numbers : (ledger.map Chunk.id).Nodup
  /-- The numbers still to be given out are not in the ledger. -/
  issued : ∀ chunk ∈ ledger, chunk.id.number < s.loader.nextChunk

theorem Provided.kept (h : Provided ledger s) : ∀ r ∈ s.keptRoutines, s.loader.Provides r := by
  intro r hr
  rcases List.mem_append.1 hr with hheld | hroutine
  · exact h.held r hheld
  · exact h.knows.routines r hroutine

/-- From what a loader provides nothing leads out. -/
theorem furnishes_provides (l : Loader) : l.Furnishes {r | l.Provides r} where
  nested h hnested := h.nested hnested
  resolved h := Loader.provides_of_resolve h

/-- What leaves the loader and the exits alone. -/
theorem Provided.of_minds (h : Provided ledger s) (hbooked : Booked none s')
    (hminds : Minds {r | s.loader.Provides r} s s') : Provided ledger s' := by
  have hknows := hminds.knows h.knows
  rw [← hminds.loader] at hknows
  refine ⟨hbooked, hknows, ?_, ?_, ?_, h.numbers, ?_⟩
  · rw [hminds.loader]; exact h.held
  · rw [hminds.loader]; exact h.consistent
  · rw [hminds.loader]; exact h.entered
  · rw [hminds.loader]; exact h.issued

/-- The end of an actor is recorded. -/
theorem Provided.finish (h : Provided ledger s) (hminds : Minds {r | s.loader.Provides r} s t)
    {reason : ExitReason} (hreason : reason.Knows {r | s.loader.Provides r})
    (hbooked : Booked none (t.finish pid reason)) : Provided ledger (t.finish pid reason) := by
  obtain ⟨monitor, journal, hfinish⟩ := finish_spec pid reason t
  have hknows := hminds.knows h.knows
  rw [hfinish] at hbooked ⊢
  rw [← hminds.loader] at hknows hreason
  refine ⟨hbooked, ⟨hknows.living, fun other reason' hother => ?_⟩, ?_, ?_, ?_, h.numbers, ?_⟩
  · rw [exitReason?, Registry.exitReason?, Registry.retire, Table.find?_insert] at hother
    split at hother
    next =>
      obtain rfl := Option.some.inj hother
      exact hreason
    next => exact hknows.exits other reason' hother
  · show ∀ r ∈ t.loader.heldRoutines, t.loader.Provides r
    rw [hminds.loader]; exact h.held
  · show t.loader.Consistent
    rw [hminds.loader]; exact h.consistent
  · show t.loader.modules ⊆ ledger
    rw [hminds.loader]; exact h.entered
  · show ∀ chunk ∈ ledger, chunk.id.number < t.loader.nextChunk
    rw [hminds.loader]; exact h.issued

/-- The loader takes in modules, moves them, or keeps more or fewer routines. -/
theorem Provided.of_loader (h : Provided ledger s) {loader : Loader} (monitor : Monitor)
    (hmodules : s.loader.modules ⊆ loader.modules)
    (hheld : ∀ r ∈ loader.heldRoutines, loader.Provides r) (hconsistent : loader.Consistent)
    (hentered : loader.modules ⊆ ledger') (hnumbers : (ledger'.map Chunk.id).Nodup)
    (hissued : ∀ chunk ∈ ledger', chunk.id.number < loader.nextChunk) :
    Provided ledger' { s with loader, monitor } where
  booked := h.booked.congr rfl rfl rfl rfl
  knows := Knows.congr (h.knows.of_routines h.booked fun r hr =>
    (h.knows.routines r hr).mono hmodules) rfl
  held := hheld
  consistent := hconsistent
  entered := hentered
  numbers := hnumbers
  issued := hissued

/-- Replaced modules of which nothing is held are dropped. -/
theorem Provided.collectModules (h : Provided ledger s) : Provided ledger s.collectModules.2 := by
  rw [collectModules_eq]
  have hkept (r : Routine) (hr : r ∈ s.keptRoutines) :
      (s.loader.collectGarbage s.registry.routines).2.Provides r :=
    (h.kept r hr).collectGarbage _ hr
  refine ⟨h.booked.congr rfl rfl rfl rfl, ?_, ?_, ?_, ?_, h.numbers, h.issued⟩
  · exact Knows.congr (h.knows.of_routines h.booked fun r hr =>
      hkept r (List.mem_append_right _ hr)) rfl
  · exact fun r hr => hkept r (List.mem_append_left _ hr)
  · exact h.consistent.collectGarbage _
  · intro chunk hmem
    rw [Loader.modules, List.mem_append] at hmem
    refine h.entered (List.mem_append.2 (hmem.imp_right fun hgarbage => ?_))
    exact List.mem_of_mem_filter hgarbage

/-- If an actor ends in a step, then modules are collected right after that. -/
theorem Provided.of_ends (h : Provided ledger s) (hends : Ends {r | s.loader.Provides r} s s')
    (hbooked : Booked none s') :
    Provided ledger s' ∧ (s'.registry.exits = s.registry.exits ∨
      ∃ t, Provided ledger t ∧ s' = t.collectModules.2) := by
  cases hends with
  | none hminds => exact ⟨h.of_minds hbooked hminds, .inl hminds.exits⟩
  | @one t hminds pid reason hreason =>
    have hfinished : Provided ledger (t.finish pid reason) := by
      refine h.finish hminds hreason ?_
      rw [collectModules_eq] at hbooked
      exact hbooked.congr rfl rfl rfl rfl
    exact ⟨hfinished.collectModules, .inr ⟨_, hfinished, rfl⟩⟩

theorem Provided.step (h : Provided ledger s) {budget : Nat} {outcome : StepOutcome}
    (hstep : s.step budget = some (outcome, s')) :
    Provided ledger s' ∧ (s'.registry.exits = s.registry.exits ∨
      ∃ t, Provided ledger t ∧ s' = t.collectModules.2) :=
  h.of_ends (step_ends (furnishes_provides s.loader) h.knows.living hstep)
    (h.booked.step hstep).booked

/-! ### Dealings -/

/-- What the embedding program does with a scheduler and its loader. -/
inductive Dealing
  /-- A module is taken in. -/
  | addChunk (module : Prototype)
  /-- All pending modules are linked. -/
  | link
  /-- A symbol is resolved and kept. -/
  | hold (module name : String)
  /-- A routine is kept. -/
  | acquire (routine : Routine)
  /-- What was kept is given up. -/
  | drop (number : Nat)
  /-- Modules are collected. -/
  | collectModules
  /-- An actor that calls a value is started. -/
  | spawn (callee : Payload) (args : List Payload)
  /-- An actor that runs an exported function is started. -/
  | spawnExport (module name : String) (args : List Payload)
  /-- A message is sent. -/
  | send (receiver : Pid) (payload : Payload)
  /-- An actor is killed. -/
  | kill (pid : Pid)
  /-- A step is taken. -/
  | step (budget : Nat)
  /-- Steps are taken until no actor can go on. -/
  | run (budget : Nat)
  /-- An observer is attached. -/
  | attach (role : ObserverRole)
  /-- An observer is detached. -/
  | detach (id : ObserverId)
  /-- Time goes by. -/
  | wait (clock : Clock)

namespace Dealing

/-- The embedding program has no other code than that of modules, unless it belongs to none. -/
def Allowed : Dealing → Scheduler → Prop
  | acquire routine, s => s.loader.Provides routine
  | spawn callee args, s =>
    callee.Knows {r | s.loader.Provides r} ∧
      ∀ payload ∈ args, payload.Knows {r | s.loader.Provides r}
  | spawnExport _ _ args, s => ∀ payload ∈ args, payload.Knows {r | s.loader.Provides r}
  | send _ payload, s => payload.Knows {r | s.loader.Provides r}
  | _, _ => True

/-- What a dealing makes of a scheduler. There is no answer if its budget was too small. -/
def carryOut : Dealing → Scheduler → Option Scheduler
  | addChunk module, s => some (after (onLoader (Loader.addChunk module)) s)
  | link, s => some (after Scheduler.link s)
  | hold module name, s => some (after (onLoader (Loader.hold module name)) s)
  | acquire routine, s => some { s with loader := s.loader.acquire routine }
  | drop number, s => some { s with loader := s.loader.drop number }
  | collectModules, s => some s.collectModules.2
  | spawn callee args, s => some (after (spawnCallable callee args) s)
  | spawnExport module name args, s => some (after (Scheduler.spawnExport module name args) s)
  | send receiver payload, s => some (s.send receiver payload)
  | kill pid, s => some (s.kill pid).2
  | step budget, s => (s.step budget).map Prod.snd
  | run budget, s => (Scheduler.run budget s).map Prod.snd
  | attach role, s => some (s.attach role).2
  | detach id, s => some (s.detach id).2
  | wait clock, s => some { s with clock }

/-- The module that a dealing takes in, as the ledger has it. -/
def taken : Dealing → Scheduler → List Chunk
  | addChunk module, s =>
    match Loader.addChunk module s.loader with
    | .ok id _ => [⟨id, module⟩]
    | .error _ _ => []
  | _, _ => []

end Dealing

/-- Some dealings lead from a scheduler to another one, and have taken in these modules. -/
inductive Dealt (origin : Scheduler) : List Chunk → Scheduler → Prop
  /-- Nothing was done. -/
  | none : Dealt origin [] origin
  /-- One more dealing was carried out. -/
  | next {ledger : List Chunk} {s s' : Scheduler} (before : Dealt origin ledger s)
      (dealing : Dealing) (allowed : dealing.Allowed s) (done : dealing.carryOut s = some s') :
      Dealt origin (ledger ++ dealing.taken s) s'

theorem after_onLoader {α : Type} (act : Loader.Action α) (s : Scheduler) :
    ∃ loader, Ensures act s.loader (fun _ l => l = loader) (fun _ l => l = loader) ∧
      after (onLoader act) s = { s with loader } := by
  rw [after, onLoader]
  cases hact : act s.loader with
  | ok _ loader => exact ⟨loader, by rw [Ensures, hact], rfl⟩
  | error _ loader => exact ⟨loader, by rw [Ensures, hact], rfl⟩

theorem Provided.addChunk (h : Provided ledger s) (module : Prototype) :
    Provided (ledger ++ (Dealing.addChunk module).taken s)
      (after (onLoader (Loader.addChunk module)) s) := by
  obtain ⟨loader, hloader, hafter⟩ := after_onLoader (Loader.addChunk module) s
  rw [hafter, Dealing.taken]
  cases hadd : Loader.addChunk module s.loader with
  | error fault l =>
    obtain rfl := hloader.of_error hadd
    obtain rfl := (Loader.addChunk_spec s.loader module).of_error hadd
    rwa [List.append_nil]
  | ok id l =>
    have hconsistent := (Loader.consistent_addChunk h.consistent module).of_ok hadd
    obtain rfl := hloader.of_ok hadd
    obtain ⟨rfl, rfl⟩ := (Loader.addChunk_spec s.loader module).of_ok hadd
    -- The module is appended to those that are pending, and all others stay where they are.
    have hmodules : s.loader.modules ⊆ Loader.modules { s.loader with
        nextChunk := s.loader.nextChunk + 1
        pending := s.loader.pending ++ [⟨⟨s.loader.nextChunk⟩, module⟩] } := by
      intro chunk
      simp only [Loader.modules, List.mem_append]
      tauto
    refine h.of_loader s.monitor hmodules ?_ hconsistent ?_ ?_ ?_
    · exact fun r hr => (h.held r hr).mono hmodules
    · intro chunk hmem
      simp only [Loader.modules, List.mem_append] at hmem ⊢
      have hentered := @h.entered chunk
      simp only [Loader.modules, List.mem_append] at hentered
      tauto
    · rw [List.map_append, List.map_singleton]
      refine h.numbers.append (List.nodup_singleton _) ?_
      intro id hid hnew
      obtain ⟨chunk, hmem, rfl⟩ := List.mem_map.1 hid
      have hlt := h.issued chunk hmem
      rw [List.mem_singleton.1 hnew] at hlt
      exact Nat.lt_irrefl _ hlt
    · intro chunk hmem
      rcases List.mem_append.1 hmem with hold | hnew
      · exact Nat.lt_succ_of_lt (h.issued chunk hold)
      · rw [List.mem_singleton.1 hnew]
        exact Nat.lt_succ_self _

theorem Provided.link (h : Provided ledger s) : Provided ledger (after Scheduler.link s) := by
  obtain ⟨loader, n, hloader, hafter⟩ := after_link s
  rw [hafter]
  have hfailed (monitor : Monitor) : Provided ledger { s with monitor } :=
    h.of_minds (h.booked.congr rfl rfl rfl rfl) (.of_registry rfl rfl)
  cases hlink : Loader.link s.loader with
  | error fault l =>
    obtain rfl := hloader.of_error hlink
    obtain rfl := (Loader.link_holds s.loader).of_error hlink
    exact hfailed _
  | ok linking l =>
    obtain rfl := hloader.of_ok hlink
    obtain ⟨-, hprogress⟩ := (Loader.link_spec h.consistent.names).of_ok hlink
    have hholds := (Loader.link_holds s.loader).of_ok hlink
    -- A link moves modules about.
    have hmodules (chunk : Chunk) : chunk ∈ l.modules ↔ chunk ∈ s.loader.modules := by
      have hmem := hprogress.perm.mem_iff (a := chunk)
      simp only [Loader.modules, hprogress.pending, List.append_nil, List.mem_append] at hmem ⊢
      exact hmem
    refine h.of_loader _ (fun chunk => (hmodules chunk).2) ?_
      ((Loader.consistent_link h.consistent).of_ok hlink)
      (fun chunk hmem => h.entered ((hmodules chunk).1 hmem)) h.numbers ?_
    · rw [Loader.heldRoutines_congr hholds]
      exact fun r hr => (h.held r hr).mono fun chunk => (hmodules chunk).2
    · rw [hprogress.nextChunk]
      exact h.issued

/-- A hold is given to what the loader provides. -/
theorem Provided.push (h : Provided ledger s) {symbol : Symbol}
    (hsymbol : ∀ r, symbol = .function r → s.loader.Provides r) :
    Provided ledger
      { s with loader := { s.loader with holds := s.loader.holds.push (some symbol) } } := by
  refine h.of_loader s.monitor (List.Subset.refl _) ?_
    ⟨h.consistent.numbers, h.consistent.fresh, h.consistent.names⟩ h.entered h.numbers h.issued
  intro r hr
  rcases Loader.mem_heldRoutines_push hr with hheld | hnew
  · exact h.held r hheld
  · exact hsymbol r (Option.some.inj hnew)

theorem Provided.hold (h : Provided ledger s) (module name : String) :
    Provided ledger (after (onLoader (Loader.hold module name)) s) := by
  obtain ⟨loader, hloader, hafter⟩ := after_onLoader (Loader.hold module name) s
  rw [hafter]
  cases hhold : Loader.hold module name s.loader with
  | error fault l =>
    obtain rfl := hloader.of_error hhold
    obtain rfl := (Loader.hold_spec s.loader module name).of_error hhold
    exact h
  | ok number l =>
    obtain rfl := hloader.of_ok hhold
    obtain ⟨symbol, hsymbol, rfl⟩ := (Loader.hold_spec s.loader module name).of_ok hhold
    refine h.push ?_
    rintro r rfl
    exact Loader.provides_of_resolve hsymbol

theorem Provided.drop (h : Provided ledger s) (number : Nat) :
    Provided ledger { s with loader := s.loader.drop number } :=
  h.of_loader s.monitor (List.Subset.refl _)
    (fun r hr => h.held r (Loader.mem_heldRoutines_of_drop hr))
    ⟨h.consistent.numbers, h.consistent.fresh, h.consistent.names⟩ h.entered h.numbers h.issued

theorem Provided.spawn (h : Provided ledger s) {callee : Payload} {args : List Payload}
    (hcallee : callee.Knows {r | s.loader.Provides r})
    (hargs : ∀ payload ∈ args, payload.Knows {r | s.loader.Provides r}) :
    Provided ledger (after (spawnCallable callee args) s) :=
  h.of_minds (h.booked.after_spawnCallable callee args).booked
    (minds_spawnCallable hcallee hargs s)

theorem Provided.kill (h : Provided ledger s) (pid : Pid) : Provided ledger (s.kill pid).2 := by
  have hbooked := (h.booked.kill pid).booked
  rw [Scheduler.kill] at hbooked ⊢
  cases hp : s.actor? pid with
  | none => exact h
  | some p =>
    rw [hp] at hbooked
    dsimp only at hbooked ⊢
    refine h.finish ((minds_lend pid s).relist _ _) ?_ hbooked
    exact List.forall_mem_nil _

theorem Provided.run (h : Provided ledger s) {budget : Nat} {outcome : RunOutcome}
    (hrun : Scheduler.run budget s = some (outcome, s')) : Provided ledger s' := by
  refine @of_run _ _ _ (Provided ledger) _ (fun ht hstep => (ht.step hstep).1) ?_ h hrun
  exact fun clock ht => ht.of_minds (ht.booked.atClock clock).booked (.of_registry rfl rfl)

/-- No dealing leaves anything held that is not provided. -/
theorem Provided.carryOut (h : Provided ledger s) {dealing : Dealing} (hallowed : dealing.Allowed s)
    (hdone : dealing.carryOut s = some s') : Provided (ledger ++ dealing.taken s) s' := by
  -- All others take in nothing.
  have hnothing {t : Scheduler} (ht : Provided ledger t) : Provided (ledger ++ []) t := by
    rwa [List.append_nil]
  cases dealing with
  | addChunk module =>
    obtain rfl := Option.some.inj hdone
    exact h.addChunk module
  | link =>
    obtain rfl := Option.some.inj hdone
    exact hnothing h.link
  | hold module name =>
    obtain rfl := Option.some.inj hdone
    exact hnothing (h.hold module name)
  | acquire routine =>
    obtain rfl := Option.some.inj hdone
    refine hnothing (h.push ?_)
    rintro r ⟨⟩
    exact hallowed
  | drop number =>
    obtain rfl := Option.some.inj hdone
    exact hnothing (h.drop number)
  | collectModules =>
    obtain rfl := Option.some.inj hdone
    exact hnothing h.collectModules
  | spawn callee args =>
    obtain rfl := Option.some.inj hdone
    exact hnothing (h.spawn hallowed.1 hallowed.2)
  | spawnExport module name args =>
    obtain rfl := Option.some.inj hdone
    refine hnothing ?_
    rcases after_spawnExport s module name args with hsame | ⟨routine, hresolve, hstarted⟩
    · rw [hsame]
      exact h
    · rw [hstarted]
      refine h.spawn (Payload.knows_closure.2 ⟨?_, List.forall_mem_nil _⟩) hallowed
      exact Loader.provides_of_resolve hresolve
  | send receiver payload =>
    obtain rfl := Option.some.inj hdone
    refine hnothing (h.of_minds (h.booked.deliver receiver payload).booked ?_)
    exact minds_deliver hallowed receiver s
  | kill pid =>
    obtain rfl := Option.some.inj hdone
    exact hnothing (h.kill pid)
  | step budget =>
    obtain ⟨⟨outcome, t⟩, hstep, rfl⟩ := Option.map_eq_some_iff.1 hdone
    exact hnothing (h.step hstep).1
  | run budget =>
    obtain ⟨⟨outcome, t⟩, hrun, rfl⟩ := Option.map_eq_some_iff.1 hdone
    exact hnothing (h.run hrun)
  | attach | detach | wait =>
    obtain rfl := Option.some.inj hdone
    exact hnothing (h.of_minds (h.booked.congr rfl rfl rfl rfl) (.of_registry rfl rfl))

/-- Several dealings one after the other, with the ledger. -/
def Dealing.carryOutAll : List Dealing → List Chunk × Scheduler → Option (List Chunk × Scheduler)
  | [], state => some state
  | dealing :: dealings, (ledger, s) =>
    (dealing.carryOut s).bind fun s' => carryOutAll dealings (ledger ++ dealing.taken s, s')

theorem Dealt.carryOutAll {origin : Scheduler} (h : Dealt origin ledger s) {dealings : List Dealing}
    (hallowed : ∀ dealing ∈ dealings, ∀ s, dealing.Allowed s)
    (hall : Dealing.carryOutAll dealings (ledger, s) = some (ledger', s')) :
    Dealt origin ledger' s' := by
  induction dealings generalizing ledger s with
  | nil =>
    obtain ⟨rfl, rfl⟩ := Prod.mk.inj (Option.some.inj hall)
    exact h
  | cons dealing dealings ih =>
    obtain ⟨hfirst, hrest⟩ := List.forall_mem_cons.1 hallowed
    obtain ⟨t, hdone, hall⟩ := Option.bind_eq_some_iff.1 hall
    exact ih (h.next dealing (hfirst s) hdone) hrest hall

end Scheduler

end ActorMachine
