import ActorMachine.Proofs.Scheduler.Reclaiming
import ActorMachine.Proofs.Scheduler.Reports

/-!
# Breakpoints do nothing but report

Whatever the embedding program does with a scheduler, it could clear breakpoints in the code that it
hands over. It gets the same replies, and the same instructions are executed in the same states.
Only the observers are told of fewer breakpoints.

* `Errand`, `Reply`, `Errand.perform`: what the embedding program does, and what it is answered.
* `Performance`, `performAll`: errands one after the other, each with the scheduler before.
* `Performance.Cleared`: the second is the first with some breakpoints cleared.
* `Reported`: every breakpoint that is executed is reported once.
* `breakpoints_only_report`: both, for all errands.
-/

namespace ActorMachine.Scheduler

variable {s s' t : Scheduler} {events : List Event}

/-! ### Errands -/

/-- What the embedding program is answered. -/
inductive Reply
  /-- There is nothing to say. -/
  | done
  /-- It has failed. -/
  | failed (fault : Fault)
  /-- The number of a module that was taken in. -/
  | chunk (id : ChunkId)
  /-- What was linked. -/
  | linked (report : LinkReport)
  /-- The number of a hold. -/
  | held (number : Nat)
  /-- How many modules were collected. -/
  | collected (count : Nat)
  /-- The pid of an actor that was started. -/
  | started (pid : Pid)
  /-- Whether there was such an actor. -/
  | killed (known : Bool)
  /-- What has become of a step. -/
  | stepped (outcome : StepOutcome)
  /-- Why a run has stopped. -/
  | ran (outcome : RunOutcome)
  /-- The number of an observer that was attached. -/
  | attached (id : ObserverId)
  /-- Whether there was such an observer. -/
  | detached (known : Bool)
  /-- What logging observers were told. -/
  | journal (entries : List (ObserverId × Event))
  /-- What the monitor has counted. -/
  | counters (counters : Counters)

/-- The part of the journal that a reply hands over. -/
def Reply.entries : Reply → List (ObserverId × Event)
  | journal entries => entries
  | _ => []

/-- The reply to an action, which may fail. -/
def replyOf {α : Type} (reply : α → Reply) (act : Action α) (s : Scheduler) : Reply :=
  match act s with
  | .ok a _ => reply a
  | .error fault _ => .failed fault

/-- The reply to a dealing. There is none if its budget was too small. -/
def Dealing.reply? : Dealing → Scheduler → Option Reply
  | addChunk module, s => some (replyOf .chunk (onLoader (Loader.addChunk module)) s)
  | link, s => some (replyOf .linked Scheduler.link s)
  | hold module name, s => some (replyOf .held (onLoader (Loader.hold module name)) s)
  | acquire _, s => some (.held s.loader.holds.size)
  | collectModules, s => some (.collected s.collectModules.1)
  | spawn callee args, s => some (replyOf .started (spawnCallable callee args) s)
  | spawnExport module name args, s =>
    some (replyOf .started (Scheduler.spawnExport module name args) s)
  | kill pid, s => some (.killed (s.kill pid).1)
  | step budget, s => (s.step budget).map fun taken => .stepped taken.1
  | run budget, s => (Scheduler.run budget s).map fun taken => .ran taken.1
  | attach role, s => some (.attached (s.attach role).1)
  | detach id, s => some (.detached (s.detach id).1)
  | drop _, _ | send .., _ | wait _, _ => some .done

/-- The actors that execute an instruction in a dealing, each as it is before that. -/
def Dealing.turns : Dealing → Scheduler → List Actor
  | step budget, s => stepTurns budget s
  | run budget, s => runTurns budget s
  | _, _ => []

/-- All that the embedding program does. -/
inductive Errand
  /-- It deals with modules, actors and observers. -/
  | deal (dealing : Dealing)
  /-- A library is registered. -/
  | addLibrary (library : Library)
  /-- A listener is to be told of links. -/
  | listen (listener : Listener)
  /-- The journal is handed over. -/
  | takeJournal
  /-- The run loop is paused, or no longer so. -/
  | pause (paused : Bool)
  /-- The counters are read. -/
  | readCounters

namespace Errand

/-- What is answered to an errand, and what it makes of a scheduler. There is no answer if its
budget was too small. -/
def perform : Errand → Scheduler → Option (Reply × Scheduler)
  | deal dealing, s => (dealing.reply? s).bind fun reply => (dealing.carryOut s).map (reply, ·)
  | addLibrary library, s =>
    let act := onLoader (Loader.addLibrary library)
    some (replyOf (fun _ => .done) act s, after act s)
  | listen listener, s => some (.done, { s with loader := s.loader.addListener listener })
  | takeJournal, s => some (.journal s.takeJournal.1.toList, s.takeJournal.2)
  | pause paused, s => some (.done, { s with monitor := { s.monitor with paused } })
  | readCounters, s => some (.counters s.monitor.read.1, { s with monitor := s.monitor.read.2 })

/-- The actors that execute an instruction in an errand, each as it is before that. -/
def turns : Errand → Scheduler → List Actor
  | deal dealing, s => dealing.turns s
  | _, _ => []

end Errand

/-- An errand that is performed. -/
structure Performance where
  /-- The scheduler before. -/
  before : Scheduler
  /-- What is done. -/
  errand : Errand

/-- The actors that execute an instruction. -/
def Performance.turns (x : Performance) : List Actor :=
  x.errand.turns x.before

/-- The reply and the scheduler after, if the budget is not too small. -/
def Performance.result? (x : Performance) : Option (Reply × Scheduler) :=
  x.errand.perform x.before

/-- Errands one after the other, up to one without an answer. -/
def performAll : List Errand → Scheduler → List Performance
  | [], _ => []
  | errand :: errands, s =>
    ⟨s, errand⟩ :: (errand.perform s).elim [] fun result => performAll errands result.2

/-! ### Where breakpoints are cleared -/

/-- The second dealing is the first one with some breakpoints cleared in what is handed over. -/
inductive Dealing.Cleared : Dealing → Dealing → Prop
  /-- It is the same. -/
  | same (dealing : Dealing) : Cleared dealing dealing
  /-- The same module is taken in. -/
  | addChunk {module module' : Prototype} (code : module.Cleared module') :
      Cleared (.addChunk module) (.addChunk module')
  /-- The same routine is kept. -/
  | acquire {routine routine' : Routine} (code : routine.Cleared routine') :
      Cleared (.acquire routine) (.acquire routine')
  /-- The same actor is started. -/
  | spawn {callee callee' : Payload} {args args' : List Payload} (called : callee.Cleared callee')
      (passed : List.Forall₂ Payload.Cleared args args') :
      Cleared (.spawn callee args) (.spawn callee' args')
  /-- The same exported function is started. -/
  | spawnExport (module name : String) {args args' : List Payload}
      (passed : List.Forall₂ Payload.Cleared args args') :
      Cleared (.spawnExport module name args) (.spawnExport module name args')
  /-- The same message is sent. -/
  | send (receiver : Pid) {payload payload' : Payload} (message : payload.Cleared payload') :
      Cleared (.send receiver payload) (.send receiver payload')

/-- The second errand is the first one with some breakpoints cleared in what is handed over. -/
inductive Errand.Cleared : Errand → Errand → Prop
  /-- No code is handed over. -/
  | same (errand : Errand) : Cleared errand errand
  /-- Some code may be. -/
  | deal {dealing dealing' : Dealing} (same : dealing.Cleared dealing') :
      Cleared (.deal dealing) (.deal dealing')

/-- The second reply is the first one but for breakpoints. -/
inductive Reply.Cleared : Reply → Reply → Prop
  /-- It is the same. -/
  | same (reply : Reply) : Cleared reply reply
  /-- Some breakpoints are not written down. -/
  | journal {entries entries' : List (ObserverId × Event)}
      (told : JournalCleared entries entries') :
      Cleared (.journal entries) (.journal entries')
  /-- Some breakpoints are not counted. -/
  | counters {c d : Counters} (counted : c.Cleared d) : Cleared (.counters c) (.counters d)

/-- The second performance is the first one with some breakpoints cleared. -/
structure Performance.Cleared (x y : Performance) : Prop where
  /-- The schedulers are the same before. -/
  before : x.before.Cleared y.before
  /-- The same actors execute instructions, and they are in the same states. -/
  turns : List.Forall₂ Actor.Cleared x.turns y.turns
  /-- The replies are the same and so are the schedulers after, unless there is none for both. -/
  result : Option.Rel (fun a b => a.1.Cleared b.1 ∧ a.2.Cleared b.2) x.result? y.result?

/-- Actions that agree are answered the same. -/
theorem answers_of_agrees {α : Type} {act act' : Action α} (h : Agrees Cleared Eq act act')
    (hst : s.Cleared t) (reply : α → Reply) :
    replyOf reply act' t = replyOf reply act s ∧ (after act s).Cleared (after act' t) := by
  rw [replyOf, replyOf, after, after]
  rcases h.runs hst with ⟨a, _, s', t', hrun, hrun', rfl, h'⟩ | ⟨fault, s', t', hrun, hrun', h'⟩
  · rw [hrun, hrun']
    exact ⟨rfl, h'⟩
  · rw [hrun, hrun']
    exact ⟨rfl, h'⟩

/-- What agrees about loaders agrees about schedulers. -/
theorem agrees_onLoader {α : Type} {act act' : Loader.Action α}
    (h : Agrees Loader.Cleared Eq act act') : Agrees Cleared Eq (onLoader act) (onLoader act') := by
  intro s t hst
  rw [onLoader, onLoader]
  rcases h.runs hst.loader with ⟨a, _, l, m, hrun, hrun', rfl, hl⟩ | ⟨fault, l, m, hrun, hrun', hl⟩
  · rw [hrun, hrun']
    exact .ok rfl { hst with loader := hl }
  · rw [hrun, hrun']
    exact .error fault { hst with loader := hl }

theorem respects_link : Respects Cleared Eq Scheduler.link := by
  refine (agrees_onLoader Loader.respects_link).andThen fun linking => ?_
  have hsame : List.Forall₂ Eq linking.told linking.told := List.forall₂_same.2 fun _ _ => rfl
  refine (agrees_forM hsame fun listener _ heq => ?_).andThen fun _ => agrees_pure rfl
  subst heq
  obtain ⟨listener, report⟩ := listener
  cases listener with
  | monitor => exact agrees_modify fun s t h => { h with monitor := h.monitor.record .linked }
  | numbered => exact agrees_pure rfl

theorem agrees_spawnExport (module name : String) {args args' : List Payload}
    (hargs : List.Forall₂ Payload.Cleared args args') :
    Agrees Cleared Eq (Scheduler.spawnExport module name args)
      (Scheduler.spawnExport module name args') := by
  refine agrees_get_bind fun s t h => ?_
  refine agrees_look (h.loader.resolve module name) fun symbol symbol' hs => ?_
  cases hs with
  | native => exact agrees_throw _
  | function hcode => exact agrees_spawnCallable (.closure hcode .nil) hargs

theorem Cleared.acquire (h : s.Cleared t) {routine routine' : Routine}
    (hroutine : routine.Cleared routine') : Cleared { s with loader := s.loader.acquire routine }
      { t with loader := t.loader.acquire routine' } := by
  have hholds : List.Forall₂ (Option.Rel Symbol.Cleared)
      (s.loader.acquire routine).holds.toList (t.loader.acquire routine').holds.toList := by
    simpa [Loader.acquire] using
      List.rel_append h.loader.holds (.cons (.some (.function hroutine)) .nil)
  exact { h with loader := { h.loader with holds := hholds } }

/-- A step or a run is answered the same. -/
theorem answers_of_rel {α : Type} {o o' : Option (α × Scheduler)} (reply : α → Reply)
    (h : Option.Rel (fun x y => y.1 = x.1 ∧ x.2.Cleared y.2) o o') :
    (o'.map fun taken => reply taken.1) = (o.map fun taken => reply taken.1) ∧
      Option.Rel Cleared (o.map Prod.snd) (o'.map Prod.snd) := by
  cases h with
  | none => exact ⟨rfl, .none⟩
  | some hrelated =>
    obtain ⟨heq, hcleared⟩ := hrelated
    exact ⟨congrArg (fun a => some (reply a)) heq, .some hcleared⟩

/-- Dealings are answered the same. -/
theorem Dealing.Cleared.answers {dealing dealing' : Dealing} (hd : dealing.Cleared dealing')
    (h : s.Cleared t) : dealing'.reply? t = dealing.reply? s ∧
      Option.Rel Scheduler.Cleared (dealing.carryOut s) (dealing'.carryOut t) := by
  -- The answer to an action is its result, and what is left is the state after it.
  have haction : ∀ {α : Type} {act act' : Action α} (reply : α → Reply),
      Agrees Scheduler.Cleared Eq act act' →
      some (replyOf reply act' t) = some (replyOf reply act s) ∧
        Option.Rel Scheduler.Cleared (some (after act s)) (some (after act' t)) := by
    intro α act act' reply hact
    obtain ⟨heq, hafter⟩ := answers_of_agrees hact h reply
    exact ⟨congrArg some heq, .some hafter⟩
  have hacquire {routine routine' : Routine} (hroutine : routine.Cleared routine') :
      (Dealing.acquire routine').reply? t = (Dealing.acquire routine).reply? s ∧
        Option.Rel Scheduler.Cleared ((Dealing.acquire routine).carryOut s)
          ((Dealing.acquire routine').carryOut t) := by
    refine ⟨congrArg (fun n => some (Reply.held n)) ?_, .some (h.acquire hroutine)⟩
    simpa using h.loader.holds.length_eq.symm
  cases hd with
  | addChunk hmodule => exact haction .chunk (agrees_onLoader (Loader.agrees_addChunk hmodule))
  | acquire hroutine => exact hacquire hroutine
  | spawn hcallee hargs => exact haction .started (agrees_spawnCallable hcallee hargs)
  | spawnExport module name hargs =>
    exact haction .started (agrees_spawnExport module name hargs)
  | send receiver hpayload => exact ⟨rfl, .some (h.deliver receiver hpayload)⟩
  | same =>
    cases dealing with
    | addChunk module =>
      exact haction .chunk
        (agrees_onLoader (Loader.agrees_addChunk (Prototype.cleared_refl module)))
    | link => exact haction .linked respects_link
    | hold module name => exact haction .held (agrees_onLoader (Loader.respects_hold module name))
    | acquire routine => exact hacquire (Routine.cleared_refl routine)
    | drop number => exact ⟨rfl, .some { h with loader := h.loader.drop number }⟩
    | collectModules =>
      obtain ⟨hcount, hcollected⟩ := h.collectModules
      exact ⟨congrArg (fun n => some (Reply.collected n)) hcount, .some hcollected⟩
    | spawn callee args =>
      exact haction .started
        (agrees_spawnCallable (.same callee) (Payload.cleared_all_refl args))
    | spawnExport module name args =>
      exact haction .started (agrees_spawnExport module name (Payload.cleared_all_refl args))
    | send receiver payload => exact ⟨rfl, .some (h.deliver receiver (.same payload))⟩
    | kill pid =>
      obtain ⟨hknown, hkilled⟩ := h.kill pid
      exact ⟨congrArg (fun known => some (Reply.killed known)) hknown, .some hkilled⟩
    | step budget => exact answers_of_rel .stepped (rel_step h budget)
    | run budget => exact answers_of_rel .ran (rel_run h budget)
    | attach role =>
      have hattached : (s.attach role).2.Cleared (t.attach role).2 := by
        rw [Scheduler.attach, Scheduler.attach, h.nextObserver, h.observers]
        exact { h with nextObserver := rfl, observers := rfl }
      refine ⟨congrArg (fun n => some (Reply.attached ⟨n⟩)) h.nextObserver, .some hattached⟩
    | detach id =>
      have hdetached : (s.detach id).2.Cleared (t.detach id).2 := by
        rw [Scheduler.detach, Scheduler.detach, h.observers]
        exact { h with observers := rfl }
      refine ⟨?_, .some hdetached⟩
      rw [Dealing.reply?, Dealing.reply?, Scheduler.detach, Scheduler.detach, h.observers]
    | wait clock => exact ⟨rfl, .some { h with clock := rfl }⟩

/-- In dealings, the same actors execute the same instructions. -/
theorem Dealing.Cleared.forall₂_turns {dealing dealing' : Dealing}
    (hd : dealing.Cleared dealing') (h : s.Cleared t) :
    List.Forall₂ Actor.Cleared (dealing.turns s) (dealing'.turns t) := by
  cases hd with
  | same =>
    cases dealing with
    | step budget => exact h.forall₂_stepTurns budget
    | run budget => exact h.forall₂_runTurns budget
    | _ => exact .nil
  | _ => exact .nil

/-- So it is with all errands. -/
theorem Errand.Cleared.performance {errand errand' : Errand} (he : errand.Cleared errand')
    (h : s.Cleared t) : Performance.Cleared ⟨s, errand⟩ ⟨t, errand'⟩ := by
  -- A dealing is performed if it has an answer, and in both it has the same.
  have hdeal {dealing dealing' : Dealing} (hd : dealing.Cleared dealing') :
      Performance.Cleared ⟨s, .deal dealing⟩ ⟨t, .deal dealing'⟩ := by
    refine ⟨h, hd.forall₂_turns h, ?_⟩
    obtain ⟨hreply, hcarried⟩ := hd.answers h
    rw [Performance.result?, Performance.result?, Errand.perform, Errand.perform]
    dsimp only
    rw [hreply]
    cases dealing.reply? s with
    | none => exact .none
    | some reply => exact rel_map hcarried fun _ _ h' => ⟨.same reply, h'⟩
  cases he with
  | deal hd => exact hdeal hd
  | same =>
    cases errand with
    | deal dealing => exact hdeal (.same dealing)
    | addLibrary library =>
      obtain ⟨heq, hafter⟩ := answers_of_agrees
        (agrees_onLoader (Loader.respects_addLibrary library)) h fun _ => .done
      refine ⟨h, .nil, .some ⟨?_, hafter⟩⟩
      dsimp only
      rw [heq]
      exact .same _
    | listen listener =>
      have hlisteners : t.loader.listeners ++ [listener] = s.loader.listeners ++ [listener] := by
        rw [h.loader.listeners]
      exact ⟨h, .nil, .some ⟨.same _, { h with
        loader := { h.loader with listeners := hlisteners } }⟩⟩
    | takeJournal => exact ⟨h, .nil, .some ⟨.journal h.journal, { h with journal := .nil }⟩⟩
    | pause paused =>
      exact ⟨h, .nil, .some ⟨.same _, { h with monitor := { h.monitor with paused := rfl } }⟩⟩
    | readCounters =>
      obtain ⟨hcounters, hmonitor⟩ := h.monitor.read
      exact ⟨h, .nil, .some ⟨.counters hcounters, { h with monitor := hmonitor }⟩⟩

theorem forall₂_performAll {errands errands' : List Errand}
    (he : List.Forall₂ Errand.Cleared errands errands') (h : s.Cleared t) :
    List.Forall₂ Performance.Cleared (performAll errands s) (performAll errands' t) := by
  induction he generalizing s t with
  | nil => exact .nil
  | cons hfirst _ ih =>
    have hperformed := hfirst.performance h
    refine .cons hperformed ?_
    rcases eq_of_rel hperformed.result with ⟨hnone, hnone'⟩ | ⟨x, y, hsome, hsome', -, h'⟩
    · rw [Performance.result?] at hnone hnone'
      rw [hnone, hnone']
      exact .nil
    · rw [Performance.result?] at hsome hsome'
      rw [hsome, hsome']
      exact ih h'

/-! ### What is reported -/

/-- Of breakpoints, the observers were told these and no other ones, whether the journal was handed
over or not. -/
structure Reported (s : Scheduler) (events : List Event) (reply : Reply) (s' : Scheduler) :
    Prop where
  /-- Each breakpoint was written down once by each logging observer, -/
  journal : (reply.entries ++ s'.journal.toList).filter (·.2.isBreakpoint) =
    s.journal.toList.filter (·.2.isBreakpoint) ++ s.noted events
  /-- and counted once for each that forwards to the monitor. -/
  breaks : s'.monitor.read.1.breaks = s.monitor.read.1.breaks + (s.forwarded events).length

theorem Reports.reported (h : Reports s events s') {reply : Reply} (hreply : reply.entries = []) :
    Reported s events reply s' := by
  refine ⟨?_, h.breaks⟩
  rw [hreply]
  exact h.journal

/-- Nothing is reported if journal and counters stay what they are. -/
theorem reported_nothing {reply : Reply} (hreply : reply.entries = [])
    (hjournal : s'.journal = s.journal)
    (hcounters : s'.monitor.read.1.breaks = s.monitor.read.1.breaks) :
    Reported s [] reply s' := by
  refine ⟨?_, hcounters⟩
  rw [hreply, hjournal]
  exact (List.append_nil _).symm

theorem entries_replyOf {α : Type} {reply : α → Reply} (hreply : ∀ a, (reply a).entries = [])
    (act : Action α) (s : Scheduler) : (replyOf reply act s).entries = [] := by
  rw [replyOf]
  split
  next a _ _ => exact hreply a
  next => rfl

/-- The journal is handed over in no dealing. -/
theorem Dealing.entries_reply? {dealing : Dealing} {reply : Reply}
    (h : dealing.reply? s = some reply) : reply.entries = [] := by
  cases dealing with
  | addChunk | link | hold | spawn | spawnExport =>
    obtain rfl := Option.some.inj h
    exact entries_replyOf (fun _ => rfl) _ s
  | step budget =>
    obtain ⟨taken, -, rfl⟩ := Option.map_eq_some_iff.1 h
    rfl
  | run budget =>
    obtain ⟨taken, -, rfl⟩ := Option.map_eq_some_iff.1 h
    rfl
  | _ =>
    obtain rfl := Option.some.inj h
    rfl

/-- What concerns the loader concerns no observer. -/
theorem sameWatch_onLoader {α : Type} (act : Loader.Action α) (s : Scheduler) :
    SameWatch s (after (onLoader act) s) := by
  rw [after, onLoader]
  cases act s.loader <;> exact ⟨rfl, rfl, rfl, rfl⟩

/-- In dealings, the breakpoints that are executed are reported. -/
theorem Dealing.reported {dealing : Dealing} {reply : Reply}
    (hreply : dealing.reply? s = some reply) (hcarried : dealing.carryOut s = some s') :
    Reported s ((dealing.turns s).filterMap report?) reply s' := by
  have hentries := Dealing.entries_reply? hreply
  -- Where nobody is told anything there is nothing to report.
  have hsame (h : SameWatch s s') : Reported s [] reply s' := h.reports.reported hentries
  cases dealing with
  | step budget =>
    obtain ⟨⟨outcome, t⟩, hstep, rfl⟩ := Option.map_eq_some_iff.1 hcarried
    exact (reports_step hstep).reported hentries
  | run budget =>
    obtain ⟨⟨outcome, t⟩, hrun, rfl⟩ := Option.map_eq_some_iff.1 hcarried
    exact (reports_run hrun).reported hentries
  | addChunk | hold =>
    obtain rfl := Option.some.inj hcarried
    exact hsame (sameWatch_onLoader _ s)
  | link =>
    obtain rfl := Option.some.inj hcarried
    obtain ⟨loader, n, -, hlink⟩ := after_link s
    rw [hlink]
    refine reported_nothing hentries rfl ?_
    have hread := Counters.of_foldl_count s.monitor.read.1 (List.replicate n .linked) .breakpoint
    rw [← Monitor.read_append, List.count_replicate] at hread
    exact hread
  | acquire | drop | wait =>
    obtain rfl := Option.some.inj hcarried
    exact hsame ⟨rfl, rfl, rfl, rfl⟩
  | collectModules =>
    obtain rfl := Option.some.inj hcarried
    exact hsame (sameWatch_collectModules s)
  | spawn callee args =>
    obtain rfl := Option.some.inj hcarried
    exact (reports_after callee args s).reported hentries
  | spawnExport module name args =>
    obtain rfl := Option.some.inj hcarried
    rcases after_spawnExport s module name args with hnothing | ⟨routine, -, hstarted⟩
    · exact hsame (by rw [hnothing]; exact .refl s)
    · rw [hstarted]
      exact (reports_after (.closure routine []) args s).reported hentries
  | send receiver payload =>
    obtain rfl := Option.some.inj hcarried
    exact hsame (sameWatch_deliver receiver payload s)
  | kill pid =>
    obtain rfl := Option.some.inj hcarried
    refine Reports.reported ?_ hentries
    rw [Scheduler.kill]
    split
    next => exact (SameWatch.refl s).reports
    next =>
      have hgone : SameWatch s { s with
          registry := s.registry.lend pid
          ready := s.ready.filter (· ≠ pid)
          blocked := s.blocked.filter (· ≠ pid) } := ⟨rfl, rfl, rfl, rfl⟩
      exact hgone.reports.trans (reports_finish pid .killed _)
  | attach | detach =>
    obtain rfl := Option.some.inj hcarried
    exact reported_nothing hentries rfl rfl

/-- In errands, too, and the journal that is handed over has them all. -/
theorem Performance.reported {x : Performance} {reply : Reply} (h : x.result? = some (reply, s')) :
    Reported x.before (x.turns.filterMap report?) reply s' := by
  obtain ⟨s, errand⟩ := x
  cases errand with
  | deal dealing =>
    obtain ⟨reply', hreply, hrest⟩ := Option.bind_eq_some_iff.1 h
    obtain ⟨t, hcarried, heq⟩ := Option.map_eq_some_iff.1 hrest
    obtain ⟨rfl, rfl⟩ := Prod.mk.inj heq
    exact Dealing.reported hreply hcarried
  | addLibrary library =>
    obtain ⟨rfl, rfl⟩ := Prod.mk.inj (Option.some.inj h)
    exact (sameWatch_onLoader _ s).reports.reported (entries_replyOf (fun _ => rfl) _ s)
  -- The journal is empty now, and all that was in it is in the answer.
  | takeJournal =>
    obtain ⟨rfl, rfl⟩ := Prod.mk.inj (Option.some.inj h)
    refine ⟨?_, rfl⟩
    rw [Reply.entries, takeJournal, Array.toList_empty, List.append_nil]
    exact (List.append_nil _).symm
  | listen | pause | readCounters =>
    obtain ⟨rfl, rfl⟩ := Prod.mk.inj (Option.some.inj h)
    exact reported_nothing rfl rfl rfl

/-- Breakpoints may be cleared in any of the code that is handed over, and nothing else changes for
the embedding program and the actors: at every errand the schedulers are the same, the same
instructions are executed in the same states, and the replies are the same. What the observers were
told is the same, too, but for breakpoints, and of these each one that is executed is reported once,
where it stands. -/
theorem breakpoints_only_report (config : SchedulerConfig) {loader loader' : Loader}
    (hloader : loader.Cleared loader') (clock : Clock) {errands errands' : List Errand}
    (herrands : List.Forall₂ Errand.Cleared errands errands') :
    List.Forall₂ Performance.Cleared (performAll errands (create config loader clock))
        (performAll errands' (create config loader' clock)) ∧
      ∀ (x : Performance) (reply : Reply) (s' : Scheduler), x.result? = some (reply, s') →
        Reported x.before (x.turns.filterMap report?) reply s' :=
  ⟨forall₂_performAll herrands (cleared_create config hloader clock),
    fun _ _ _ => Performance.reported⟩

/-- A module with a function that calls another one and then executes a breakpoint. -/
def caller (first : Instruction) : Prototype :=
  { Prototype.blank with
    symbol := some "module"
    nested := [{ Prototype.blank with
      symbol := some "main"
      code := #[.makeClosure 0, .call 0, .breakpoint, .ret]
      nested := [{ Prototype.blank with code := #[first, .ret] }] }] }

/-- It is run under the eyes of an observer that logs and of one that forwards to the monitor. -/
def inspection (first : Instruction) : List Errand :=
  [.deal (.attach (.logging none)), .deal (.attach .monitoring), .deal (.addChunk (caller first)),
    .deal .link, .deal (.spawnExport "module" "main" []), .deal (.step 9), .takeJournal,
    .readCounters]

/-- The breakpoints in the parts of a journal that were handed over. -/
def breakpointsIn (xs : List Performance) : List (Pid × Nat) :=
  (xs.flatMap fun x => x.result?.elim [] fun result => result.1.entries).filterMap fun entry =>
    match entry.2 with
    | .breakpoint pid ip => some (pid, ip)
    | _ => none

/-- The breakpoint in the function that is called is cleared, and the other one is still
reported. -/
theorem breakpoints_only_report_caller :
    breakpointsIn (performAll (inspection .breakpoint) (create {} .standard .standing)) =
        [(⟨1⟩, 0), (⟨1⟩, 2)] ∧
      breakpointsIn (performAll (inspection .nop) (create {} .standard .standing)) = [(⟨1⟩, 2)] ∧
      Loader.standard.Cleared .standard ∧
      List.Forall₂ Errand.Cleared (inspection .breakpoint) (inspection .nop) ∧
      List.Forall₂ Performance.Cleared
        (performAll (inspection .breakpoint) (create {} .standard .standing))
        (performAll (inspection .nop) (create {} .standard .standing)) ∧
      ∀ (x : Performance) (reply : Reply) (s' : Scheduler), x.result? = some (reply, s') →
        Reported x.before (x.turns.filterMap report?) reply s' := by
  have hmodules : Loader.standard.pending.isEmpty ∧ Loader.standard.running.isEmpty ∧
      Loader.standard.garbage.isEmpty ∧ Loader.standard.holds.isEmpty := by
    decide +kernel
  obtain ⟨hpending, hrunning, hgarbage, hholds⟩ := hmodules
  have hloader : Loader.standard.Cleared .standard :=
    Loader.cleared_of_no_modules (List.isEmpty_iff.1 hpending) (List.isEmpty_iff.1 hrunning)
      (List.isEmpty_iff.1 hgarbage) (Array.isEmpty_iff.1 hholds)
  have hsame (is : List Instruction) : List.Forall₂ Instruction.Cleared is is :=
    List.forall₂_same.2 fun i _ => .same i
  -- The two programs differ in one instruction of the nested function.
  have hcaller : (caller .breakpoint).Cleared (caller .nop) :=
    .intro _ .nil (.cons (.intro _ (hsame _)
      (.cons (.intro _ (.cons .breakpoint (hsame _)) .nil) .nil)) .nil)
  have herrands : List.Forall₂ Errand.Cleared (inspection .breakpoint) (inspection .nop) :=
    .cons (.same _) (.cons (.same _) (.cons (.deal (.addChunk hcaller))
      (List.forall₂_same.2 fun errand _ => .same errand)))
  exact ⟨by decide +kernel, by decide +kernel, hloader, herrands,
    breakpoints_only_report {} hloader .standing herrands⟩

end ActorMachine.Scheduler
