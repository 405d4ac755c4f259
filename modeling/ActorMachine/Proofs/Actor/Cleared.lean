import ActorMachine.Actor.Call
import ActorMachine.Actor.Recovery
import ActorMachine.Builtin.Run
import ActorMachine.Proofs.Heap.Cleared

/-!
# Actors with cleared breakpoints

Two actors that are the same but for breakpoints in the code of their frames and of their closures
do the same wherever no code is executed.

* `Actor.Cleared`: the second actor is the first one with some breakpoints cleared. Its stack, its
  mailbox and what it waits for are the same.
* `respects_enter`, `agrees_deliver`, `respects_unwind` and so on: what is done to both comes to the
  same.
* `Builtin.respects_run`: so does every built-in function.
-/

namespace ActorMachine

variable {α α' : Type} {R : α → α' → Prop}

/-- The second request is the first one with some breakpoints cleared in what is to be called. -/
inductive Request.Cleared : Request → Request → Prop
  /-- It is the same. -/
  | same (request : Request) : Cleared request request
  /-- A new actor is asked for. -/
  | newActor {callee callee' : Payload} {args args' : List Payload}
      (called : callee.Cleared callee') (passed : List.Forall₂ Payload.Cleared args args') :
      Cleared (.newActor callee args) (.newActor callee' args')

/-- The second reason is the first one with some breakpoints cleared in the result. -/
inductive ExitReason.Cleared : ExitReason → ExitReason → Prop
  /-- It is the same. -/
  | same (reason : ExitReason) : Cleared reason reason
  /-- The actor has returned. -/
  | normal {result result' : Payload} (returned : result.Cleared result') :
      Cleared (.normal result) (.normal result')

theorem ExitReason.Cleared.routines {reason reason' : ExitReason} (h : reason.Cleared reason') :
    List.Forall₂ Routine.Cleared reason.routines reason'.routines := by
  cases h with
  | same => exact List.forall₂_same.2 fun r _ => Routine.cleared_refl r
  | normal hresult => exact hresult.routines

/-- The second frame is the first one with some breakpoints cleared in its code. -/
structure Frame.Cleared (f g : Frame) : Prop where
  /-- The code is the same but for breakpoints, -/
  routine : f.routine.Cleared g.routine
  /-- and so is the next instruction in it. -/
  ip : g.ip = f.ip
  /-- The result goes to the same slot, -/
  calleeSlot : g.calleeSlot = f.calleeSlot
  /-- and faults are caught in both or in neither. -/
  guarded : g.guarded = f.guarded

theorem Frame.Cleared.base {f g : Frame} (h : f.Cleared g) : g.base = f.base := by
  rw [Frame.base, Frame.base, h.calleeSlot]

namespace Actor

/-- The second actor is the first one with some breakpoints cleared in the code that it keeps. -/
structure Cleared (p q : Actor) : Prop where
  /-- It has the same number, -/
  pid : q.pid = p.pid
  /-- stands at the same point, -/
  state : q.state = p.state
  /-- has the same settings, -/
  config : q.config = p.config
  /-- the same stack, -/
  stack : q.stack = p.stack
  /-- the same heap but for the code of closures, -/
  heap : p.heap.Cleared q.heap
  /-- the same mailbox, -/
  mailbox : q.mailbox = p.mailbox
  /-- the same calls in progress, -/
  frames : List.Forall₂ Frame.Cleared p.frames q.frames
  /-- waits for the same, -/
  wait : q.wait = p.wait
  /-- has the same deadline, -/
  receiveDeadline : q.receiveDeadline = p.receiveDeadline
  /-- and has asked for the same. -/
  request : Option.Rel Request.Cleared p.request q.request

variable {p q : Actor}

theorem cleared_create (pid : Pid) (config : ActorConfig) :
    (create pid config).Cleared (create pid config) :=
  ⟨rfl, rfl, rfl, rfl, Heap.cleared_empty _, rfl, .nil, rfl, rfl, .none⟩

theorem Cleared.roots (h : p.Cleared q) : q.roots = p.roots := by
  rw [Actor.roots, Actor.roots, h.stack, h.mailbox]

theorem Cleared.awaitsMessage (h : p.Cleared q) : q.awaitsMessage = p.awaitsMessage := by
  rw [Actor.awaitsMessage, Actor.awaitsMessage, h.state, h.wait]

/-- As many calls are in progress. -/
theorem Cleared.length_frames (h : p.Cleared q) : q.frames.length = p.frames.length :=
  h.frames.length_eq.symm

/-- Both keep the same code but for breakpoints. -/
theorem Cleared.routines (h : p.Cleared q) :
    List.Forall₂ Routine.Cleared p.routines q.routines := by
  have hframe {f g : Frame} (hfg : f.Cleared g) : f.routine.Cleared g.routine := hfg.routine
  exact List.rel_append (List.rel_map @hframe h.frames) h.heap.routines

/-! ### Parts of an actor -/

/-- There is no code on the stack. -/
theorem respects_onStack (act : Stack.Action α) : Respects Cleared Eq (onStack act) := by
  intro p q h
  rw [onStack, onStack, h.stack]
  cases act p.stack with
  | ok a stack => exact .ok rfl { h with stack := rfl }
  | error fault stack => exact .error fault { h with stack := rfl }

/-- Nor is there any in the mailbox. -/
theorem respects_onMailbox (act : EStateM Fault Mailbox α) :
    Respects Cleared Eq (onMailbox act) := by
  intro p q h
  rw [onMailbox, onMailbox, h.mailbox]
  cases act p.mailbox with
  | ok a mailbox => exact .ok rfl { h with mailbox := rfl }
  | error fault mailbox => exact .error fault { h with mailbox := rfl }

theorem agrees_onHeap {act : Heap.Action α} {act' : Heap.Action α'}
    (hact : Agrees Heap.Cleared R act act') : Agrees Cleared R (onHeap act) (onHeap act') := by
  intro p q h
  rw [onHeap, onHeap]
  rcases hact.runs h.heap with ⟨a, a', heap, heap', hrun, hrun', ha, hheap⟩ |
    ⟨fault, heap, heap', hrun, hrun', hheap⟩
  · simp only [hrun, hrun']
    exact .ok ha { h with heap := hheap }
  · simp only [hrun, hrun']
    exact .error fault { h with heap := hheap }

theorem agrees_attempt {act : Action α} {act' : Action α'} (hact : Agrees Cleared R act act') :
    Agrees Cleared (Alike R) (attempt act) (attempt act') := by
  intro p q h
  rw [attempt, attempt]
  rcases hact.runs h with ⟨a, a', p', q', hrun, hrun', ha, h'⟩ | ⟨fault, p', q', hrun, hrun', h'⟩
  · rw [hrun, hrun']
    exact .ok (.ok ha) h'
  · rw [hrun, hrun']
    exact .ok (.error fault) h'

theorem respects_push (v : Value) : Respects Cleared Eq (push v) :=
  respects_onStack _

theorem respects_collectGarbage : Respects Cleared Eq collectGarbage := by
  intro p q h
  obtain ⟨hfreed, hheap⟩ := h.heap.collect p.roots
  have hrun : collectGarbage q = .ok (q.heap.collect p.roots).1
      { q with heap := (q.heap.collect p.roots).2 } := by
    rw [← h.roots]
    rfl
  rw [hrun]
  exact .ok hfreed.symm { h with heap := hheap }

theorem respects_prepareHeap (bytes : Nat) : Respects Cleared Eq (prepareHeap bytes) := by
  refine agrees_get_bind fun p q h => ?_
  have hreserve : Respects Cleared Eq (onHeap (Heap.reserve bytes)) :=
    agrees_onHeap (Heap.respects_reserve bytes)
  dsimp only
  rw [h.heap.shouldCollect, h.heap.available]
  split
  next => exact respects_collectGarbage.discard.andThen fun _ => hreserve
  next => exact hreserve

theorem respects_pushString (text : String) : Respects Cleared Eq (pushString text) :=
  (respects_prepareHeap _).andThen fun _ =>
    (agrees_onHeap (Heap.respects_allocString text)).andThen fun _ => respects_push _

theorem agrees_pushClosure {routine routine' : Routine} (hcode : routine.Cleared routine')
    (upvalues : Array Value) :
    Agrees Cleared Eq (pushClosure routine upvalues) (pushClosure routine' upvalues) :=
  (respects_prepareHeap _).andThen fun _ =>
    (agrees_onHeap (Heap.agrees_allocClosure hcode upvalues)).andThen fun _ => respects_push _

theorem agrees_pushPayload {payload payload' : Payload} (hpayload : payload.Cleared payload') :
    Agrees Cleared Eq (pushPayload payload) (pushPayload payload') :=
  (agrees_onHeap (Payload.agrees_materialize hpayload)).andThen fun _ => respects_push _

theorem agrees_deliver {payload payload' : Payload} (hpayload : payload.Cleared payload') :
    Agrees Cleared Eq (deliver payload) (deliver payload') := by
  rw [deliver, deliver, hpayload.heapBytes]
  refine (respects_prepareHeap _).andThen fun _ => ?_
  refine (agrees_onHeap (Payload.agrees_materialize hpayload)).andThen fun v => ?_
  exact agrees_modify fun p q h => { h with mailbox := by rw [h.mailbox] }

theorem agrees_ask {request request' : Request} (hrequest : request.Cleared request') :
    Agrees Cleared Eq (ask request) (ask request') :=
  agrees_modify fun _ _ h => { h with request := .some hrequest }

theorem respects_takeRequest : Respects Cleared (Option.Rel Request.Cleared) takeRequest :=
  agrees_modifyGet fun _ _ h => ⟨h.request, { h with request := .none }⟩

/-! ### Calls -/

/-- The same can be called. -/
theorem Cleared.enterable (h : p.Cleared q) (calleeSlot nargs : Nat) :
    Alike (fun found found' => found.1.Cleared found'.1 ∧ found'.2 = found.2)
      (p.enterable calleeSlot nargs) (q.enterable calleeSlot nargs) := by
  rw [Actor.enterable, Actor.enterable, h.stack]
  refine (alike_refl (p.stack.slot calleeSlot)).bind fun v _ heq => ?_
  subst heq
  cases v with
  | ref r =>
    dsimp only
    split
    next => exact .error _
    -- Both find a closure or neither does, and the routines differ in how they are cleared only.
    refine (h.heap.closure r).bind fun found found' hfound => ?_
    obtain ⟨routine, upvalues⟩ := found
    obtain ⟨routine', _⟩ := found'
    obtain ⟨hcode, rfl⟩ := hfound
    dsimp only at hcode ⊢
    rw [hcode.prototype.arguments]
    split
    next => exact .error _
    rw [h.config, h.length_frames]
    split
    next => exact .error _
    next => exact .ok ⟨hcode, rfl⟩
  | _ => exact .error _

/-- The locals are laid out in the same way. -/
theorem frameExtension_eq {prototype prototype' : Prototype} (h : prototype.Cleared prototype')
    (upvalues : Array Value) :
    frameExtension prototype' upvalues = frameExtension prototype upvalues := by
  rw [frameExtension, frameExtension, h.upvalues, h.locals]

theorem respects_enter (calleeSlot nargs : Nat) (guarded : Bool) :
    Respects Cleared Eq (enter calleeSlot nargs guarded) := by
  refine agrees_get_bind fun p q h => ?_
  refine agrees_look (h.enterable calleeSlot nargs) fun found found' hfound => ?_
  obtain ⟨routine, upvalues⟩ := found
  obtain ⟨routine', _⟩ := found'
  obtain ⟨hcode, rfl⟩ := hfound
  dsimp only at hcode ⊢
  rw [frameExtension_eq hcode.prototype]
  refine (respects_onStack _).andThen fun _ => ?_
  refine (agrees_forM (List.forall₂_same.2 fun v _ => rfl) fun v _ heq => ?_).andThen fun _ => ?_
  · rw [heq]
    exact respects_push _
  · exact agrees_modify fun p q h => { h with frames := .cons ⟨hcode, rfl, rfl, rfl⟩ h.frames }

theorem agrees_start {callee callee' : Payload} {args args' : List Payload}
    (hcallee : callee.Cleared callee') (hargs : List.Forall₂ Payload.Cleared args args') :
    Agrees Cleared Eq (start callee args) (start callee' args') := by
  have hall : List.Forall₂ Payload.Cleared (callee :: args) (callee' :: args') :=
    .cons hcallee hargs
  refine agrees_get_bind fun p q h => ?_
  dsimp only
  rw [h.config, Payload.heapBytesAll_eq hall, hargs.length_eq]
  refine agrees_look_same fun stack => ?_
  refine (agrees_modify fun p q h => { h with stack := rfl, frames := .nil }).andThen fun _ => ?_
  refine (respects_prepareHeap _).andThen fun _ => ?_
  refine (agrees_forM hall fun _ _ => agrees_pushPayload).andThen fun _ => ?_
  exact respects_enter 0 args'.length false

/-! ### Recovery -/

theorem respects_truncateStack (n : Nat) : Respects Cleared Eq (truncateStack n) :=
  agrees_modify fun _ _ h => { h with stack := by rw [h.stack] }

theorem respects_pushError (fault : Fault) : Respects Cleared Eq (pushError fault) := by
  refine (agrees_attempt (respects_pushString _)).bind fun result result' hresult => ?_
  cases hresult with
  | ok => exact agrees_pure rfl
  | error => exact (agrees_attempt (respects_push .nil)).discard

theorem respects_pushFailure (fault : Fault) : Respects Cleared Eq (pushFailure fault) :=
  (respects_push _).andThen fun _ => respects_pushError fault

/-- Both unwind to the same call. -/
theorem forall₂_dropWhile {fs gs : List Frame} (h : List.Forall₂ Frame.Cleared fs gs) :
    List.Forall₂ Frame.Cleared (fs.dropWhile fun f => !f.guarded)
      (gs.dropWhile fun f => !f.guarded) := by
  induction h with
  | nil => exact .nil
  | @cons f g _ _ hfg hrest ih =>
    rw [List.dropWhile_cons, List.dropWhile_cons, hfg.guarded]
    split
    next => exact ih
    next => exact .cons hfg hrest

theorem respects_unwind (fault : Fault) : Respects Cleared Eq (unwind fault) := by
  refine agrees_get_bind fun p q h => ?_
  generalize hfs : (p.frames.dropWhile fun f => !f.guarded) = fs
  generalize hgs : (q.frames.dropWhile fun f => !f.guarded) = gs
  have hframes := forall₂_dropWhile h.frames
  rw [hfs, hgs] at hframes
  cases hframes with
  | nil => exact agrees_throw fault
  | cons hfg houter =>
    dsimp only
    rw [hfg.calleeSlot]
    refine (respects_truncateStack _).andThen fun _ => ?_
    refine (agrees_modify fun p q h => ?_).andThen fun _ => respects_pushFailure fault
    exact { h with frames := houter, receiveDeadline := rfl }

theorem respects_failProtectedCall (fault : Fault) :
    Respects Cleared Eq (failProtectedCall fault) :=
  (respects_onStack _).andThen fun _ => respects_pushFailure fault

end Actor

/-! ### Built-in functions -/

namespace Builtin

open Actor (Action Cleared onHeap prepareHeap agrees_onHeap respects_prepareHeap)

theorem respects_headerOf (r : HeapRef) : Respects Cleared Eq (headerOf r) :=
  agrees_get_bind fun p q h => by
    rw [h.heap.header]
    exact agrees_ofExcept (alike_refl _)

theorem respects_positionIn (r : HeapRef) (i : Int64) : Respects Cleared Eq (positionIn r i) := by
  refine (respects_headerOf r).andThen fun header => ?_
  split
  next => exact agrees_pure rfl
  next => exact agrees_throw _

/-- Making room is followed by an action on the heap; neither answers anything. -/
theorem respects_prepared {bytes : Nat} {due : Prop} [Decidable due] {act : Heap.Action Unit}
    (hact : Respects Heap.Cleared Eq act) :
    Respects Cleared Eq
      (do
        if due then prepareHeap bytes
        onHeap act
        return Value.nil) := by
  have hrest : Respects Cleared Eq (do onHeap act; return Value.nil) :=
    (agrees_onHeap hact).andThen fun _ => agrees_pure rfl
  dsimp only
  split
  next => exact (respects_prepareHeap bytes).andThen fun _ => hrest
  next => exact hrest

/-- Values are captured one after the other. -/
theorem respects_captureAll (vs : List Value) :
    Respects Cleared (List.Forall₂ Payload.Cleared)
      (vs.mapM fun v => do ofExcept (Payload.capture (← get).heap v) : Action (List Payload)) := by
  refine agrees_mapM (List.forall₂_same.2 fun v _ => rfl) fun v _ heq => ?_
  subst heq
  exact agrees_get_bind fun p q h => agrees_ofExcept (Payload.alike_capture h.heap v)

theorem respects_askNewActor (args : Array Value) : Respects Cleared Eq (askNewActor args) := by
  rw [askNewActor]
  split
  next => exact agrees_throw _
  next callee rest _ =>
    refine agrees_get_bind fun p q h => ?_
    refine agrees_look (Payload.alike_capture h.heap callee) fun payload payload' hpayload => ?_
    refine (respects_captureAll rest).bind fun payloads payloads' hpayloads => ?_
    exact (Actor.agrees_ask (.newActor hpayload hpayloads)).andThen fun _ => agrees_pure rfl

/-- Strings are equal or not by their texts, other objects by their handles. -/
theorem equal_eq {h t : Heap} (hc : h.Cleared t) (v w : Value) : equal t v w = equal h v w := by
  cases v <;> cases w <;> simp only [equal, hc.string]

theorem respects_run (builtin : Builtin) (args : Array Value) :
    Respects Cleared Eq (builtin.run args) := by
  cases builtin with
  | bufferNew =>
    refine agrees_look_same fun capacity => (respects_prepareHeap _).andThen fun _ => ?_
    exact (agrees_onHeap (Heap.respects_allocBuffer capacity)).andThen fun _ => agrees_pure rfl
  | bufferReserve =>
    refine agrees_look_same fun r => agrees_look_same fun capacity => ?_
    exact (respects_headerOf r).andThen fun header =>
      respects_prepared (Heap.respects_reserveBuffer r capacity)
  | bufferShrinkToFit =>
    refine agrees_look_same fun r => (respects_headerOf r).andThen fun header => ?_
    refine (respects_prepareHeap _).andThen fun _ => ?_
    exact (agrees_onHeap (Heap.respects_shrinkBuffer r)).andThen fun _ => agrees_pure rfl
  | bufferResize =>
    refine agrees_look_same fun r => agrees_look_same fun size => ?_
    exact (respects_headerOf r).andThen fun header =>
      respects_prepared (Heap.respects_resizeBuffer r size)
  | bufferGet =>
    refine agrees_look_same fun r => agrees_look_same fun i => ?_
    refine (respects_positionIn r i).andThen fun position => agrees_get_bind fun p q h => ?_
    rw [h.heap.bufferByte]
    exact agrees_look_same fun byte => agrees_pure rfl
  | bufferSet =>
    refine agrees_look_same fun r => agrees_look_same fun i => ?_
    refine (respects_positionIn r i).andThen fun position => agrees_look_same fun j => ?_
    exact (agrees_onHeap (Heap.respects_writeBuffer r position _)).andThen fun _ => agrees_pure rfl
  | bufferSize | bufferCapacity =>
    refine agrees_look_same fun r => ?_
    exact (respects_headerOf r).andThen fun header => agrees_pure rfl
  | self => exact agrees_get_bind fun p q h => agrees_pure (by rw [h.pid])
  | eq => exact agrees_get_bind fun p q h => agrees_pure (by rw [equal_eq h.heap])
  | yieldNow => exact (Actor.agrees_ask (.same _)).andThen fun _ => agrees_pure rfl
  | sleep =>
    refine agrees_look_same fun milliseconds => ?_
    exact (Actor.agrees_ask (.same _)).andThen fun _ => agrees_pure rfl
  | spawnActor => exact respects_askNewActor args
  | lt => exact (agrees_ofExcept (alike_refl _)).map fun _ _ => congrArg _
  | add | sub => exact agrees_ofExcept (alike_refl _)
  | constantNil | isNil | isBool | isInteger | isReal | isPid => exact agrees_pure rfl

end Builtin

end ActorMachine
