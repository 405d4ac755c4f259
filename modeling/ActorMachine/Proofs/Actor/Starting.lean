import ActorMachine.Proofs.Actor.Ages

/-!
# What a new actor starts with

A new actor is made of payloads alone. They are rebuilt on its stack, in its own heap, before it
makes its first call.

* `Rebuilds`: some payloads were rebuilt in the heap and put on the stack.
* `start_holds`: an actor that was started is in a call of the closure that it was given, with the
  arguments that it was given as its first locals.
-/

namespace ActorMachine.Actor

variable {p q r : Actor} {payload : Payload} {payloads : List Payload}

/-- Values of a heap stand for these payloads, one by one. -/
def StandFor (h : Heap) (values : List Value) (payloads : List Payload) : Prop :=
  List.Forall₂ (fun v payload => Payload.capture h v = .ok payload) values payloads

/-- What stands for payloads goes on doing so when something is added to the heap. -/
theorem StandFor.grow {h t : Heap} {values : List Value} (hvalues : StandFor h values payloads)
    (hs : h.Sound) (hbacks : ∀ v ∈ values, h.Backs v) (hgrows : Heap.Grows h t) :
    StandFor t values payloads := by
  have hboth : List.Forall₂ (fun v payload => h.Backs v ∧ Payload.capture h v = .ok payload)
      values payloads := (List.forall₂_and_left _ _).2 ⟨hbacks, hvalues⟩
  refine hboth.imp ?_
  rintro v payload ⟨hv, hpayload⟩
  rw [← hpayload]
  exact Payload.capture_eq_of_ages hs hgrows.sound hgrows.ages (by decide) hv
    (hgrows.carries v hv) fun _ _ hmem => hmem

/-- Payloads were rebuilt in the heap and put on the stack, the first one lowest. -/
def Rebuilds (payloads : List Payload) (p q : Actor) : Prop :=
  ∃ heap values, Heap.Grows p.heap heap ∧ Extends values { p with heap } q ∧
    StandFor heap values payloads

theorem Rebuilds.sound (h : Rebuilds payloads p q) : q.Sound := by
  obtain ⟨heap, values, -, hextends, -⟩ := h
  exact hextends.sound

theorem Rebuilds.fits (h : Rebuilds payloads p q) : q.heap.Fits := by
  obtain ⟨heap, values, hgrows, hextends, -⟩ := h
  rw [hextends.heap_eq]
  exact hgrows.ages.fits

/-- Payloads that are rebuilt later lie above those that are rebuilt before. -/
theorem Rebuilds.trans {payloads' : List Payload} (hqr : Rebuilds payloads' q r)
    (hpq : Rebuilds payloads p q) : Rebuilds (payloads ++ payloads') p r := by
  obtain ⟨heap, values, hgrows, hextends, hvalues⟩ := hpq
  obtain ⟨heap', values', hgrows', hextends', hvalues'⟩ := hqr
  have hbacks : ∀ v ∈ values, heap.Backs v := by
    intro v hv
    have hmem : v ∈ q.stack.toList := by
      rw [hextends.toList_eq]
      exact List.mem_append_right _ hv
    have hv' := hextends.sound.stack v hmem
    rwa [hextends.heap_eq] at hv'
  rw [hextends.heap_eq] at hgrows'
  refine ⟨heap', values ++ values', hgrows'.trans hgrows, ?_, ?_⟩
  · obtain ⟨stack, rfl, hstack, hcapacity, -⟩ := hextends
    obtain ⟨stack', rfl, hstack', hcapacity', hr⟩ := hextends'
    refine ⟨stack', rfl, ?_, Nat.le_trans hcapacity hcapacity', hr⟩
    rw [hstack', hstack, List.append_assoc]
  · exact List.rel_append (hvalues.grow hgrows.sound hbacks hgrows') hvalues'

theorem pushPayload_rebuilds (hp : p.Sound) (hfits : p.heap.Fits) (payload : Payload) :
    Ensures (pushPayload payload) p (fun _ q => Rebuilds [payload] p q) (fun _ _ => True) := by
  rw [pushPayload, ensures_bind, ensures_onHeap]
  refine (Payload.materialize_spec hp.heap hfits payload).mono ?_ fun _ _ _ => trivial
  rintro v heap ⟨hgains, hv, depth, hdepth⟩
  have hq : ({ p with heap } : Actor).Sound :=
    hp.withHeap hgains.sound fun v _ => hgains.carries v
  refine (push_spec hq hv).mono ?_ fun _ _ _ => trivial
  intro _ q hextends
  have hcapture := Payload.capture_of_captureWithin hgains.sound hv hdepth
  exact ⟨heap, [v], hgains.toGrows, hextends, .cons hcapture .nil⟩

theorem forM_pushPayload_rebuilds (hp : p.Sound) (hfits : p.heap.Fits) (payloads : List Payload) :
    Ensures (payloads.forM pushPayload) p (fun _ q => Rebuilds payloads p q)
      (fun _ _ => True) := by
  induction payloads generalizing p with
  | nil =>
    refine ⟨p.heap, [], .refl hp.heap hfits, ⟨p.stack, rfl, ?_, Nat.le_refl _, hp⟩, .nil⟩
    rw [List.append_nil]
  | cons payload payloads ih =>
    show Ensures (pushPayload payload >>= fun _ => payloads.forM pushPayload) p _ _
    rw [ensures_bind]
    refine (pushPayload_rebuilds hp hfits payload).mono ?_ fun _ _ _ => trivial
    intro _ q hq
    exact (ih hq.sound hq.fits).mono (fun _ r hr => hr.trans hq) fun _ _ _ => trivial

/-- A closure is captured with its code. -/
theorem capture_closure {h : Heap} {ref : HeapRef} {routine : Routine} {upvalues : Array Value}
    (hclosure : h.closure ref = .ok (routine, upvalues))
    (hpayload : Payload.capture h (.ref ref) = .ok payload) :
    ∃ captured, payload = .closure routine captured := by
  obtain ⟨hlook, hkind⟩ := Heap.closure_eq_ok_iff.1 hclosure
  have hwithin := Payload.captureWithin_of_capture hpayload
  rw [Payload.captureWithin, Heap.deref_eq_ok_iff.2 ⟨hlook, hkind.symm⟩] at hwithin
  change (upvalues.toList.mapM (Payload.captureWithin h _) >>= _) = _ at hwithin
  obtain ⟨captured, -, hcaptured⟩ := Payload.bind_eq_pure_iff.1 hwithin
  exact ⟨captured, (Payload.pure_inj hcaptured).symm⟩

/-- What an actor that was started with a callee and arguments is like. -/
structure Launched (callee : Payload) (args : List Payload) (p : Actor) : Prop where
  /-- It is in a call of a closure with the code of the callee, at the first instruction. -/
  call : ∃ routine captured, callee = .closure routine captured ∧
    args.length = routine.prototype.arguments.toNat ∧ p.frames = [⟨routine, 0, 0, false⟩]
  /-- On its stack are the callee and the arguments, and above them the other locals. -/
  stack : ∃ values locals, p.stack.toList = values ++ locals ∧
    StandFor p.heap values (callee :: args)

/-- The first call is laid out over the callee and the arguments. -/
theorem launched_of_enterable {callee : Payload} {args : List Payload} {routine : Routine}
    {upvalues : Array Value} {stack : Stack} {locals : List Value}
    (hstand : StandFor p.heap p.stack.toList (callee :: args)) (hframes : p.frames = [])
    (henter : p.enterable 0 args.length = .ok (routine, upvalues))
    (hstack : stack.toList = p.stack.toList ++ locals) :
    Launched callee args { p with stack, frames := ⟨routine, 0, 0, false⟩ :: p.frames } := by
  obtain ⟨ref, hslot, hclosure, harguments, -⟩ := enterable_eq_ok henter
  refine ⟨?_, p.stack.toList, locals, hstack, hstand⟩
  -- The lowest value is the one that is called, and it stands for the callee.
  obtain ⟨lowest, values, hcallee, -, hvalues⟩ := List.forall₂_cons_right_iff.1 hstand
  have hlowest : p.stack.toList[0]? = some (.ref ref) := by
    rw [Stack.toList, Array.getElem?_toList]
    exact Stack.slot_eq_ok_iff.1 hslot
  rw [hvalues] at hlowest
  obtain rfl := Option.some.inj hlowest
  obtain ⟨captured, rfl⟩ := capture_closure hclosure hcallee
  exact ⟨routine, captured, rfl, harguments, by rw [hframes]⟩

/-- An actor that was started has what it was started with, and is the actor that was made in
everything but its stack, its heap and the call. -/
theorem start_holds {pid : Pid} {config : ActorConfig} {callee : Payload} {args : List Payload}
    (h : start callee args (.create pid config) = .ok () p) :
    Launched callee args p ∧
      p = { create pid config with stack := p.stack, heap := p.heap, frames := p.frames } := by
  have hspec : Ensures (start callee args) (.create pid config)
      (fun _ q => Launched callee args q ∧
        q = { create pid config with stack := q.stack, heap := q.heap, frames := q.frames })
      fun _ _ => True := by
    rw [start, ensures_bind, ensures_get, ensures_bind, ensures_ofExcept]
    refine ⟨fun stack hstack => ?_, fun _ _ => trivial⟩
    obtain ⟨hvalues, hstackFits⟩ := withCapacity_spec hstack
    have hfresh : ({ create pid config with stack, frames := [] } : Actor).Sound := by
      refine ⟨Heap.sound_empty _, ?_, by simp [create], hstackFits⟩
      show ∀ v ∈ stack.toList, _
      simp [hvalues]
    rw [ensures_bind, ensures_modify, ensures_bind]
    refine (prepareHeap_ages hfresh (Heap.fits_empty config.heap) _).mono ?_ fun _ _ _ => trivial
    rintro _ _ ⟨-, heap, rfl, hq, hages, -⟩
    -- The arguments and the callee are rebuilt on the stack one after the other, which is what `hr`
    -- says, and are not touched any more when the callee is entered.
    rw [ensures_bind]
    refine (forM_pushPayload_rebuilds hq hages.fits _).mono ?_ fun _ _ _ => trivial
    rintro _ r hr
    refine (enter_spec hr.sound 0 args.length false).mono ?_ fun _ _ _ => trivial
    rintro _ _ ⟨routine, upvalues, stack', henter, rfl, hstack', -, -⟩
    obtain ⟨heap', values, -, hextends, hstand⟩ := hr
    obtain ⟨stack'', rfl, hstack'', -, -⟩ := hextends
    have hlist : stack''.toList = values := hstack''.trans (by rw [hvalues, List.nil_append])
    rw [← hlist] at hstand
    exact ⟨launched_of_enterable hstand rfl henter hstack', rfl⟩
  exact hspec.of_ok h

end ActorMachine.Actor
