import ActorMachine.Machine.Run
import ActorMachine.Proofs.Machine.Frames

/-!
# Protected calls catch faults

A fault can meet a protected call in three ways: the call that it makes fails before it has a frame,
the native that it calls fails, or the fault is raised above its frame and unwinds to it.

* `step_of_invokes`: in the first two cases the instruction that has made the protected call does
  not fail, and the fault is its result.
* `unwind_guarded`: in the third case unwinding does not fail, and the fault is the result.
* `guarded_of_reached`: the frame that it unwinds to was made by a protected call, and the calls
  below are still those that were in progress then.
-/

namespace ActorMachine.Machine

open Actor (Action Recovered)

variable {p q r : Actor} {n m : Nat} {guarded : Bool} {fault : Fault} {loader : Loader}
  {now : Time} {config : ActorConfig} {o : Option Outcome}

/-! ### Before there is a frame -/

/-- What the guarded call at the end of a chain does without failing, the chain does. If it fails,
the protected call that has made it reports the fault. -/
theorem invoke_of_reduces (now : Time) (h : Reduces loader n guarded p m true r) (hp : p.Sound)
    (hrequest : p.request = none)
    (hroom : guarded = true → p.calleeSlot n + 2 ≤ p.stack.capacity) :
    (∀ o q, invoke loader now m true r = .ok o q → invoke loader now n guarded p = .ok o q) ∧
      ∀ fault q, invoke loader now m true r = .error fault q →
        (n = m ∧ guarded = true ∧ p = r) ∨
          ∃ q', invoke loader now n guarded p = .ok none q' ∧
            Recovered fault p.frames (p.stack.toList.take (p.calleeSlot n)) q' := by
  generalize hm : true = guarded' at h
  -- The fault comes up the chain link by link until the innermost protected call reports it.
  induction h with
  | refl => subst hm; exact ⟨fun _ _ => id, fun _ _ _ => .inl ⟨rfl, rfl, rfl⟩⟩
  | @protect n m guarded _ p r id hsize hcallee hnative _ ih =>
    have hslot := Actor.calleeSlot_lt hsize
    have hkeeps := Actor.keeps_withoutSlot hp (p.calleeSlot (n + 1))
    have hsame := Actor.calleeSlot_withoutSlot hslot
    have hroom' := hp.room_callee hsize
    have hcall := invoke_protectedCall hsize hcallee hnative now guarded
    obtain ⟨hok, herror⟩ := ih hkeeps.sound hrequest (fun _ => by rwa [hsame]) hm
    refine ⟨fun o q ho => by rw [hcall, hok o q ho], fun fault q hfault => .inr ?_⟩
    rcases herror fault q hfault with ⟨rfl, -, heq⟩ | ⟨q', hq', hrec⟩
    · -- The innermost protected call of the chain handles the fault itself.
      subst hm
      rw [← heq] at hfault
      have hspec := invoke_spec hkeeps.sound hrequest loader now n true fun _ => by rwa [hsame]
      have hpq := (hsame ▸ hspec.of_error hfault).trans hkeeps
      rw [hcall, hfault]
      dsimp only
      rw [if_pos (congrArg List.length hpq.frames)]
      have hreport : Ensures
          (do
            Actor.truncateStack (p.calleeSlot (n + 1))
            Actor.pushFailure fault
            return none : Action (Option Outcome)) q
          (fun o q' => o = none ∧
            Recovered fault p.frames (p.stack.toList.take (p.calleeSlot (n + 1))) q')
          (fun _ _ => False) := by
        refine ensures_report hpq.sound (hpq.le_size (Nat.le_of_lt hslot))
          (Nat.le_trans hroom' hpq.capacity) fault fun q' hq' _ hdescribed => ?_
        obtain ⟨d, hd, hdescribes⟩ := hdescribed
        rw [hpq.below] at hd
        exact ⟨rfl, hq'.frames.trans hpq.frames, (hq'.request.trans hpq.request).trans hrequest,
          d, hd, hdescribes⟩
      obtain ⟨_, q', hq', rfl, hrec⟩ := hreport.exists_ok
      exact ⟨q', hq', hrec⟩
    · refine ⟨q', by rw [hcall, hq'], ?_⟩
      rw [hsame, hkeeps.below] at hrec
      exact hrec

/-- A call is what the next instruction does if it is one. -/
theorem step_eq_invoke {f : Frame} {outer : List Frame} {nargs : UInt32}
    (hframes : p.frames = f :: outer)
    (hcode : f.routine.prototype.code[f.ip]? = some (.call nargs)) :
    step loader now p = invoke loader now nargs.toNat false (p.atIp (f.ip + 1)) :=
  step_eq_execute hframes hcode loader now

/-- A call of a native runs it. -/
theorem invoke_eq_callBuiltin {builtin : Builtin} {id : NativeId} (now : Time) (guarded : Bool)
    (hsize : n < p.stack.size)
    (hcallee : p.stack.slot (p.calleeSlot n) = .ok (.native id))
    (hnative : nativeFor loader id n = .ok (.function builtin)) :
    invoke loader now n guarded p = callBuiltin builtin now (p.calleeSlot n) guarded p := by
  have hslot : p.stack.size - n - 1 = p.calleeSlot n := rfl
  rw [invoke.eq_def]
  simp only [bind, EStateM.bind, get, getThe, MonadStateOf.get, estateM_get, ofExcept,
    Nat.not_le.2 hsize, if_false, hslot, hcallee, hnative, pure, EStateM.pure]

/-- A native that returns leaves its results where the callee was. -/
theorem callBuiltin_of_ok {builtin : Builtin} (now : Time) (hp : p.Sound) {slot : Nat}
    (hslot : slot ≤ p.stack.size) (hroom : slot + resultSlots guarded ≤ p.stack.capacity)
    {v : Value}
    (hrun : builtin.run (p.stack.values.extract (slot + 1) p.stack.size) p = .ok v q) :
    ∃ r, callBuiltin builtin now slot guarded p =
        .ok (q.request.map (outcomeOf now guarded)) r ∧
      r.frames = p.frames ∧ r.stack.toList = p.stack.toList.take slot ++ results guarded v := by
  obtain ⟨heap, request, rfl, hq, hv⟩ := (Builtin.run_spec hp builtin _).of_ok hrun
  have hspec : Ensures (callBuiltin builtin now slot guarded) p
      (fun o r => o = request.map (outcomeOf now guarded) ∧ r.frames = p.frames ∧
        r.stack.toList = p.stack.toList.take slot ++ results guarded v)
      (fun _ _ => False) := by
    rw [callBuiltin, ensures_bind, ensures_get]
    dsimp only
    rw [ensures_bind, Actor.ensures_attempt, Ensures, hrun]
    dsimp only
    rw [ensures_bind, Actor.truncateStack, ensures_modify]
    -- From the slot of the callee on there is room for the results.
    refine ensures_pushResults (p := { p with heap, request, stack := p.stack.truncate slot })
      ((hq.truncate slot).congr rfl rfl rfl) hv guarded ?_ ?_
    · show (p.stack.truncate slot).size + resultSlots guarded ≤ p.stack.capacity
      rwa [Stack.size_truncate, Nat.min_eq_left hslot]
    · rintro _ ⟨stack, rfl, hstack, -, -⟩
      rw [ensures_bind, Actor.takeRequest, ensures_modifyGet]
      refine ⟨rfl, rfl, hstack.trans ?_⟩
      exact congrArg (· ++ results guarded v) (Stack.toList_truncate slot p.stack)
  obtain ⟨_, r, hr, rfl, hrest⟩ := hspec.exists_ok
  exact ⟨r, hr, hrest⟩

/-- One that fails in a call that is not guarded makes that fail. -/
theorem callBuiltin_of_error {builtin : Builtin} {slot : Nat}
    (hrun : builtin.run (p.stack.values.extract (slot + 1) p.stack.size) p = .error fault q) :
    callBuiltin builtin now slot false p = .error fault q := by
  simp only [callBuiltin, bind, EStateM.bind, get, getThe, MonadStateOf.get, estateM_get,
    Actor.attempt, hrun, Bool.false_eq_true, if_false]
  rfl

/-- A native that fails in a guarded call has its fault reported at once. -/
theorem invoke_guarded_failure {builtin : Builtin} {id : NativeId} (now : Time) (hp : p.Sound)
    (hrequest : p.request = none) (hsize : n < p.stack.size)
    (hroom : p.calleeSlot n + 2 ≤ p.stack.capacity)
    (hcallee : p.stack.slot (p.calleeSlot n) = .ok (.native id))
    (hnative : nativeFor loader id n = .ok (.function builtin))
    (hrun : builtin.run (p.stack.values.extract (p.calleeSlot n + 1) p.stack.size) p =
      .error fault q) :
    ∃ q', invoke loader now n true p = .ok none q' ∧
      Recovered fault p.frames (p.stack.toList.take (p.calleeSlot n)) q' := by
  have hspec :=
    callBuiltin_spec hp hrequest builtin now true (Actor.calleeSlot_lt hsize).le hroom
  rw [invoke_eq_callBuiltin now true hsize hcallee hnative]
  cases hbuiltin : callBuiltin builtin now (p.calleeSlot n) true p with
  | ok o q' =>
    obtain ⟨-, -, -, hfail⟩ := hspec.of_ok hbuiltin
    obtain ⟨rfl, hrec⟩ := hfail fault q hrun
    exact ⟨q', rfl, hrec⟩
  | error fault' q' =>
    obtain ⟨-, hfalse⟩ := hspec.of_error hbuiltin
    cases hfalse

/-- The guarded call that an instruction comes to fails: it cannot be started, or it calls a native
that fails. -/
inductive Falters (loader : Loader) (now : Time) (n : Nat) (p : Actor) (fault : Fault) : Prop
  /-- It cannot be started. -/
  | start {q : Actor} (fails : invoke loader now n true p = .error fault q)
  /-- It calls a native that fails. -/
  | native {q : Actor} {id : NativeId} {builtin : Builtin} (size : n < p.stack.size)
      (callee : p.stack.slot (p.calleeSlot n) = .ok (.native id))
      (native : nativeFor loader id n = .ok (.function builtin))
      (fails : builtin.run (p.stack.values.extract (p.calleeSlot n + 1) p.stack.size) p =
        .error fault q)

/-- Below a guarded call there are only guarded ones. -/
theorem Reduces.guarded_eq_true {guarded' : Bool} (h : Reduces loader n guarded p m guarded' r)
    (hguarded : guarded = true) : guarded' = true := by
  induction h with
  | refl => exact hguarded
  | protect _ _ _ _ ih => exact ih rfl

/-- A call that is not guarded is the one that the instruction makes. -/
theorem Invokes.step_eq (h : Invokes loader p n false r) :
    step loader now p = invoke loader now n false r := by
  obtain ⟨f, outer, nargs, hframes, hcode, hchain⟩ := h
  rw [step_eq_invoke hframes hcode]
  generalize nargs.toNat = k at hchain ⊢
  generalize hg : false = guarded' at hchain ⊢
  cases hchain with
  | refl => rfl
  | protect _ _ _ hrest => exact absurd (hg.trans (hrest.guarded_eq_true rfl)) nofun

/-- The chain of protected calls that an instruction comes to leaves the calls as they are. -/
theorem Invokes.spec (hp : Steady p) (h : Invokes loader p n guarded r) :
    (∃ ip, r.frames = (p.atIp (ip + 1)).frames ∧ p.ip? = some ip) ∧ Steady r ∧
      (guarded = true → r.calleeSlot n + 2 ≤ r.stack.capacity) := by
  obtain ⟨f, outer, nargs, hframes, -, hchain⟩ := h
  have hat := hp.atIp (f.ip + 1)
  obtain ⟨hkeeps, -, hroom⟩ := hchain.spec hat.sound (fun h => nomatch h)
  exact ⟨⟨f.ip, hkeeps.frames, by rw [Actor.ip?, hframes]; rfl⟩, hat.of_keeps hkeeps, hroom⟩

/-- What the call that an instruction comes to does without failing, the instruction does. -/
theorem step_of_invoke (hp : Steady p) (h : Invokes loader p n guarded r)
    (hcall : invoke loader now n guarded r = .ok o q) : step loader now p = .ok o q := by
  cases guarded with
  | false => rw [h.step_eq, hcall]
  | true =>
    obtain ⟨f, outer, nargs, hframes, hcode, hchain⟩ := h
    have hat := hp.atIp (f.ip + 1)
    obtain ⟨hok, -⟩ := invoke_of_reduces now hchain hat.sound hat.request (fun h => nomatch h)
    rw [step_eq_invoke hframes hcode, hok _ _ hcall]

/-- Where the guarded call that an instruction comes to fails, the instruction does not: it leaves
the report of the fault. -/
theorem step_of_invokes (hp : Steady p) (h : Invokes loader p n true r)
    (hfails : Falters loader now n r fault) :
    ∃ q below, step loader now p = .ok none q ∧ Recovered fault r.frames below q := by
  obtain ⟨-, hr, hroom⟩ := h.spec hp
  obtain ⟨f, outer, nargs, hframes, hcode, hchain⟩ := h
  have hat := hp.atIp (f.ip + 1)
  obtain ⟨hkeeps, -, -⟩ := hchain.spec hat.sound (fun h => nomatch h)
  obtain ⟨hok, herror⟩ := invoke_of_reduces now hchain hat.sound hat.request
    (fun h => nomatch h)
  rw [step_eq_invoke hframes hcode]
  cases hfails with
  | start hfault =>
    rcases herror _ _ hfault with ⟨-, hfalse, -⟩ | ⟨q, hq, hrec⟩
    · cases hfalse
    · exact ⟨q, _, hq, hkeeps.frames ▸ hrec⟩
  | native hsize hcallee hnative hrun =>
    obtain ⟨q, hq, hrec⟩ := invoke_guarded_failure now hr.sound hr.request hsize
      (hroom rfl) hcallee hnative hrun
    exact ⟨q, _, hok _ _ hq, hrec⟩

/-- An instruction that makes a protected call does not fail. -/
theorem not_invokes_of_error (hp : Steady p) (h : step loader now p = .error fault q) :
    ¬ Invokes loader p n true r := by
  intro hinv
  cases hcall : invoke loader now n true r with
  | ok o q' =>
    rw [step_of_invoke hp hinv hcall] at h
    cases h
  | error fault' q' =>
    obtain ⟨q'', below, hstep, -⟩ := step_of_invokes hp hinv (.start hcall)
    rw [hstep] at h
    cases h

/-- What an instruction that makes a protected call asks for, it asks for under that call. -/
theorem minds_of_invokes (hp : Steady p) (hinv : Invokes loader p n true r)
    (h : step loader now p = .ok o q) : Minds true o := by
  obtain ⟨-, hr, hroom⟩ := hinv.spec hp
  cases hcall : invoke loader now n true r with
  | ok o' q' =>
    have hspec := (invoke_spec hr.sound hr.request loader now n true hroom).of_ok hcall
    rw [step_of_invoke hp hinv hcall] at h
    obtain ⟨rfl, -⟩ := EStateM.Result.ok.inj h
    cases hspec with
    | completed hchain' _ _ hminds => exact hchain'.guarded_eq_true rfl ▸ hminds
    | entered => exact minds_none true
  | error fault q' =>
    obtain ⟨q'', below, hstep, -⟩ := step_of_invokes hp hinv (.start hcall)
    rw [hstep] at h
    obtain ⟨rfl, -⟩ := EStateM.Result.ok.inj h
    exact minds_none true

/-- A new actor is asked for by a native, in a call that is over: its results are on the stack. -/
theorem exists_invokes_of_newActor {callee : Payload} {args : List Payload} (hp : Steady p)
    (h : step loader now p = .ok (some (.newActor callee args guarded)) q) :
    Steady q ∧ resultSlots guarded ≤ q.stack.size ∧
      ∃ n r, Invokes loader p n guarded r ∧ q.frames = r.frames := by
  have heffect := (step_spec hp loader now).of_ok h
  refine ⟨heffect.steady hp, ?_⟩
  -- Of all effects of a step only a call that is completed at once can ask for an actor.
  generalize ho : some (Outcome.newActor callee args guarded) = o at heffect
  cases heffect with
  | idle => cases ho
  | stays _ _ _ hplain => exact absurd ho.symm (hplain.newActor callee args guarded)
  | @calls _ _ f outer nargs hframes hcode hinv =>
    cases hinv with
    | @completed _ m guarded' _ r hchain hkeeps hsize hminds =>
      obtain rfl := hminds.newActor callee args guarded ho.symm
      have hat := hp.atIp (f.ip + 1)
      obtain ⟨hr, -⟩ := hchain.spec hat.sound (fun h => nomatch h)
      refine ⟨by omega, m, r, ⟨f, outer, nargs, hframes, hcode, hchain⟩, ?_⟩
      exact hkeeps.frames.trans hr.frames.symm
    | entered => cases ho
  | returns => cases ho
  | ends => cases ho

/-! ### Above its frame -/

/-- With a guarded call in progress, unwinding leaves the report of the fault in place of the
innermost one. -/
theorem unwind_guarded (hp : Steady p) (hguarded : ∃ f ∈ p.frames, f.guarded = true)
    (fault : Fault) :
    ∃ inner f outer q, p.frames = inner ++ f :: outer ∧ (∀ g ∈ inner, g.guarded = false) ∧
      f.guarded = true ∧ Actor.unwind fault p = .ok () q ∧
      Recovered fault outer (p.stack.toList.take f.calleeSlot) q := by
  have hspec := Actor.unwind_spec hp.sound hp.room_guarded fault
  cases hunwind : Actor.unwind fault p with
  | ok _ q =>
    obtain ⟨inner, f, outer, hframes, hinner, hf, hreports⟩ := hspec.of_ok hunwind
    refine ⟨inner, f, outer, q, hframes, hinner, hf, rfl, ?_⟩
    have hrec := hreports.recovered hp.request
    rwa [Stack.toList_truncate] at hrec
  | error fault' q =>
    obtain ⟨-, -, hnone⟩ := hspec.of_error hunwind
    obtain ⟨f, hmem, hf⟩ := hguarded
    rw [hnone f hmem] at hf
    cases hf

/-- A protected call that the actor has executed has made the frame `f`, which was in progress ever
since. The calls in progress then were `outer`, with the innermost of them behind that call. -/
def Guards (config : ActorConfig) (p : Actor) (f : Frame) (outer : List Frame) : Prop :=
  ∃ loader now p₀ p₁ n r ip trace, Reached config p₀ ∧ Invokes loader p₀ n true r ∧
    p₀.ip? = some ip ∧ outer = (p₀.atIp (ip + 1)).frames ∧ step loader now p₀ = .ok none p₁ ∧
    p₁.frames = { f with ip := 0 } :: outer ∧ Run outer.length p₁ trace p

/-- A frame that goes on has been made where it was before. -/
theorem Guards.next {f' f : Frame} {outer : List Frame} (op : Operation)
    (h : Guards config p f' outer) (hsame : { f' with ip := 0 } = { f with ip := 0 })
    (hinside : outer.length < (op.after p).frames.length) :
    Guards config (op.after p) f outer := by
  obtain ⟨loader, now, p₀, p₁, n, r, ip, trace, hreached, hinv, hip, houter, hstep, hframes,
    hrun⟩ := h
  exact ⟨loader, now, p₀, p₁, n, r, ip, _, hreached, hinv, hip, houter, hstep, hsame ▸ hframes,
    hrun.next op hinside⟩

/-- Moving the instruction pointer leaves all frames where they are. -/
theorem exists_frame_of_atIp {ip : Nat} {inner : List Frame} {f : Frame} {outer : List Frame}
    (h : (p.atIp ip).frames = inner ++ f :: outer) :
    ∃ inner' f', p.frames = inner' ++ f' :: outer ∧
      { f' with ip := 0 } = { f with ip := 0 } ∧
      inner'.map Frame.guarded = inner.map Frame.guarded := by
  cases hframes : p.frames with
  | nil =>
    rw [Actor.atIp, hframes] at h
    exact ⟨inner, f, by rw [← hframes, h], rfl, rfl⟩
  | cons g rest =>
    rw [Actor.atIp, hframes] at h
    cases inner with
    | nil =>
      obtain ⟨rfl, rfl⟩ := List.cons.inj h
      exact ⟨[], g, rfl, rfl, rfl⟩
    | cons g' inner =>
      obtain ⟨rfl, rfl⟩ := List.cons.inj h
      exact ⟨g :: inner, f, rfl, rfl, rfl⟩

/-- Every guarded frame of an actor was made by a protected call that it has reached. -/
theorem guarded_of_reached (h : Reached config p) {inner : List Frame} {f : Frame}
    {outer : List Frame} (hframes : p.frames = inner ++ f :: outer) (hf : f.guarded = true) :
    Guards config p f outer := by
  -- The last operation has made the frame, or it was there before, but for its instruction pointer.
  induction h generalizing inner f outer with
  | start hstart =>
    -- The first call is not guarded.
    obtain ⟨-, -, -, g, hg, hguarded, -⟩ :=
      (Actor.start_spec (Actor.sound_create _ config) _ _).of_ok hstart
    have hmem : f ∈ [g] := by
      rw [← hg, hframes]
      simp
    rw [List.mem_singleton.1 hmem, hguarded] at hf
    cases hf
  | @next p op hreached ih =>
    have hinside : outer.length < (op.after p).frames.length := by
      rw [hframes, List.length_append, List.length_cons]
      omega
    have hmoved : ∀ {ip inner'}, (p.atIp ip).frames = inner' ++ f :: outer →
        Guards config (op.after p) f outer := by
      intro ip inner' hp
      obtain ⟨inner₀, f₀, hbefore, hsame, -⟩ := exists_frame_of_atIp hp
      have hf₀ : f₀.guarded = true := (congrArg Frame.guarded hsame).trans hf
      exact (ih hbefore hf₀).next op hsame hinside
    cases moves_after (steady_of_reached hreached) op with
    | stays ip hq => exact hmoved (hq.symm.trans hframes)
    | enters ip g hq hmade =>
      rw [hq] at hframes
      cases inner with
      | nil =>
        obtain ⟨rfl, rfl⟩ := List.cons.inj hframes
        obtain ⟨hip, loader, now, n, r, hstep, hinv, hr⟩ := hmade
        rw [hf] at hinv
        obtain ⟨⟨ip', hr', hip'⟩, -⟩ := hinv.spec (steady_of_reached hreached)
        refine ⟨loader, now, p, _, n, r, ip', [], hreached, hinv, hip', hr.symm.trans hr', hstep,
          ?_, .refl hinside⟩
        rw [hq, ← hip]
      | cons _ inner =>
        obtain ⟨-, hrest⟩ := List.cons.inj hframes
        exact hmoved hrest
    | leaves inner' g _ _ hbefore hq =>
      rw [hq] at hframes
      subst hframes
      have hp : p.frames = (inner' ++ g :: inner) ++ f :: outer := by
        rw [hbefore, List.append_assoc, List.cons_append]
      exact (ih hp hf).next op rfl hinside

end ActorMachine.Machine
