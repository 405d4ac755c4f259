import ActorMachine.Proofs.Builtin
import ActorMachine.Proofs.Machine.Execute

/-!
# Calls

* `Reduces`: a protected call takes itself off the stack and goes on as the guarded call of its
  first argument. What a call comes to is found at the end of a chain of such steps.
* `invoke_spec`: a call is over at once, and then its results are where the callee was, or it has
  got a frame; a call that fails has got none. The values below the callee are kept.
* `ensures_invoke`: the ways in which a call may go, one of which is a protected call.
* `invoke_protectedCall`: one link of the chain as an equation. A fault of the guarded call that has
  got no frame is reported in place of the callee.
-/

namespace ActorMachine

namespace Actor

variable {p q : Actor} {fault : Fault}

/-- After a fault was caught: the calls that go on, what is left on their stack, and on top of it
false and the description of the fault. Nothing is asked of the scheduler. -/
structure Recovered (fault : Fault) (frames : List Frame) (below : List Value) (q : Actor) :
    Prop where
  /-- These calls are in progress. -/
  frames : q.frames = frames
  /-- No request is pending. -/
  request : q.request = none
  /-- The two values on top report the fault. -/
  top : ∃ d, q.stack.toList = below ++ [.bool false, d] ∧ Describes q.heap fault d

theorem Reports.recovered (h : Reports fault p q) (hrequest : p.request = none) :
    Recovered fault p.frames p.stack.toList q := by
  obtain ⟨heap, stack, d, rfl, hstack, hd, -, -⟩ := h
  exact ⟨rfl, hrequest, d, hstack, hd⟩

/-- The slot of the callee in a call with `nargs` arguments. -/
def calleeSlot (p : Actor) (nargs : Nat) : Nat :=
  p.stack.size - nargs - 1

/-- An actor without the value in a stack slot. -/
def withoutSlot (p : Actor) (slot : Nat) : Actor :=
  { p with stack := { p.stack with values := p.stack.values.eraseIdxIfInBounds slot } }

theorem toList_withoutSlot (p : Actor) (slot : Nat) :
    (p.withoutSlot slot).stack.toList = p.stack.toList.eraseIdx slot :=
  Stack.toList_erased p.stack slot

theorem size_withoutSlot {slot : Nat} (hslot : slot < p.stack.size) :
    (p.withoutSlot slot).stack.size = p.stack.size - 1 := by
  rw [← Stack.length_toList, toList_withoutSlot, List.length_eraseIdx_of_lt, Stack.length_toList]
  rwa [Stack.length_toList]

/-- A value less keeps all values below it. -/
theorem keeps_withoutSlot (hp : p.Sound) (slot : Nat) : Keeps slot p (p.withoutSlot slot) := by
  refine keeps_stack (hp.withStack ?_ (hp.fits.erased slot)) (Nat.le_refl _) ?_
  · intro v hv
    rw [Stack.toList_erased] at hv
    exact hp.stack v (List.mem_of_mem_eraseIdx hv)
  · show (p.withoutSlot slot).stack.toList.take slot = _
    rw [toList_withoutSlot, List.take_eraseIdx_eq_take_of_le _ _ _ (Nat.le_refl _)]

/-- The callee is below the arguments, so it is there if there are more values than these. -/
theorem calleeSlot_lt {n : Nat} (hsize : n < p.stack.size) : p.calleeSlot n < p.stack.size := by
  rw [calleeSlot]
  omega

/-- A callee and its first argument take two slots, so there is room for two results. -/
theorem Sound.room_callee (hp : p.Sound) {n : Nat} (hsize : n + 1 < p.stack.size) :
    p.calleeSlot (n + 1) + 2 ≤ p.stack.capacity := by
  have hfits := hp.fits.size_le
  rw [calleeSlot]
  omega

/-- Without its own slot the callee of a call is the first of its arguments. -/
theorem calleeSlot_withoutSlot {n : Nat} (hslot : p.calleeSlot (n + 1) < p.stack.size) :
    (p.withoutSlot (p.calleeSlot (n + 1))).calleeSlot n = p.calleeSlot (n + 1) := by
  rw [calleeSlot, size_withoutSlot hslot]
  simp only [calleeSlot]
  omega

end Actor

namespace Machine

open Actor (Action Keeps Sound Extends Reports Recovered onStack push attempt)

variable {p q r : Actor} {n m : Nat} {loader : Loader} {now : Time}

/-- Number of slots that the results of a call take. -/
def resultSlots (guarded : Bool) : Nat :=
  if guarded then 2 else 1

/-- What a call that has not failed leaves on the stack. -/
def results (guarded : Bool) (v : Value) : List Value :=
  if guarded then [.bool true, v] else [v]

theorem length_results (guarded : Bool) (v : Value) :
    (results guarded v).length = resultSlots guarded := by
  cases guarded <;> rfl

/-- One result has room in place of the callee, and two have if there is room for a report. -/
theorem room_results (hp : p.Sound) (hsize : n < p.stack.size) {guarded : Bool}
    (hroom : guarded = true → p.calleeSlot n + 2 ≤ p.stack.capacity) :
    p.calleeSlot n + resultSlots guarded ≤ p.stack.capacity := by
  cases guarded with
  | false => exact Nat.le_trans (Actor.calleeSlot_lt hsize) hp.fits.size_le
  | true => exact hroom rfl

/-- With room for them the results of a call can be put on the stack. -/
theorem ensures_pushResults {α : Type} {ok : α → Actor → Prop} {fail : Fault → Actor → Prop}
    {f : Unit → Action α} (hp : p.Sound) {v : Value} (hv : p.heap.Backs v) (guarded : Bool)
    (hroom : p.stack.size + resultSlots guarded ≤ p.stack.capacity)
    (hf : ∀ q, Extends (results guarded v) p q → Ensures (f ()) q ok fail) :
    Ensures (if guarded then (push (.bool true) >>= fun _ => push v >>= f) else push v >>= f)
      p ok fail := by
  cases guarded with
  | false =>
    rw [if_neg (by decide), ensures_bind]
    exact Ensures.mono (Actor.push_room hp hv hroom) (fun _ q hq => hf q hq)
      (fun _ _ => False.elim)
  | true =>
    -- There are two results: the call has succeeded, and what it has returned.
    have hroom : p.stack.size + 2 ≤ p.stack.capacity := hroom
    rw [if_pos rfl, ensures_bind]
    refine Ensures.mono (Actor.push_room (v := .bool true) hp trivial (by omega)) ?_
      (fun _ _ => False.elim)
    intro _ q hq
    have hsize : q.stack.size = p.stack.size + 1 := by
      simpa using congrArg List.length hq.toList_eq
    have hcap := (hq.keeps (Nat.le_refl _)).capacity
    rw [ensures_bind]
    refine Ensures.mono (Actor.push_room hq.sound (hq.heap_eq ▸ hv) (by omega)) ?_
      (fun _ _ => False.elim)
    exact fun _ r hr => hf r (hr.trans hq)

/-- With room for the report a fault can be reported in place of a callee. -/
theorem ensures_report {α : Type} {ok : α → Actor → Prop} {fail : Fault → Actor → Prop}
    {f : Unit → Action α} (hp : p.Sound) {slot : Nat} (hslot : slot ≤ p.stack.size)
    (hroom : slot + 2 ≤ p.stack.capacity) (fault : Fault)
    (hf : ∀ q, Keeps slot p q → q.stack.size = slot + 2 →
      (∃ d, q.stack.toList = p.stack.toList.take slot ++ [.bool false, d] ∧
        Actor.Describes q.heap fault d) → Ensures (f ()) q ok fail) :
    Ensures (Actor.truncateStack slot >>= fun _ => Actor.pushFailure fault >>= f) p ok fail := by
  have hsize : (p.stack.truncate slot).size = slot := by
    rw [Stack.size_truncate, Nat.min_eq_left hslot]
  rw [ensures_bind, Actor.truncateStack, ensures_modify, ensures_bind]
  refine Ensures.mono (Actor.pushFailure_spec (hp.truncate slot) ?_ fault) ?_
    (fun _ _ => False.elim)
  · show (p.stack.truncate slot).size + 2 ≤ p.stack.capacity
    rwa [hsize]
  · rintro _ _ ⟨heap, stack, d, rfl, hstack, hd, hcap, hq⟩
    -- The report stands on what was below the callee.
    have hstack : stack.toList = p.stack.toList.take slot ++ [.bool false, d] := by
      rw [hstack]
      exact congrArg (· ++ _) (Stack.toList_truncate slot p.stack)
    refine hf _ ⟨hq, ⟨rfl, rfl, rfl, rfl⟩, rfl, rfl, hcap, ?_⟩ ?_ ⟨d, hstack, hd⟩
    · show stack.toList.take slot = p.stack.toList.take slot
      rw [hstack, List.take_append_of_le_length, List.take_take, Nat.min_self]
      rw [List.length_take, Stack.length_toList]
      omega
    · show stack.size = slot + 2
      rw [← Stack.length_toList, hstack, List.length_append, List.length_take,
        Stack.length_toList, Nat.min_eq_left hslot]
      rfl

/-! ### Chains of protected calls -/

/-- A call of `n` arguments comes to a call of `m` arguments after some protected calls have taken
themselves off the stack. -/
inductive Reduces (loader : Loader) : Nat → Bool → Actor → Nat → Bool → Actor → Prop
  /-- A call comes to itself. -/
  | refl (n : Nat) (guarded : Bool) (p : Actor) : Reduces loader n guarded p n guarded p
  /-- A protected call comes to what the guarded call of its first argument does. -/
  | protect {n m : Nat} {guarded guarded' : Bool} {p q : Actor} {id : NativeId}
      (size : n + 1 < p.stack.size)
      (callee : p.stack.slot (p.calleeSlot (n + 1)) = .ok (.native id))
      (native : nativeFor loader id (n + 1) = .ok .protectedCall)
      (rest : Reduces loader n true (p.withoutSlot (p.calleeSlot (n + 1))) m guarded' q) :
      Reduces loader (n + 1) guarded p m guarded' q

/-- A chain of protected calls leaves alone what is below the callee, and that where it is. -/
theorem Reduces.spec {guarded guarded' : Bool} (h : Reduces loader n guarded p m guarded' q)
    (hp : p.Sound) (hroom : guarded = true → p.calleeSlot n + 2 ≤ p.stack.capacity) :
    Keeps (p.calleeSlot n) p q ∧ q.calleeSlot m = p.calleeSlot n ∧
      (guarded' = true → q.calleeSlot m + 2 ≤ q.stack.capacity) := by
  induction h with
  | refl => exact ⟨.refl _ hp, rfl, hroom⟩
  | @protect n m _ _ p q _ hsize _ _ _ ih =>
    have hkeeps := Actor.keeps_withoutSlot hp (p.calleeSlot (n + 1))
    have hsame := Actor.calleeSlot_withoutSlot (Actor.calleeSlot_lt hsize)
    obtain ⟨hk, hc, hr⟩ := ih hkeeps.sound fun _ => by
      rw [hsame]
      exact hp.room_callee hsize
    rw [hsame] at hk hc
    exact ⟨hk.trans hkeeps, hc, hr⟩

/-! ### Native functions -/

/-- A request for a new actor says whether the call that has made it is guarded, and no request
ends the actor. -/
structure Minds (guarded : Bool) (o : Option Outcome) : Prop where
  /-- It is guarded exactly if the call is. -/
  newActor : ∀ callee args guarded', o = some (.newActor callee args guarded') → guarded' = guarded
  /-- The first function has not returned. -/
  exit : ∀ v, o ≠ some (.exit v)
  /-- There was no fault. -/
  trap : ∀ fault, o ≠ some (.trap fault)

theorem minds_none (guarded : Bool) : Minds guarded none :=
  ⟨by simp, by simp, by simp⟩

theorem minds_outcomeOf (now : Time) (guarded : Bool) (request : Option Request) :
    Minds guarded (request.map (outcomeOf now guarded)) := by
  cases request with
  | none => exact minds_none guarded
  | some request => cases request <;> constructor <;> simp [outcomeOf, eq_comm]

/-- A native that returns leaves its results where the callee was; one that fails in a guarded call
has its fault reported there. Only in a call that is not guarded does the fault go on. -/
theorem callBuiltin_spec (hp : p.Sound) (hrequest : p.request = none) (builtin : Builtin)
    (now : Time) {slot : Nat} (guarded : Bool) (hslot : slot ≤ p.stack.size)
    (hroom : slot + resultSlots guarded ≤ p.stack.capacity) :
    Ensures (callBuiltin builtin now slot guarded) p
      (fun o q => Keeps slot p q ∧ q.stack.size = slot + resultSlots guarded ∧
        Minds guarded o ∧
        ∀ fault r, builtin.run (p.stack.values.extract (slot + 1) p.stack.size) p = .error fault r →
          o = none ∧ Recovered fault p.frames (p.stack.toList.take slot) q)
      (fun _ q => Keeps slot p q ∧ guarded = false) := by
  have htrunc : (p.stack.truncate slot).size = slot := by
    rw [Stack.size_truncate, Nat.min_eq_left hslot]
  have hkept : (p.stack.truncate slot).toList.take slot = p.stack.toList.take slot := by
    rw [Stack.toList_truncate, List.take_take, Nat.min_self]
  rw [callBuiltin, ensures_bind, ensures_get]
  dsimp only
  rw [ensures_bind, Actor.ensures_attempt]
  have hrun := Builtin.run_spec hp builtin (p.stack.values.extract (slot + 1) p.stack.size)
  -- The run is remembered along with what it ensures, for the statement speaks of its fault.
  refine Ensures.mono (hrun.and (ensures_result _ _)) ?_ ?_
  · rintro v _ ⟨⟨heap, request, rfl, hq, hv⟩, hresult⟩
    have hshort := hq.truncate slot
    rw [ensures_bind, Actor.truncateStack, ensures_modify]
    refine ensures_pushResults (p := { p with heap, request, stack := p.stack.truncate slot })
      (hshort.congr rfl rfl rfl) hv guarded ?_ ?_
    · show (p.stack.truncate slot).size + resultSlots guarded ≤ p.stack.capacity
      rwa [htrunc]
    · rintro _ ⟨stack, rfl, hstack, hcap, hr⟩
      rw [ensures_bind, Actor.takeRequest, ensures_modifyGet]
      refine ⟨⟨hr.congr rfl rfl rfl, ⟨rfl, rfl, rfl, rfl⟩, rfl,
        hrequest.symm, hcap, ?_⟩, ?_, minds_outcomeOf now guarded request, ?_⟩
      · show stack.toList.take slot = p.stack.toList.take slot
        rw [hstack, List.take_append_of_le_length (by rw [Stack.length_toList, htrunc]), hkept]
      · show stack.size = slot + resultSlots guarded
        rw [← Stack.length_toList, hstack, List.length_append, Stack.length_toList, htrunc,
          length_results]
      · intro fault r hfail
        rw [hfail] at hresult
        cases hresult
  · rintro fault _ ⟨⟨heap, rfl, hq⟩, hresult⟩
    cases guarded with
    | false => exact ⟨Actor.keeps_heap hq slot, rfl⟩
    | true =>
      -- A native that fails has left no request, but one is dropped in any case.
      refine ensures_report hq hslot hroom fault fun q hkeeps hsize htop => ?_
      rw [ensures_bind, ensures_discard, Actor.takeRequest, ensures_modifyGet]
      have hpq := hkeeps.trans (Actor.keeps_heap hq slot)
      refine ⟨⟨hpq.sound.congr rfl rfl rfl, hpq.same,
        hpq.frames, hrequest.symm, hpq.capacity, hpq.below⟩, hsize, minds_none true, ?_⟩
      intro fault' r hfail
      rw [hfail] at hresult
      obtain ⟨rfl, -⟩ := EStateM.Result.error.inj hresult
      exact ⟨rfl, hpq.frames, rfl, htop⟩

/-! ### Calls -/

/-- What a call that does not fail has come to. -/
inductive Invocation (loader : Loader) (n : Nat) (guarded : Bool) (p : Actor) :
    Option Outcome → Actor → Prop
  /-- It is over: its results are where the callee was. -/
  | completed {o : Option Outcome} {m : Nat} {guarded' : Bool} {q r : Actor}
      (chain : Reduces loader n guarded p m guarded' r)
      (keeps : Keeps (p.calleeSlot n) p q)
      (size : q.stack.size = p.calleeSlot n + resultSlots guarded')
      (minds : Minds guarded' o) : Invocation loader n guarded p o q
  /-- It has got a frame. -/
  | entered {m : Nat} {guarded' : Bool} {q r : Actor} (routine : Routine)
      (chain : Reduces loader n guarded p m guarded' r)
      (keeps : Keeps (p.calleeSlot n)
        { p with frames := ⟨routine, 0, p.calleeSlot n, guarded'⟩ :: p.frames } q)
      (room : p.calleeSlot n + resultSlots guarded' ≤ q.stack.capacity) :
      Invocation loader n guarded p none q

/-- What the guarded call of the first argument has come to, the protected call has. -/
theorem Invocation.protect {o : Option Outcome} {guarded : Bool} {id : NativeId}
    (hsize : n + 1 < p.stack.size)
    (hcallee : p.stack.slot (p.calleeSlot (n + 1)) = .ok (.native id))
    (hnative : nativeFor loader id (n + 1) = .ok .protectedCall)
    (hkeeps : Keeps (p.calleeSlot (n + 1)) p (p.withoutSlot (p.calleeSlot (n + 1))))
    (hsame : (p.withoutSlot (p.calleeSlot (n + 1))).calleeSlot n = p.calleeSlot (n + 1))
    (h : Invocation loader n true (p.withoutSlot (p.calleeSlot (n + 1))) o q) :
    Invocation loader (n + 1) guarded p o q := by
  cases h with
  | completed hchain hk hq hminds =>
    rw [hsame] at hk hq
    exact .completed (.protect hsize hcallee hnative hchain) (hk.trans hkeeps) hq hminds
  | entered routine hchain hk hroom =>
    rw [hsame] at hk hroom
    refine .entered routine (.protect hsize hcallee hnative hchain) (hk.trans ?_) hroom
    exact ⟨hkeeps.sound.congr rfl rfl rfl, hkeeps.same, rfl, hkeeps.request, hkeeps.capacity,
      hkeeps.below⟩

/-- A protected call of a first argument is the guarded call of that argument, and a fault in it
is reported in place of the callee unless the call has got a frame. -/
theorem invoke_protectedCall {id : NativeId} (hsize : n + 1 < p.stack.size)
    (hcallee : p.stack.slot (p.calleeSlot (n + 1)) = .ok (.native id))
    (hnative : nativeFor loader id (n + 1) = .ok .protectedCall) (now : Time) (guarded : Bool) :
    invoke loader now (n + 1) guarded p =
      match invoke loader now n true (p.withoutSlot (p.calleeSlot (n + 1))) with
      | .ok o q => .ok o q
      | .error fault q =>
        if q.frames.length = p.frames.length then
          (do
            Actor.truncateStack (p.calleeSlot (n + 1))
            Actor.pushFailure fault
            return none : Action (Option Outcome)) q
        else .error fault q := by
  have hremove : onStack (Stack.removeSlot (p.calleeSlot (n + 1))) p =
      .ok (.native id) (p.withoutSlot (p.calleeSlot (n + 1))) := by
    have hrem : Stack.removeSlot (p.calleeSlot (n + 1)) p.stack = .ok (.native id)
        (p.withoutSlot (p.calleeSlot (n + 1))).stack := by
      simp only [Stack.removeSlot, bind, EStateM.bind, get, getThe, MonadStateOf.get, estateM_get,
        ofExcept, hcallee]
      rfl
    rw [onStack]
    simp only [hrem]
    rfl
  have hslot : p.stack.size - (n + 1) - 1 = p.calleeSlot (n + 1) := rfl
  -- All that comes before the guarded call is known to succeed, so it can be run.
  rw [invoke.eq_def]
  simp only [bind, EStateM.bind, get, getThe, MonadStateOf.get, estateM_get, ofExcept,
    Nat.not_le.2 hsize, if_false, hslot, hcallee, hnative, discard, Functor.discard,
    Functor.mapConst, Function.comp, EStateM.map, hremove, attempt, pure, EStateM.pure]
  have hframes : (p.withoutSlot (p.calleeSlot (n + 1))).frames.length = p.frames.length := rfl
  rw [hframes]
  cases invoke loader now n true (p.withoutSlot (p.calleeSlot (n + 1))) with
  | ok o q => rfl
  | error fault q =>
    by_cases hdepth : q.frames.length = p.frames.length
    · simp only [EStateM.bind, estateM_get, hdepth, if_true]
      rfl
    · simp only [EStateM.bind, estateM_get, hdepth, if_false]
      rfl

/-- What the guarded call of its first argument does, a protected call does. If that call fails, the
fault is reported, and the protected call is over. -/
theorem invoke_protectedCall_spec (hp : p.Sound) {guarded : Bool} {id : NativeId}
    (hsize : n + 1 < p.stack.size)
    (hcallee : p.stack.slot (p.calleeSlot (n + 1)) = .ok (.native id))
    (hnative : nativeFor loader id (n + 1) = .ok .protectedCall)
    (hinner : Ensures (invoke loader now n true) (p.withoutSlot (p.calleeSlot (n + 1)))
      (fun o q => Invocation loader n true (p.withoutSlot (p.calleeSlot (n + 1))) o q)
      (fun _ q => Keeps ((p.withoutSlot (p.calleeSlot (n + 1))).calleeSlot n)
        (p.withoutSlot (p.calleeSlot (n + 1))) q)) :
    Ensures (invoke loader now (n + 1) guarded) p
      (fun o q => Invocation loader (n + 1) guarded p o q)
      (fun _ q => Keeps (p.calleeSlot (n + 1)) p q) := by
  have hslot := Actor.calleeSlot_lt hsize
  have hkeeps := Actor.keeps_withoutSlot hp (p.calleeSlot (n + 1))
  have hsame := Actor.calleeSlot_withoutSlot hslot
  rw [Ensures, invoke_protectedCall hsize hcallee hnative now guarded]
  cases hcall : invoke loader now n true (p.withoutSlot (p.calleeSlot (n + 1))) with
  | ok o q => exact (hinner.of_ok hcall).protect hsize hcallee hnative hkeeps hsame
  | error fault q =>
    have hq := hinner.of_error hcall
    rw [hsame] at hq
    have hpq := hq.trans hkeeps
    dsimp only
    -- A call that fails has got no frame, so the depth is what it was and the fault is reported.
    rw [if_pos (congrArg List.length hpq.frames)]
    refine ensures_report hpq.sound (hpq.le_size (Nat.le_of_lt hslot))
      (Nat.le_trans (hp.room_callee hsize) hpq.capacity) fault fun r hr hsizer _ => ?_
    have hlast : Reduces loader n true (p.withoutSlot (p.calleeSlot (n + 1))) n true
        (p.withoutSlot (p.calleeSlot (n + 1))) := .refl _ _ _
    exact .completed (.protect hsize hcallee hnative hlast) (hr.trans hpq) hsizer (minds_none true)

/-- A call of a closure gets a frame or fails, and then it has got none. -/
theorem enter_invocation (hp : p.Sound) (hslot : p.calleeSlot n ≤ p.stack.size) (guarded : Bool)
    (hroom : p.calleeSlot n + resultSlots guarded ≤ p.stack.capacity) :
    Ensures (Actor.enter (p.calleeSlot n) n guarded) p
      (fun _ q => Invocation loader n guarded p none q)
      (fun _ q => Keeps (p.calleeSlot n) p q) := by
  refine Ensures.mono (Actor.enter_spec hp (p.calleeSlot n) n guarded) ?_ ?_
  · rintro _ _ ⟨routine, upvalues, stack, -, rfl, hstack, hcap, hq⟩
    refine .entered routine (.refl n guarded p) ⟨hq, ⟨rfl, rfl, rfl, rfl⟩, rfl, rfl, hcap, ?_⟩
      (Nat.le_trans hroom hcap)
    show stack.toList.take _ = p.stack.toList.take _
    rw [hstack, List.take_append_of_le_length]
    rwa [Stack.length_toList]
  · rintro _ _ rfl
    exact .refl _ hp

/-- A call fails at once, or it is a protected one, or it enters a closure or runs a built-in
function. Whatever fails at once has not done anything. -/
theorem ensures_invoke {ok : Option Outcome → Actor → Prop} {fail : Fault → Actor → Prop}
    {guarded : Bool} (hfault : ∀ fault, fail fault p)
    (hprotected : ∀ m id, n = m + 1 → m + 1 < p.stack.size →
      p.stack.slot (p.calleeSlot (m + 1)) = .ok (.native id) →
      nativeFor loader id (m + 1) = .ok .protectedCall →
      Ensures (invoke loader now (m + 1) guarded) p ok fail)
    (henter : n < p.stack.size →
      Ensures (Actor.enter (p.calleeSlot n) n guarded) p (fun _ q => ok none q) fail)
    (hbuiltin : ∀ id builtin, n < p.stack.size →
      p.stack.slot (p.calleeSlot n) = .ok (.native id) →
      nativeFor loader id n = .ok (.function builtin) →
      Ensures (callBuiltin builtin now (p.calleeSlot n) guarded) p ok fail) :
    Ensures (invoke loader now n guarded) p ok fail := by
  -- The protected calls are set apart as long as the call is written as one.
  by_cases hcase : ∃ m id, n = m + 1 ∧ n < p.stack.size ∧
      p.stack.slot (p.calleeSlot n) = .ok (.native id) ∧ nativeFor loader id n = .ok .protectedCall
  · obtain ⟨m, id, rfl, hsize, hcallee, hnative⟩ := hcase
    exact hprotected m id rfl hsize hcallee hnative
  rw [invoke.eq_def, ensures_bind, ensures_get]
  dsimp only
  split
  next =>
    rw [ensures_bind, ensures_throw]
    exact hfault _
  next hmore =>
    have hsize := Nat.not_le.1 hmore
    rw [ensures_bind, ensures_get, ensures_bind, ensures_ofExcept]
    refine ⟨fun callee hcallee => ?_, fun _ _ => hfault _⟩
    cases callee with
    | ref r =>
      dsimp only
      split
      next =>
        rw [ensures_bind, ensures_throw]
        exact hfault _
      next =>
        rw [ensures_bind]
        exact henter hsize
    | native id =>
      dsimp only
      rw [ensures_bind, ensures_ofExcept]
      refine ⟨fun body hbody => ?_, fun _ _ => hfault _⟩
      cases body with
      | function builtin => exact hbuiltin id builtin hsize hcallee hbody
      | protectedCall =>
        cases n with
        | zero => exact hfault _
        | succ n => exact absurd ⟨n, id, rfl, hsize, hcallee, hbody⟩ hcase
    | _ => exact hfault _

/-- A call keeps what is below its callee. If it does not fail, it is over or has got a frame. -/
theorem invoke_spec (hp : p.Sound) (hrequest : p.request = none) (loader : Loader) (now : Time)
    (n : Nat) (guarded : Bool)
    (hroom : guarded = true → p.calleeSlot n + 2 ≤ p.stack.capacity) :
    Ensures (invoke loader now n guarded) p
      (fun o q => Invocation loader n guarded p o q)
      (fun _ q => Keeps (p.calleeSlot n) p q) := by
  induction n using Nat.strong_induction_on generalizing p guarded with
  | h n ih =>
    refine ensures_invoke (fun _ => .refl _ hp) ?_ ?_ ?_
    -- The induction goes down the arguments: a protected call has one fewer left than before.
    · rintro m id rfl hsize hcallee hnative
      have hkeeps := Actor.keeps_withoutSlot hp (p.calleeSlot (m + 1))
      refine invoke_protectedCall_spec hp hsize hcallee hnative ?_
      refine ih m (Nat.lt_succ_self m) hkeeps.sound hrequest true fun _ => ?_
      rw [Actor.calleeSlot_withoutSlot (Actor.calleeSlot_lt hsize)]
      exact hp.room_callee hsize
    · intro hsize
      exact enter_invocation hp (Actor.calleeSlot_lt hsize).le guarded
        (room_results hp hsize hroom)
    · intro id builtin hsize _ _
      refine Ensures.mono (callBuiltin_spec hp hrequest builtin now guarded
        (Actor.calleeSlot_lt hsize).le (room_results hp hsize hroom)) ?_ (fun _ _ => And.left)
      rintro o q ⟨hkeeps, hq, hminds, -⟩
      exact .completed (.refl n guarded p) hkeeps hq hminds

end Machine

end ActorMachine
