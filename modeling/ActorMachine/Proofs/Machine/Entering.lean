import ActorMachine.Proofs.Machine.Reached

/-!
# The locals of a call

A call that is entered finds its arguments on the stack already. Above them it puts what the closure
has captured, as many values as the prototype declares, and a nil for each local variable. The
instructions for locals count from the first argument, so they have to meet that layout exactly; and
a call that cannot be entered must not leave half of it behind.

* `localsOf`: the locals that a call begins with.
* `Lays`: a stack with the locals of a frame in it.
* `Addresses`, `addresses`: what the instructions for locals read and write, whatever the operands
  above the locals are.
* `enters`: when a call is entered, what its frame and its stack are then, and that nothing has
  happened otherwise.
-/

namespace ActorMachine.Machine

open Actor (enter enterable frameExtension push onStack)

variable {p q : Actor} {f : Frame} {loader : Loader} {now : Time} {ip : Nat} {index : UInt32}
  {v : Value} {below locals operands : List Value} {routine : Routine} {upvalues : Array Value}

/-! ### The layout -/

/-- What a call begins with: its arguments, what its closure has captured, cut or padded with nil to
the number declared, and a nil for each local variable. -/
def localsOf (prototype : Prototype) (args : List Value) (upvalues : Array Value) : List Value :=
  args ++
    (upvalues.toList.take prototype.upvalues.toNat ++
      List.replicate (prototype.upvalues.toNat - upvalues.size) .nil) ++
    List.replicate prototype.locals.toNat .nil

/-- A frame lies on the stack: its locals begin at its base, and its operands are above them. -/
structure Lays (f : Frame) (p : Actor) (below locals operands : List Value) : Prop where
  /-- These are all values of the stack. -/
  toList_eq : p.stack.toList = below ++ locals ++ operands
  /-- The locals begin at the base. -/
  length_below : below.length = f.base
  /-- There are as many of them as the prototype declares. -/
  length_locals : locals.length = f.routine.prototype.frameSize
  /-- The values lie within the capacity. -/
  fits : p.stack.Fits

theorem Lays.getElem? (h : Lays f p below locals operands) {i : Nat}
    (hi : i < locals.length) : p.stack.toList[f.base + i]? = locals[i]? := by
  rw [h.toList_eq, List.append_assoc, ← h.length_below,
    List.getElem?_append_right (Nat.le_add_right _ _), Nat.add_sub_cancel_left,
    List.getElem?_append_left hi]

theorem localSlot_of_lt (h : index.toNat < f.routine.prototype.frameSize) :
    localSlot f index = .ok (f.base + index.toNat) :=
  if_pos h

theorem localSlot_of_le (h : f.routine.prototype.frameSize ≤ index.toNat) :
    localSlot f index = .error (.badOperand "local" index.toNat) :=
  if_neg (Nat.not_lt.2 h)

/-- The instructions for locals read and write the locals of this frame. -/
structure Addresses (f : Frame) : Prop where
  /-- Loading a local puts its value on top, unless the stack admits no more values. -/
  load : ∀ {p below locals operands} loader now ip (index : UInt32) v,
    Lays f p below locals operands → locals[index.toNat]? = some v →
    Ensures (execute loader now f ip (.loadLocal index)) p
      (fun o q => o = none ∧ q = { p with stack := q.stack } ∧
        Lays f q below locals (operands ++ [v]))
      (fun _ q => q = p ∧ ¬ p.stack.Admits 1)
  /-- Storing takes the top value and overwrites the local with it. -/
  store : ∀ {p below locals operands} loader now ip (index : UInt32) v,
    Lays f p below locals (operands ++ [v]) → index.toNat < f.routine.prototype.frameSize →
    Ensures (execute loader now f ip (.storeLocal index)) p
      (fun o q => o = none ∧ q = { p with stack := q.stack } ∧
        Lays f q below (locals.set index.toNat v) operands)
      (fun _ _ => False)
  /-- There are no locals beyond those that are declared. -/
  beyond : ∀ p loader now ip (index : UInt32), f.routine.prototype.frameSize ≤ index.toNat →
    execute loader now f ip (.loadLocal index) p = .error (.badOperand "local" index.toNat) p ∧
      execute loader now f ip (.storeLocal index) p = .error (.badOperand "local" index.toNat) p

theorem loadLocal_spec (h : Lays f p below locals operands) (hv : locals[index.toNat]? = some v) :
    Ensures (execute loader now f ip (.loadLocal index)) p
      (fun o q => o = none ∧ q = { p with stack := q.stack } ∧
        Lays f q below locals (operands ++ [v]))
      (fun _ q => q = p ∧ ¬ p.stack.Admits 1) := by
  have hindex : index.toNat < locals.length := (List.getElem?_eq_some_iff.1 hv).1
  have hslot : p.stack.slot (f.base + index.toNat) = .ok v := by
    rw [Stack.slot_eq_ok_iff, ← Stack.getElem?_toList, h.getElem? hindex, hv]
  -- The slot exists and holds the local, so only the push can fail.
  rw [execute, localSlot_of_lt (h.length_locals ▸ hindex)]
  show Ensures (ofExcept (p.stack.slot (f.base + index.toNat)) >>= fun v => push v >>= fun _ =>
    pure none) p _ _
  rw [hslot]
  show Ensures (push v >>= fun _ => pure none) p _ _
  rw [ensures_bind, push, Actor.ensures_onStack]
  refine (Stack.push_spec h.fits v).mono ?_ ?_
  · rintro _ _ ⟨capacity, rfl, -, hfits, -⟩
    refine ⟨rfl, rfl, ?_, h.length_below, h.length_locals, hfits⟩
    rw [Stack.toList_pushed, h.toList_eq, List.append_assoc]
  · rintro _ _ ⟨rfl, -, hrefused, -⟩
    exact ⟨rfl, hrefused⟩

theorem storeLocal_spec (h : Lays f p below locals (operands ++ [v]))
    (hindex : index.toNat < f.routine.prototype.frameSize) :
    Ensures (execute loader now f ip (.storeLocal index)) p
      (fun o q => o = none ∧ q = { p with stack := q.stack } ∧
        Lays f q below (locals.set index.toNat v) operands)
      (fun _ _ => False) := by
  rw [execute, localSlot_of_lt hindex]
  show Ensures (onStack Stack.popValue >>= fun v =>
    onStack (Stack.setSlot (f.base + index.toNat) v) >>= fun _ => pure none) p _ _
  have htop : p.stack.top? = some v := by
    rw [← Stack.getLast?_toList, h.toList_eq, ← List.append_assoc, List.getLast?_concat]
  have hleft : ({ p.stack with values := p.stack.values.pop } : Stack).toList =
      below ++ locals ++ operands := by
    rw [Stack.toList_popped, h.toList_eq, ← List.append_assoc, List.dropLast_concat]
  have hlocal : index.toNat < locals.length := h.length_locals ▸ hindex
  rw [ensures_bind, Actor.ensures_onStack, Stack.ensures_popValue]
  refine ⟨fun w hw => ?_, fun hnone => ?_⟩
  · obtain rfl := Option.some.inj (htop.symm.trans hw)
    -- The operand that was on top is gone when the local is written, but no local is.
    rw [ensures_bind, Actor.ensures_onStack, Stack.ensures_setSlot]
    refine ⟨fun _ => ⟨rfl, rfl, ?_, h.length_below, ?_, h.fits.popped.set _ _⟩, fun hle => ?_⟩
    · rw [Stack.toList_set, hleft, List.append_assoc, ← h.length_below,
        List.set_append_right _ _ (Nat.le_add_right _ _), Nat.add_sub_cancel_left,
        List.set_append_left _ _ hlocal, List.append_assoc]
    · rw [List.length_set, h.length_locals]
    · rw [← Stack.length_toList, hleft, List.length_append, List.length_append,
        h.length_below] at hle
      omega
  · rw [htop] at hnone
    cases hnone

/-- Whatever the operands above them are, the locals of a frame are addressed by their number. -/
theorem addresses (f : Frame) : Addresses f where
  load _ _ _ _ _ h hv := loadLocal_spec h hv
  store _ _ _ _ _ h hindex := storeLocal_spec h hindex
  beyond p loader now ip index hle := by
    rw [execute, execute, localSlot_of_le hle]
    exact ⟨rfl, rfl⟩

/-! ### Entering -/

/-- A live closure stands in a slot of the stack. -/
def CalleeAt (p : Actor) (slot : Nat) (routine : Routine) (upvalues : Array Value) : Prop :=
  ∃ r, p.stack.slot slot = .ok (.ref r) ∧ r.kind = .closure ∧
    p.heap.lookup? r.handle = some (.closure routine upvalues)

/-- There is something to enter exactly if a live closure stands there that takes as many arguments
and the calls are not too deep. -/
theorem enterable_eq_ok_iff {calleeSlot nargs : Nat} :
    p.enterable calleeSlot nargs = .ok (routine, upvalues) ↔
      CalleeAt p calleeSlot routine upvalues ∧ nargs = routine.prototype.arguments.toNat ∧
        p.frames.length < p.config.maxFrames := by
  constructor
  · intro henter
    obtain ⟨r, hslot, hclosure, harguments, hdepth⟩ := Actor.enterable_eq_ok henter
    obtain ⟨hlook, hkind⟩ := Heap.closure_eq_ok_iff.1 hclosure
    exact ⟨⟨r, hslot, hkind, hlook⟩, harguments, hdepth⟩
  · rintro ⟨⟨r, hslot, hkind, hlook⟩, rfl, hdepth⟩
    have hclosure := Heap.closure_eq_ok_iff.2 ⟨hlook, hkind⟩
    rw [enterable, hslot]
    simp [bind, Except.bind, hkind, hclosure, Nat.not_le.2 hdepth, pure, Except.pure]

/-- Taking values by their number, and nil where there is none, cuts or pads. -/
theorem map_range_getD (values : Array Value) (n : Nat) :
    (List.range n).map (fun i => values[i]?.getD .nil) =
      values.toList.take n ++ List.replicate (n - values.size) .nil := by
  refine List.ext_getElem (by simp; omega) fun i hi _ => ?_
  have hn : i < n := by simpa using hi
  rw [List.getElem_map, List.getElem_range]
  by_cases hthere : i < values.size
  · rw [List.getElem_append_left (by simp [hn, hthere])]
    simp [hthere]
  · rw [List.getElem_append_right (by simp; omega), List.getElem_replicate]
    simp [hthere]

/-- What is pushed above the arguments of a call makes up its locals. -/
theorem append_frameExtension (prototype : Prototype) (args : List Value)
    (upvalues : Array Value) :
    args ++ frameExtension prototype upvalues = localsOf prototype args upvalues := by
  rw [frameExtension, localsOf, map_range_getD, ← List.append_assoc]

theorem length_frameExtension (prototype : Prototype) (upvalues : Array Value) :
    (frameExtension prototype upvalues).length =
      prototype.upvalues.toNat + prototype.locals.toNat := by
  simp [frameExtension]

/-- What a call of the closure in a slot comes to, with some values above it as arguments. -/
structure Enters (p : Actor) (calleeSlot nargs : Nat) (guarded : Bool) : Prop where
  /-- It is entered exactly if a live closure stands there that takes as many arguments, the calls
  are not too deep, and the stack admits what has to be pushed. -/
  succeeds_iff : (∃ q, enter calleeSlot nargs guarded p = .ok () q) ↔
    ∃ routine upvalues, CalleeAt p calleeSlot routine upvalues ∧
      nargs = routine.prototype.arguments.toNat ∧ p.frames.length < p.config.maxFrames ∧
      p.stack.Admits (routine.prototype.upvalues.toNat + routine.prototype.locals.toNat)
  /-- The stack admits what stays within its limit, as long as the memory is not exhausted. -/
  admits_iff : ∀ more, p.stack.limit < Stack.allocatable ∨
      p.stack.size + more ≤ Stack.allocatable / 2 →
    (p.stack.Admits more ↔ p.stack.size + more ≤ p.stack.limit)
  /-- Then it has got a frame, its locals are laid out above the callee, and nothing else has
  changed. -/
  entered : ∀ q, enter calleeSlot nargs guarded p = .ok () q →
    ∃ routine upvalues, CalleeAt p calleeSlot routine upvalues ∧
      q = { p with
        stack := q.stack
        frames := ⟨routine, 0, calleeSlot, guarded⟩ :: p.frames } ∧
      Lays ⟨routine, 0, calleeSlot, guarded⟩ q (p.stack.toList.take (calleeSlot + 1))
        (localsOf routine.prototype (p.stack.toList.drop (calleeSlot + 1)) upvalues) []
  /-- The instructions for locals go by that layout all the time. -/
  addresses : ∀ routine ip, Addresses ⟨routine, ip, calleeSlot, guarded⟩
  /-- Otherwise nothing has happened. -/
  unchanged : ∀ fault q, enter calleeSlot nargs guarded p = .error fault q → q = p

/-- A call lays out its locals, or does nothing. All that this takes for granted is that the stack
fits, as that of every sound actor does. -/
theorem enters {calleeSlot nargs : Nat} (hfits : p.stack.Fits)
    (hsize : p.stack.size = calleeSlot + 1 + nargs) (guarded : Bool) :
    Enters p calleeSlot nargs guarded := by
  have hspec := Actor.enter_exact hfits calleeSlot nargs guarded
  refine
    { succeeds_iff := ⟨?_, ?_⟩
      admits_iff := fun more => hfits.admits_iff
      entered := fun q hq => ?_
      addresses := fun routine ip => Machine.addresses _
      unchanged := fun fault q hq => (hspec.of_error hq).1 }
  · -- What is laid out above the arguments are the upvalues and the locals of the prototype.
    rintro ⟨q, hq⟩
    obtain ⟨routine, upvalues, stack, henter, hadmits, -⟩ := hspec.of_ok hq
    obtain ⟨hcallee, harguments, hdepth⟩ := enterable_eq_ok_iff.1 henter
    exact ⟨routine, upvalues, hcallee, harguments, hdepth,
      length_frameExtension routine.prototype upvalues ▸ hadmits⟩
  · rintro ⟨routine, upvalues, hcallee, harguments, hdepth, hadmits⟩
    have henter := enterable_eq_ok_iff.2 ⟨hcallee, harguments, hdepth⟩
    rw [← length_frameExtension routine.prototype upvalues] at hadmits
    cases hrun : enter calleeSlot nargs guarded p with
    | ok _ q => exact ⟨q, rfl⟩
    | error fault q => exact absurd hadmits ((hspec.of_error hrun).2 routine upvalues henter)
  · obtain ⟨routine, upvalues, stack, henter, -, rfl, hstack, -, hfits'⟩ := hspec.of_ok hq
    obtain ⟨hcallee, rfl, -⟩ := enterable_eq_ok_iff.1 henter
    refine ⟨routine, upvalues, hcallee, rfl, ?_, ?_, ?_, hfits'⟩
    · rw [← append_frameExtension, ← List.append_assoc, List.take_append_drop, List.append_nil,
        hstack]
    · rw [List.length_take, Stack.length_toList, hsize]
      exact Nat.min_eq_left (Nat.le_add_right _ _)
    · rw [← append_frameExtension, List.length_append, length_frameExtension, List.length_drop,
        Stack.length_toList, hsize, Prototype.frameSize, Nat.add_sub_cancel_left, Nat.add_assoc]

/-- A function that declares two upvalues and a local variable. -/
def spacious : Routine :=
  .loose { Prototype.blank with arguments := 1, upvalues := 2, locals := 1 }

/-- A function that calls its argument with a number. -/
def applier : Routine :=
  .loose { Prototype.blank with arguments := 1, code := #[.loadLocal 0, .int 7, .call 1] }

/-- An actor that is about to call a function which has captured one value, not two. -/
def applying : Actor :=
  stepped .standard 0
    (started {} (.closure applier []) [.closure spacious [.string "a"]]) 2

theorem enters_applying :
    Reached {} applying ∧ applying.stack.Fits ∧ applying.stack.size = 2 + 1 + 1 ∧
      Enters applying 2 1 false := by
  have hreached : Reached {} applying :=
    reached_stepped (reached_started (by decide +kernel)) .standard 0 2
  have hfits := (steady_of_reached hreached).sound.fits
  have hsize : applying.stack.size = 2 + 1 + 1 := by decide +kernel
  exact ⟨hreached, hfits, hsize, enters hfits hsize false⟩

/-- The upvalue that was not captured is nil, and so is the local variable. -/
example :
    (match enter 2 1 false applying with
      | .ok _ q => (q.stack.toList.drop 3).map Value.typeName
      | .error _ _ => []) = ["integer", "string", "nil", "nil"] := by
  decide +kernel

end ActorMachine.Machine
