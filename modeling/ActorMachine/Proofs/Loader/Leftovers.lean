import ActorMachine.Proofs.Agreement
import ActorMachine.Proofs.Loader.Registering
import ActorMachine.Proofs.Loader.Sets

/-!
# What a library leaves behind that is not registered

A malformed entry keeps a library from being registered. The natives of the entries before it stay,
under numbers to which no name leads, and all numbers that are given out later are moved by them.

* `Call`, `Answer`: what a loader can be asked and told to do, and what it answers.
* `Displaced`: the second loader is the first one with some natives put in at a number. What is
  asked of both comes to the same up to the numbers that are moved (`Displaced.answers`).
* `addLibrary_exact`: a refused library goes unnoticed exactly if it leaves no native behind;
  otherwise the numbers are moved, and nothing else is different. A registered one has each of its
  names lead to the last entry of it, whatever happens later, and every native keeps its number.
-/

namespace ActorMachine

/-- The number of a native after `extra` natives were put in at the number `n`. -/
def NativeId.renumber (n extra : Nat) (id : NativeId) : NativeId :=
  ⟨if id.index < n then id.index else id.index + extra⟩

/-- The symbol with the number of its native moved. -/
def Symbol.renumber (n extra : Nat) : Symbol → Symbol
  | native id => native (id.renumber n extra)
  | function routine => function routine

namespace Loader

variable {l l' m : Loader} {n : Nat} {extra : List Native} {id : NativeId}

/-! ### Calls and answers -/

/-- What a loader can be asked and told to do. -/
inductive Call
  /-- The native of a number is asked for. -/
  | native (id : NativeId)
  /-- What a name of a module stands for is asked for. -/
  | resolve (module name : String)
  /-- A library is registered. -/
  | addLibrary (library : Library)
  /-- A module is taken in. -/
  | addChunk (module : Prototype)
  /-- All pending modules are linked. -/
  | link
  /-- Replaced modules of which nothing is kept are dropped. -/
  | collectGarbage (outside : List Routine)
  /-- A listener is registered. -/
  | addListener (listener : Listener)

/-- What a loader answers. -/
inductive Answer
  /-- The native of a number, if there is one. -/
  | native (found : Option Native)
  /-- What a name stands for. -/
  | symbol (result : Except Fault Symbol)
  /-- A library was registered or not. -/
  | registered (result : Except Fault Unit)
  /-- The number of a module that was taken in. -/
  | taken (result : Except Fault ChunkId)
  /-- What a link has done. -/
  | linked (result : Except Fault Linking)
  /-- Number of the modules that were dropped. -/
  | dropped (count : Nat)
  /-- It is done. -/
  | done

/-- Runs an action and answers its result or its fault. -/
def reply {α : Type} (answer : Except Fault α → Answer) (act : Action α) (l : Loader) :
    Answer × Loader :=
  match act l with
  | .ok a l => (answer (.ok a), l)
  | .error fault l => (answer (.error fault), l)

/-- What a call is answered, and the loader afterwards. -/
def Call.run : Call → Loader → Answer × Loader
  | native id, l => (.native (l.native? id), l)
  | resolve module name, l => (.symbol (l.resolve module name), l)
  | addLibrary library, l => reply .registered (Loader.addLibrary library) l
  | addChunk module, l => reply .taken (Loader.addChunk module) l
  | link, l => reply .linked Loader.link l
  | collectGarbage outside, l =>
    (.dropped (l.collectGarbage outside).1, (l.collectGarbage outside).2)
  | addListener listener, l => (.done, l.addListener listener)

/-- The loader after some calls. -/
def afterAll : List Call → Loader → Loader
  | [], l => l
  | call :: calls, l => afterAll calls (call.run l).2

/-- What some calls are answered, one after the other. -/
def answers : List Call → Loader → List Answer
  | [], _ => []
  | call :: calls, l => (call.run l).1 :: answers calls (call.run l).2

/-- What an action ensures whether it fails or not holds after a call of it. -/
theorem reply_of_ensures {α : Type} {answer : Except Fault α → Answer} {act : Action α}
    {post : Loader → Prop} (hact : Ensures act l (fun _ => post) fun _ => post) :
    post (reply answer act l).2 := by
  rw [reply]
  cases hrun : act l with
  | ok a l' => exact hact.of_ok hrun
  | error fault l' => exact hact.of_error hrun

/-- Making modules run does not concern the libraries. -/
theorem registry_foldl (chunks : List Chunk) (report : LinkReport) (l : Loader) :
    (chunks.foldl promote (report, l)).2.natives = l.natives ∧
      (chunks.foldl promote (report, l)).2.libraries = l.libraries := by
  induction chunks generalizing report l with
  | nil => exact ⟨rfl, rfl⟩
  | cons chunk chunks ih =>
    rw [List.foldl_cons, promote_eq]
    exact ih _ _

/-- The same natives are registered, in the same libraries. -/
structure SameRegistry (l l' : Loader) : Prop where
  /-- The natives are the same. -/
  natives : l'.natives = l.natives
  /-- The tables are the same. -/
  libraries : l'.libraries = l.libraries

/-- Only registering a library concerns the natives and the tables. -/
theorem registry_run (call : Call) (l : Loader) :
    (∃ library, call = .addLibrary library) ∨ SameRegistry l (call.run l).2 := by
  cases call with
  | addLibrary library => exact .inl ⟨library, rfl⟩
  | addChunk module =>
    refine .inr (reply_of_ensures ((addChunk_spec l module).mono ?_ ?_))
    · rintro _ _ ⟨-, rfl⟩
      exact ⟨rfl, rfl⟩
    · rintro _ _ rfl
      exact ⟨rfl, rfl⟩
  | link =>
    refine .inr (reply_of_ensures ?_)
    rw [link, ensures_bind, ensures_get]
    split
    next => exact ⟨rfl, rfl⟩
    next =>
      obtain ⟨hnatives, hlibraries⟩ := registry_foldl l.pending {} { l with pending := [] }
      exact ⟨hnatives, hlibraries⟩
  | _ => exact .inr ⟨rfl, rfl⟩

theorem grows_run (call : Call) (l : Loader) : Grows l (call.run l).2 := by
  rcases registry_run call l with ⟨library, rfl⟩ | hsame
  · exact reply_of_ensures (grows_addLibrary l library)
  · exact grows_of_eq hsame.natives hsame.libraries

/-- Whatever is called, natives keep their numbers and libraries their tables. -/
theorem grows_afterAll (calls : List Call) (l : Loader) : Grows l (afterAll calls l) := by
  induction calls generalizing l with
  | nil => exact grows_of_eq rfl rfl
  | cons call calls ih => exact (grows_run call l).trans (ih _)

/-! ### Numbers in use -/

/-- Tables lead to natives that are there. -/
def Numbered (l : Loader) : Prop :=
  ∀ entry ∈ l.libraries, ∀ named ∈ entry.2, named.2.index < l.natives.size

theorem Numbered.withNatives (hl : l.Numbered) (natives : List Native) :
    (l.withNatives natives).Numbered := by
  intro entry hentry named hnamed
  rw [size_natives_withNatives]
  exact Nat.lt_add_right _ (hl entry hentry named hnamed)

theorem numbered_addLibrary (hl : l.Numbered) (library : Library) :
    Ensures (addLibrary library) l (fun _ => Numbered) fun _ => Numbered := by
  have hnew := hl.withNatives (l.newNatives library)
  refine (addLibrary_spec l library).mono ?_ ?_
  · rintro _ _ ⟨-, rfl⟩
    intro entry hentry named hnamed
    rcases List.mem_cons.1 hentry with rfl | hentry
    · obtain ⟨-, -, -, -, hlt⟩ := mem_numbered (List.mem_reverse.1 hnamed)
      simpa using hlt
    · exact hnew entry hentry named hnamed
  · rintro _ _ ⟨-, rfl⟩
    exact hnew

theorem Numbered.run (hl : l.Numbered) (call : Call) : (call.run l).2.Numbered := by
  rcases registry_run call l with ⟨library, rfl⟩ | hsame
  · exact reply_of_ensures (numbered_addLibrary hl library)
  · rw [Numbered, hsame.natives, hsame.libraries]
    exact hl

theorem Numbered.afterAll (hl : l.Numbered) (calls : List Call) : (afterAll calls l).Numbered := by
  induction calls generalizing l with
  | nil => exact hl
  | cons call calls ih => exact ih (hl.run call)

/-! ### Numbers that are moved -/

/-- The second loader is the first one with some natives put in at the number `n`. -/
structure Displaced (n : Nat) (extra : List Native) (l m : Loader) : Prop where
  /-- The natives before and behind are the same. -/
  natives : ∃ first rest, first.length = n ∧ l.natives.toList = first ++ rest ∧
    m.natives.toList = first ++ (extra ++ rest)
  /-- Tables lead to the same natives under the numbers that these have now. -/
  libraries : m.libraries = l.libraries.map fun entry =>
    (entry.1, entry.2.map fun named => (named.1, named.2.renumber n extra.length))
  /-- The modules are the same: those that are not linked, -/
  pending : m.pending = l.pending
  /-- those that imports can reach -/
  running : m.running = l.running
  /-- and those that were replaced. -/
  garbage : m.garbage = l.garbage
  /-- As many modules were taken in, -/
  nextChunk : m.nextChunk = l.nextChunk
  /-- the same listeners are told of links, -/
  listeners : m.listeners = l.listeners
  /-- and the embedding program holds the same. -/
  holds : m.holds = l.holds

/-- The call with the number that it asks for moved. -/
def Call.renumber (n extra : Nat) : Call → Call
  | native id => native (id.renumber n extra)
  | call => call

/-- The answer with the number of its symbol moved. -/
def Answer.renumber (n extra : Nat) : Answer → Answer
  | symbol result => symbol (result.map (Symbol.renumber n extra))
  | answer => answer

/-- What is looked up behind values that were changed is the changed value. -/
theorem lookup_map_snd {α β γ : Type} [BEq α] (f : β → γ) (key : α) (entries : List (α × β)) :
    (entries.map fun entry => (entry.1, f entry.2)).lookup key = (entries.lookup key).map f := by
  induction entries with
  | nil => rfl
  | cons entry entries ih =>
    rw [List.map_cons, List.lookup_cons, List.lookup_cons, ih]
    split <;> rfl

namespace Displaced

theorem native? (h : Displaced n extra l m) (id : NativeId) :
    m.native? (id.renumber n extra.length) = l.native? id := by
  obtain ⟨first, rest, rfl, hl, hm⟩ := h.natives
  rw [Loader.native?, Loader.native?, ← Array.getElem?_toList, ← Array.getElem?_toList, hl, hm,
    NativeId.renumber]
  by_cases hlt : id.index < first.length
  · rw [if_pos hlt, List.getElem?_append_left hlt, List.getElem?_append_left hlt]
  · rw [if_neg hlt]
    dsimp only
    rw [List.getElem?_append_right (by omega), List.getElem?_append_right (by omega),
      List.getElem?_append_right (by omega)]
    congr 1
    omega

/-- The next native gets a number that is moved. -/
theorem size (h : Displaced n extra l m) :
    (⟨m.natives.size⟩ : NativeId) = NativeId.renumber n extra.length ⟨l.natives.size⟩ := by
  obtain ⟨first, rest, rfl, hl, hm⟩ := h.natives
  have hsize := congrArg List.length hl
  have hsize' := congrArg List.length hm
  simp only [List.length_append, Array.length_toList] at hsize hsize'
  have hmoved : m.natives.size = l.natives.size + extra.length := by omega
  rw [NativeId.renumber, if_neg (by dsimp only; omega), hmoved]

theorem lookup (h : Displaced n extra l m) (module : String) :
    m.libraries.lookup module = (l.libraries.lookup module).map fun table =>
      table.map fun named => (named.1, named.2.renumber n extra.length) := by
  rw [h.libraries, lookup_map_snd]

theorem resolve (h : Displaced n extra l m) (module name : String) :
    m.resolve module name = (l.resolve module name).map (Symbol.renumber n extra.length) := by
  rw [Loader.resolve, Loader.resolve, resolve?, resolve?, h.lookup, h.running]
  cases l.libraries.lookup module with
  | some table =>
    dsimp only [Option.map_some]
    rw [lookup_map_snd]
    cases table.lookup name <;> rfl
  | none =>
    dsimp only [Option.map_none]
    cases l.running.reverse.find? fun chunk => chunk.name = module with
    | none => rfl
    | some chunk =>
      dsimp only
      cases chunk.root.find? name <;> rfl

theorem isResolvable (h : Displaced n extra l m) (i : Import String) :
    m.isResolvable i = l.isResolvable i := by
  rw [Loader.isResolvable, Loader.isResolvable, h.lookup, h.running, h.pending]
  cases l.libraries.lookup i.module with
  | some table =>
    dsimp only [Option.map_some]
    rw [lookup_map_snd, Option.isSome_map]
  | none => rfl

theorem unresolved? (h : Displaced n extra l m) : m.unresolved? = l.unresolved? := by
  rw [Loader.unresolved?, Loader.unresolved?, h.pending]
  simp only [h.isResolvable]

/-- The next native goes behind all others. -/
theorem push (h : Displaced n extra l m) (native : Native) :
    Displaced n extra { l with natives := l.natives.push native }
      { m with natives := m.natives.push native } := by
  obtain ⟨first, rest, hfirst, hl, hm⟩ := h.natives
  refine { h with natives := ⟨first, rest ++ [native], hfirst, ?_, ?_⟩ }
  · rw [Array.toList_push, hl, List.append_assoc]
  · rw [Array.toList_push, hm, List.append_assoc, List.append_assoc]

/-- A library is registered in both or in neither, under numbers that are moved. -/
theorem respects_addLibrary (library : Library) :
    Respects (Displaced n extra) Eq (addLibrary library) := by
  refine agrees_get_bind fun l m h => ?_
  dsimp only
  rw [h.lookup, Option.isSome_map]
  split
  next => exact agrees_throw_bind _ _ _
  next =>
    have hsame : List.Forall₂ Eq library.entries library.entries :=
      List.forall₂_same.2 fun _ _ => rfl
    let moved (named : String × NativeId) := (named.1, named.2.renumber n extra.length)
    -- Each entry gets a number of its own, so the entries of the two tables are matched one by one.
    refine (agrees_mapM (R := fun named named' => moved named = named') hsame
      fun entry _ heq => ?_).bind fun table table' htable => ?_
    · subst heq
      refine agrees_look_same fun read => agrees_modifyGet fun l m h => ?_
      obtain ⟨name, arity⟩ := read
      exact ⟨congrArg (name, ·) h.size.symm, h.push _⟩
    · obtain rfl : table.map moved = table' := by
        rwa [← List.forall₂_map_left_iff, List.forall₂_eq_eq_eq] at htable
      refine agrees_modify fun l m h => { h with libraries := ?_ }
      rw [h.libraries, List.map_cons, List.map_reverse]

theorem respects_addChunk (module : Prototype) :
    Respects (Displaced n extra) Eq (addChunk module) := by
  rw [addChunk]
  split
  next => exact agrees_throw_bind _ _ _
  next =>
    refine agrees_modifyGet fun l m h => ⟨by rw [h.nextChunk], { h with
      nextChunk := by rw [h.nextChunk]
      pending := by rw [h.pending, h.nextChunk] }⟩

theorem promote (h : Displaced n extra l m) (report : LinkReport) (chunk : Chunk) :
    (Loader.promote (report, m) chunk).1 = (Loader.promote (report, l) chunk).1 ∧
      Displaced n extra (Loader.promote (report, l) chunk).2
        (Loader.promote (report, m) chunk).2 := by
  have hreplaced : m.replacedBy chunk = l.replacedBy chunk := by
    rw [replacedBy, replacedBy, h.running]
  have hremaining : m.remaining chunk = l.remaining chunk := by
    rw [remaining, remaining, h.running]
  rw [promote_eq, promote_eq, hreplaced, hremaining]
  exact ⟨rfl, { h with running := rfl, garbage := by rw [h.garbage] }⟩

theorem foldl (h : Displaced n extra l m) (chunks : List Chunk) (report : LinkReport) :
    (chunks.foldl Loader.promote (report, m)).1 = (chunks.foldl Loader.promote (report, l)).1 ∧
      Displaced n extra (chunks.foldl Loader.promote (report, l)).2
        (chunks.foldl Loader.promote (report, m)).2 := by
  induction chunks generalizing report l m with
  | nil => exact ⟨rfl, h⟩
  | cons chunk chunks ih =>
    obtain ⟨hreport, hpromoted⟩ := h.promote report chunk
    have hrest := ih hpromoted (Loader.promote (report, l) chunk).1
    rw [List.foldl_cons, List.foldl_cons]
    generalize Loader.promote (report, l) chunk = acc at *
    generalize Loader.promote (report, m) chunk = acc' at *
    obtain ⟨report', l'⟩ := acc
    obtain ⟨_, m'⟩ := acc'
    obtain rfl := hreport
    exact hrest

/-- Links come to the same: which natives there are is all that they ask for. -/
theorem respects_link : Respects (Displaced n extra) Eq link := by
  refine agrees_get_bind fun l m h => ?_
  rw [h.unresolved?]
  split
  next => exact agrees_throw _
  next =>
    refine agrees_modifyGet fun l m h => ?_
    have hempty : Displaced n extra { l with pending := [] } { m with pending := [] } :=
      { h with pending := rfl }
    obtain ⟨hreport, hlinked⟩ := hempty.foldl l.pending {}
    rw [h.pending]
    exact ⟨by dsimp only; rw [hreport, hlinked.listeners], hlinked⟩

theorem collectGarbage (h : Displaced n extra l m) (outside : List Routine) :
    (m.collectGarbage outside).1 = (l.collectGarbage outside).1 ∧
      Displaced n extra (l.collectGarbage outside).2 (m.collectGarbage outside).2 := by
  have hheld : m.heldRoutines = l.heldRoutines := by
    rw [heldRoutines, heldRoutines, h.holds]
  rw [Loader.collectGarbage, Loader.collectGarbage, hheld, h.garbage]
  exact ⟨rfl, { h with garbage := rfl }⟩

/-! ### What is answered -/

/-- An action that does not notice the numbers is answered alike. -/
theorem reply (h : Displaced n extra l m) {α : Type} {answer : Except Fault α → Answer}
    {act : Action α} (hact : Respects (Displaced n extra) Eq act)
    (hanswer : ∀ result, (answer result).renumber n extra.length = answer result) :
    (Loader.reply answer act m).1 = (Loader.reply answer act l).1.renumber n extra.length ∧
      Displaced n extra (Loader.reply answer act l).2 (Loader.reply answer act m).2 := by
  rw [Loader.reply, Loader.reply]
  rcases hact.runs h with ⟨a, _, l', m', hl, hm, rfl, h'⟩ | ⟨fault, l', m', hl, hm, h'⟩
  · rw [hl, hm]
    exact ⟨(hanswer _).symm, h'⟩
  · rw [hl, hm]
    exact ⟨(hanswer _).symm, h'⟩

/-- A call is answered alike but for the numbers. -/
theorem run (h : Displaced n extra l m) (call : Call) :
    ((call.renumber n extra.length).run m).1 = (call.run l).1.renumber n extra.length ∧
      Displaced n extra (call.run l).2 ((call.renumber n extra.length).run m).2 := by
  cases call with
  | native id => exact ⟨congrArg Answer.native (h.native? id), h⟩
  | resolve module name => exact ⟨congrArg Answer.symbol (h.resolve module name), h⟩
  | addLibrary library => exact h.reply (respects_addLibrary library) fun _ => rfl
  | addChunk module => exact h.reply (respects_addChunk module) fun _ => rfl
  | link => exact h.reply respects_link fun _ => rfl
  | collectGarbage outside =>
    obtain ⟨hcount, h'⟩ := h.collectGarbage outside
    exact ⟨congrArg Answer.dropped hcount, h'⟩
  | addListener listener =>
    exact ⟨rfl, { h with listeners := congrArg (· ++ [listener]) h.listeners }⟩

/-- So are all calls, one after the other. -/
theorem answers (h : Displaced n extra l m) (calls : List Call) :
    Loader.answers (calls.map (Call.renumber n extra.length)) m =
      (Loader.answers calls l).map (Answer.renumber n extra.length) := by
  induction calls generalizing l m with
  | nil => rfl
  | cons call calls ih =>
    obtain ⟨hanswer, h'⟩ := h.run call
    rw [List.map_cons, Loader.answers, Loader.answers, List.map_cons, hanswer, ih h']

end Displaced

/-- Natives that are put behind all others are put in at the next number. No name leads there. -/
theorem displaced_withNatives (hl : l.Numbered) (extra : List Native) :
    Displaced l.natives.size extra l (l.withNatives extra) where
  natives := ⟨l.natives.toList, [], Array.length_toList, by simp, by simp [withNatives]⟩
  libraries := by
    -- A number that a name leads to is one of those that were given, and these are not moved.
    have hsame : ∀ entry ∈ l.libraries,
        (entry.1, entry.2.map fun named =>
          (named.1, named.2.renumber l.natives.size extra.length)) = id entry := by
      intro entry hentry
      have hnames : (entry.2.map fun named =>
          (named.1, named.2.renumber l.natives.size extra.length)) = entry.2.map id :=
        List.map_congr_left fun named hnamed => by
          rw [NativeId.renumber, if_pos (hl entry hentry named hnamed), id]
      rw [hnames, List.map_id, id]
    rw [List.map_congr_left hsame, List.map_id]
    rfl
  pending := rfl
  running := rfl
  garbage := rfl
  nextChunk := rfl
  listeners := rfl
  holds := rfl

/-- What is asked for behind the natives that were there tells whether there are more. -/
theorem eq_nil_of_answers
    (hsame : ∀ calls, answers calls (l.withNatives extra) = answers calls l) : extra = [] := by
  have hnative := hsame [.native ⟨l.natives.size⟩]
  simp only [answers, Call.run, native?, withNatives, List.cons.injEq, Answer.native.injEq] at hnative
  simpa using hnative

/-- Exactly what registering a library does, to whatever loader. It succeeds exactly if the name is
free and no entry is malformed. If it does not, later calls are answered as if it had not been tried
exactly if no native is left behind: the name was taken, or already the first entry is malformed. In
any case they are answered alike up to the numbers that the natives left behind have moved. If it
does, then whatever is called later, the last entry of each name leads to its native, and every
native keeps its number and remains what its name stands for. -/
theorem addLibrary_exact (earlier : List Call) (library : Library)
    (hl : afterAll earlier .empty = l) :
    ((∃ l', addLibrary library l = .ok () l') ↔ l.Accepts library) ∧
    (∀ fault l', addLibrary library l = .error fault l' →
      ((∀ calls, answers calls l' = answers calls l) ↔ l.newNatives library = []) ∧
      ∀ calls,
        answers (calls.map (Call.renumber l.natives.size (l.newNatives library).length)) l' =
          (answers calls l).map (Answer.renumber l.natives.size (l.newNatives library).length)) ∧
    ∀ l', addLibrary library l = .ok () l' → ∀ later,
      (∀ id native, l.native? id = some native →
        (afterAll later l').native? id = some native) ∧
      (∀ module name id, l.resolve module name = .ok (.native id) →
        (afterAll later l').resolve module name = .ok (.native id)) ∧
      ∀ before entry after name arity, library.entries = before ++ entry :: after →
        Library.readEntry entry.1 = .ok (name, arity) →
        (∀ other ∈ after, ∀ arity, Library.readEntry other.1 ≠ .ok (name, arity)) →
        ∃ id, (afterAll later l').resolve library.name name = .ok (.native id) ∧
          (afterAll later l').native? id =
            some { library := library.name, name, arity, body := entry.2 } := by
  -- Numbers are given only to what is registered, which each call keeps.
  have hnumbered : l.Numbered := by
    rw [← hl]
    exact Numbered.afterAll (fun _ hentry => absurd hentry List.not_mem_nil) earlier
  have hspec := addLibrary_spec l library
  refine ⟨⟨fun ⟨l', hok⟩ => (hspec.of_ok hok).1, fun haccepts => ?_⟩, fun fault l' hfail => ?_,
    fun l' hok later => ?_⟩
  · cases hrun : addLibrary library l with
    | ok _ l' => exact ⟨l', rfl⟩
    | error fault l' => exact absurd haccepts (hspec.of_error hrun).1
  · obtain ⟨-, rfl⟩ := hspec.of_error hfail
    refine ⟨⟨eq_nil_of_answers, fun hnil => ?_⟩,
      (displaced_withNatives hnumbered (l.newNatives library)).answers⟩
    rw [hnil, withNatives_nil]
    exact fun _ => rfl
  · obtain ⟨haccepts, rfl⟩ := hspec.of_ok hok
    have hnow := (grows_addLibrary l library).of_ok hok
    -- Later calls add to what there is and take nothing away.
    have hlater := grows_afterAll later { l.withNatives (l.newNatives library) with
      libraries := (library.name, (numbered l.natives.size (l.newNatives library)).reverse) ::
        l.libraries }
    refine ⟨fun id native hnative => (hnow.trans hlater).natives hnative,
      fun module name id hresolve => (hnow.trans hlater).resolve hresolve,
      fun before entry after name arity hentries hread hlast => ?_⟩
    obtain ⟨id, hid, hnative⟩ := lookup_newNatives haccepts hentries hread hlast
    refine ⟨id, hlater.resolve ?_, hlater.natives hnative⟩
    rw [resolve, resolve?, List.lookup_cons, beq_self_eq_true]
    dsimp only
    rw [hid]
    rfl

/-- A library with a malformed entry behind one that is not. -/
def malformed : Library where
  name := "bad"
  entries := [("f", .function .constantNil), ("g/x", .function .constantNil)]

/-- A library with two entries of one name. -/
def overloaded : Library where
  name := "good"
  entries := [("h/2", .function .constantNil), ("h", .protectedCall)]

/-- A native of the refused library stays, and the numbers of the next library are moved by one.
Registered in the other order, the refused library has nothing to do with the numbers. -/
theorem addLibrary_exact_malformed :
    (∃ fault l', addLibrary malformed .empty = .error fault l' ∧
      ¬ (∀ calls, answers calls l' = answers calls .empty) ∧
      answers [.addLibrary overloaded, .resolve "good" "h"] l' =
        [.registered (.ok ()), .symbol (.ok (.native ⟨2⟩))]) ∧
    ∃ l' id, addLibrary overloaded .empty = .ok () l' ∧
      (afterAll [.addLibrary malformed] l').resolve "good" "h" = .ok (.native id) ∧
      (afterAll [.addLibrary malformed] l').native? id =
        some { library := "good", name := "h", arity := none, body := .protectedCall } := by
  refine ⟨?_, ?_⟩
  · obtain ⟨-, hfail, -⟩ := addLibrary_exact [] malformed rfl
    obtain ⟨fault, l', hrun⟩ : ∃ fault l', addLibrary malformed .empty = .error fault l' :=
      ⟨_, _, rfl⟩
    obtain ⟨hiff, hmoved⟩ := hfail fault l' hrun
    refine ⟨fault, l', hrun, fun hsame => absurd (hiff.1 hsame) (by decide), ?_⟩
    exact (hmoved [.addLibrary overloaded, .resolve "good" "h"]).trans rfl
  · obtain ⟨-, -, hok⟩ := addLibrary_exact [] overloaded rfl
    obtain ⟨l', hrun⟩ : ∃ l', addLibrary overloaded .empty = .ok () l' := ⟨_, rfl⟩
    obtain ⟨-, -, hlast⟩ := hok l' hrun [.addLibrary malformed]
    obtain ⟨id, hid, hnative⟩ := hlast [("h/2", .function .constantNil)] ("h", .protectedCall) []
      "h" none rfl rfl nofun
    exact ⟨l', id, hrun, hid, hnative⟩

/-- A refused library can be noticed, so registration is not all or nothing. -/
theorem not_all_or_nothing :
    ¬ ∀ (earlier : List Call) (library : Library) (fault : Fault) (l' : Loader),
      addLibrary library (afterAll earlier .empty) = .error fault l' →
      ∀ calls, answers calls l' = answers calls (afterAll earlier .empty) := by
  intro hclaim
  have hsame := hclaim [] malformed _ _ rfl [.native ⟨0⟩]
  exact absurd hsame nofun

end Loader

end ActorMachine
