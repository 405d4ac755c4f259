import ActorMachine.Proofs.Assembly.Building
import ActorMachine.Proofs.Chunk.Grammar

/-!
# Chunks that were cut off

A chunk whose end is missing is never taken for a smaller one: wherever it was cut, inside a number,
a tag or a text or between the elements of a list, the reader comes to the end of the bytes while it
needs more of them.

* `RunsShort`: the statement for a reader and the bytes that were written for it, with a rule for
  each way of building a reader. Those rules need that what stands before the cut is read, so they
  go hand in hand with `Reads`.
* `runsShort_draft`, `runsShort_body`: the readers of the format.
* `load_take_save`: what loading answers for every beginning of a saved module.
-/

namespace ActorMachine

/-- The bytes have ended where there had to be more of them. -/
def WireFault.IsShortage (fault : WireFault) : Prop :=
  fault = .unexpectedEnd ∨ fault = .textTooLong

theorem WireFault.IsShortage.category_eq {fault : WireFault} (h : fault.IsShortage) :
    fault.category = "Io" := by
  rcases h with rfl | rfl <;> rfl

namespace Wire

variable {α β : Type} {read : Reader α} {f : α → Reader β} {bytes bytes' : Bytes} {a : α}
  {limit limit' : Nat}

/-- If the last of these bytes are cut off and no more than `limit` of them are left, the reader
answers that there had to be more. -/
def RunsShort (limit : Nat) (read : Reader α) (bytes : Bytes) : Prop :=
  ∀ front cut, front ++ cut = bytes → cut ≠ [] → front.length ≤ limit →
    ∃ fault, read.run front = .error fault ∧ fault.IsShortage

/-! ### Building readers -/

theorem RunsShort.mono (h : RunsShort limit read bytes) (hle : limit' ≤ limit) :
    RunsShort limit' read bytes :=
  fun front cut hbytes hcut hlength => h front cut hbytes hcut (Nat.le_trans hlength hle)

/-- From no bytes nothing can be cut off. -/
theorem runsShort_nil (limit : Nat) (read : Reader α) : RunsShort limit read [] :=
  fun _ _ hbytes hcut _ => absurd (List.append_eq_nil_iff.1 hbytes).2 hcut

/-- What is made of the answer does not matter if there is none. -/
theorem RunsShort.andThen (h : RunsShort limit read bytes) (f : α → Reader β) :
    RunsShort limit (read >>= f) bytes := by
  intro front cut hbytes hcut hlength
  obtain ⟨fault, hfault, hshort⟩ := h front cut hbytes hcut hlength
  refine ⟨fault, ?_, hshort⟩
  rw [StateT.run_bind, hfault]
  rfl

theorem RunsShort.map (h : RunsShort limit read bytes) (g : α → β) :
    RunsShort limit (g <$> read) bytes :=
  bind_pure_comp g read ▸ h.andThen _

/-- The cut is in what is read first, or what is read first is still there and the cut is in the
rest. -/
theorem RunsShort.bind (h : RunsShort limit read bytes)
    (hread : bytes.length ≤ limit → Reads read bytes a)
    (hf : RunsShort (limit - bytes.length) (f a) bytes') :
    RunsShort limit (read >>= f) (bytes ++ bytes') := by
  intro front cut hbytes hcut hlength
  rcases List.append_eq_append_iff.1 hbytes with ⟨middle, rfl, rfl⟩ | ⟨middle, rfl, rfl⟩
  · by_cases hmiddle : middle = []
    · -- The cut is where the rest begins.
      subst hmiddle
      rw [List.append_nil] at hread hf
      obtain ⟨fault, hfault, hshort⟩ := hf [] bytes' rfl (by simpa using hcut) (Nat.zero_le _)
      refine ⟨fault, ?_, hshort⟩
      have hfirst := hread hlength []
      rw [List.append_nil] at hfirst
      rw [StateT.run_bind, hfirst]
      exact hfault
    · exact (h.andThen f) front middle rfl hmiddle hlength
  · rw [List.length_append] at hlength
    obtain ⟨fault, hfault, hshort⟩ := hf middle cut rfl hcut (by omega)
    refine ⟨fault, ?_, hshort⟩
    rw [StateT.run_bind, hread (by omega)]
    exact hfault

/-! ### Numbers -/

theorem runsShort_byte (limit : Nat) (b : UInt8) : RunsShort limit readByte (byte b) := by
  intro front cut hbytes hcut _
  cases front with
  | nil => exact ⟨.unexpectedEnd, rfl, .inl rfl⟩
  | cons x front =>
    -- There is one byte only, so nothing is left of it.
    have hnil := (List.append_eq_nil_iff.1 (List.cons.inj hbytes).2).2
    exact absurd hnil hcut

theorem runsShort_number (limit width n : Nat) :
    RunsShort limit (readNumber width) (number width n) := by
  induction width generalizing limit n with
  | zero => exact runsShort_nil limit _
  | succ width ih =>
    exact (runsShort_byte limit _).bind (fun _ => reads_byte _) ((ih _ _).andThen _)

theorem runsShort_bool (limit : Nat) (b : Bool) : RunsShort limit readBool (bool b) :=
  (runsShort_byte limit _).andThen _

theorem runsShort_word (limit : Nat) (n : UInt32) : RunsShort limit readWord (word n) :=
  (runsShort_number limit 4 n.toNat).map _

theorem runsShort_signedWord (limit : Nat) (i : Int32) :
    RunsShort limit readSignedWord (signedWord i) :=
  (runsShort_word limit i.toUInt32).map _

theorem runsShort_long (limit n : Nat) : RunsShort limit readLong (number 8 n) :=
  (runsShort_number limit 8 n).map _

/-! ### Lists and texts -/

/-- Some elements are still there, and the cut is in the one after them. -/
theorem runsShort_many {write : α → Bytes} {as : List α}
    (h : ∀ a ∈ as, RunsShort limit read (write a))
    (hread : ∀ a ∈ as, (write a).length ≤ limit → Reads read (write a) a) :
    RunsShort limit (readMany read as.length) (as.flatMap write) := by
  induction as generalizing limit with
  | nil => exact runsShort_nil limit _
  | cons a as ih =>
    obtain ⟨ha, has⟩ := List.forall_mem_cons.1 h
    obtain ⟨hreada, hreadas⟩ := List.forall_mem_cons.1 hread
    have hrest : RunsShort (limit - (write a).length) (readMany read as.length)
        (as.flatMap write) :=
      ih (fun b hb => (has b hb).mono (Nat.sub_le _ _))
        fun b hb hlength => hreadas b hb (Nat.le_trans hlength (Nat.sub_le _ _))
    rw [List.flatMap_cons]
    exact ha.bind hreada (hrest.andThen _)

theorem runsShort_list {write : α → Bytes} {as : List α} (hwrite : ∀ a, write a ≠ [])
    (hsize : (list write as).length ≤ Capacity.maxWord)
    (h : ∀ a ∈ as, RunsShort limit read (write a))
    (hread : ∀ a ∈ as, (write a).length ≤ limit → Reads read (write a) a) :
    RunsShort limit (readList read) (list write as) := by
  have hlength := Nat.le_trans (length_le_length_list hwrite) hsize
  refine (runsShort_number limit 8 _).bind
    (fun _ => reads_number (Nat.lt_succ_of_le hlength)) (runsShort_many ?_ ?_)
  · exact fun a ha => (h a ha).mono (Nat.sub_le _ _)
  · exact fun a ha hle => hread a ha (Nat.le_trans hle (Nat.sub_le _ _))

theorem runsShort_bytes (limit : Nat) (bytes : Bytes) :
    RunsShort limit (readBytes bytes.length) bytes := by
  rintro front cut rfl hcut _
  have hpos := List.length_pos_iff.2 hcut
  have hlt : front.length < (front ++ cut).length := by
    rw [List.length_append]
    omega
  exact ⟨.textTooLong, if_pos hlt, .inr rfl⟩

theorem runsShort_text {s : String} (hsize : (text s).length ≤ Capacity.maxWord) :
    RunsShort limit readText (text s) := by
  have hlength : s.toUTF8.data.toList.length ≤ Capacity.maxWord :=
    Nat.le_trans (length_le_length_list fun b => List.cons_ne_nil b []) hsize
  rw [text, list, flatMap_byte]
  exact (runsShort_number limit 8 _).bind (fun _ => reads_number (Nat.lt_succ_of_le hlength))
    ((runsShort_bytes _ _).andThen _)

/-! ### Parts of a draft -/

/-- The tag is cut off, or it is there and the cut is in what it announces. -/
theorem runsShort_tagged {n : Nat} {f : Nat → Reader β} (hn : n < numbers 4)
    (hf : ∀ limit, RunsShort limit (f n) bytes) :
    RunsShort limit (readNumber 4 >>= f) (tag n ++ bytes) :=
  (runsShort_number limit 4 n).bind (fun _ => reads_number hn) (hf _)

theorem runsShort_instruction (limit : Nat) (i : Instruction) :
    RunsShort limit readInstruction (instruction i) := by
  cases i with
  | nop | breakpoint | nil | ret | send | remove | rewind =>
    exact (runsShort_number limit 4 _).andThen _
  | bool b => exact runsShort_tagged (by decide) fun limit => (runsShort_bool limit b).map _
  | int i | jump i | jumpUnless i | receive i =>
    exact runsShort_tagged (by decide) fun limit => (runsShort_signedWord limit i).map _
  | pop n | constant n | loadLocal n | storeLocal n | importSymbol n | makeClosure n | call n =>
    exact runsShort_tagged (by decide) fun limit => (runsShort_word limit n).map _

theorem runsShort_stringRef (limit : Nat) (r : StringRef) :
    RunsShort limit readStringRef (stringRef r) :=
  (runsShort_word limit r.index).map _

theorem runsShort_constant (limit : Nat) (c : Constant StringRef) :
    RunsShort limit readConstant (constant c) := by
  cases c with
  | int i => exact runsShort_tagged (by decide) fun limit => (runsShort_long limit _).andThen _
  | text r => exact runsShort_tagged (by decide) fun limit => (runsShort_stringRef limit r).map _
  | real x => exact runsShort_tagged (by decide) fun limit => (runsShort_long limit _).andThen _

theorem runsShort_importEntry (limit : Nat) (i : Import StringRef) :
    RunsShort limit readImport (importEntry i) :=
  (runsShort_stringRef limit i.module).bind (fun _ => reads_stringRef i.module)
    ((runsShort_stringRef _ i.name).andThen _)

/-! ### Drafts -/

/-- A draft has fewer levels below it than it takes bytes. -/
theorem height_lt_length_draft {d : Draft} (hsize : (draft d).length ≤ Capacity.maxWord) :
    d.height < (draft d).length := by
  have hread := reads_draft (Nat.lt_succ_self d.height) hsize []
  obtain ⟨-, word, hmem, hword⟩ := (Grammar.recognizes_draft _ _ _ _).1 hread
  rw [List.append_nil, List.append_nil] at hword
  exact hword ▸ Grammar.height_lt_of_mem_tree hmem

/-- With as many levels to go down as there are bytes left, the bytes run out. -/
theorem runsShort_draft {depth : Nat} {d : Draft} (hlimit : limit ≤ depth)
    (hsize : (draft d).length ≤ Capacity.maxWord) :
    RunsShort limit (readDraft depth) (draft d) := by
  induction depth generalizing limit d with
  | zero => exact fun front cut _ _ _ => ⟨.unexpectedEnd, rfl, .inl rfl⟩
  | succ depth ih =>
    -- No part of a draft takes more bytes than the draft, so the lists in it can be counted.
    rw [draft_eq] at hsize ⊢
    simp only [List.length_append] at hsize
    have hsource : (stringRef d.source).length = 4 := length_number _ _
    have hchild : ∀ child ∈ d.nested, (draft child).length ≤ Capacity.maxWord := by
      intro child hmem
      have hle : (draft child).length ≤ (list draft d.nested).length := length_le_of_mem hmem
      omega
    -- Before the nested drafts at least the source has been read, which took bytes but no level.
    have hnested : ∀ left ≤ depth, RunsShort left (readList (readDraft depth))
        (list draft d.nested) := by
      intro left hleft
      refine runsShort_list draft_ne_nil (by omega) (fun child hmem => ih hleft (hchild child hmem))
        fun child hmem hlength => reads_draft ?_ (hchild child hmem)
      have hlt := height_lt_length_draft (hchild child hmem)
      omega
    have hcode := reads_list instruction_ne_nil (by omega) fun i (_ : i ∈ d.code.toList) =>
      reads_instruction i
    have hconstants := reads_list constant_ne_nil (by omega) fun c (_ : c ∈ d.constants.toList) =>
      reads_constant c
    have himports := reads_list importEntry_ne_nil (by omega) fun i (_ : i ∈ d.imports.toList) =>
      reads_importEntry i
    refine (runsShort_stringRef _ _).bind (fun _ => reads_stringRef _) ?_
    refine (runsShort_stringRef _ _).bind (fun _ => reads_stringRef _) ?_
    refine (runsShort_byte _ _).bind (fun _ => reads_byte _) ?_
    refine (runsShort_byte _ _).bind (fun _ => reads_byte _) ?_
    refine (runsShort_byte _ _).bind (fun _ => reads_byte _) ?_
    refine RunsShort.bind ?_ (fun _ => hcode) ?_
    · exact runsShort_list instruction_ne_nil (by omega)
        (fun i _ => runsShort_instruction _ i) fun i _ _ => reads_instruction i
    refine RunsShort.bind ?_ (fun _ => hconstants) ?_
    · exact runsShort_list constant_ne_nil (by omega)
        (fun c _ => runsShort_constant _ c) fun c _ _ => reads_constant c
    refine RunsShort.bind ?_ (fun _ => himports) ?_
    · exact runsShort_list importEntry_ne_nil (by omega)
        (fun i _ => runsShort_importEntry _ i) fun i _ _ => reads_importEntry i
    exact (hnested _ (by omega)).andThen _

end Wire

namespace Assembler

open Wire

variable {a : Assembler}

theorem runsShort_body {limit depth : Nat} (hlimit : limit ≤ depth)
    (hsize : a.body.length ≤ Capacity.maxWord) : RunsShort limit (readBody depth) a.body := by
  rw [body, List.length_append] at hsize
  have htext : ∀ s ∈ a.strings.toList, (text s).length ≤ Capacity.maxWord := by
    intro s hmem
    have hle : (text s).length ≤ (list text a.strings.toList).length := length_le_of_mem hmem
    omega
  have htexts := reads_list text_ne_nil (by omega) fun s hmem => reads_text (htext s hmem)
  refine RunsShort.bind ?_ (fun _ => htexts) ?_
  · exact runsShort_list text_ne_nil (by omega) (fun s hmem => runsShort_text (htext s hmem))
      fun s hmem _ => reads_text (htext s hmem)
  · exact (runsShort_draft (Nat.le_trans (Nat.sub_le _ _) hlimit) (by omega)).andThen _

/-- A cut behind the header leaves the header, and the beginning of the body. -/
theorem take_save {k : Nat} (hle : headerLength ≤ k) :
    a.save.take k = magic ++ (number 2 version ++ a.body.take (k - headerLength)) := by
  have hheader : (magic ++ number 2 version).length = headerLength := rfl
  have hkept : (magic ++ number 2 version).take k = magic ++ number 2 version :=
    List.take_of_length_le (hheader ▸ hle)
  rw [save, List.take_append, hkept, hheader, List.append_assoc]

/-- With not even the header there, nothing else counts. -/
theorem load_take_save_of_lt {k : Nat} (hlt : k < headerLength) :
    load (a.save.take k) = .error .badMagic := by
  refine load_of_not_hasMagic fun hmagic => ?_
  have hlength := hmagic.1
  rw [List.length_take] at hlength
  omega

/-- With the header there, the body ends too early. -/
theorem load_take_save_of_le (hsize : a.save.length ≤ Capacity.maxWord) {k : Nat}
    (hk : k < a.save.length) (hle : headerLength ≤ k) :
    ∃ fault, load (a.save.take k) = .error (.malformed fault) ∧ fault.IsShortage := by
  have hlength := a.length_save
  have hversion : number 2 version ∈ Grammar.numeral 2 version := ⟨rfl, rfl⟩
  have hcut : a.body.drop (k - headerLength) ≠ [] := by
    rw [Ne, List.drop_eq_nil_iff]
    omega
  -- Loading goes down as many levels as bytes are left, and one more.
  have hbody := runsShort_body (a := a) (Nat.le_succ (a.body.take (k - headerLength)).length)
    (by omega)
  obtain ⟨fault, hfault, hshortage⟩ :=
    hbody _ _ (List.take_append_drop (k - headerLength) a.body) hcut (Nat.le_refl _)
  refine ⟨fault, ?_, hshortage⟩
  rw [take_save hle, load_header hversion, if_neg (not_not_intro rfl), hfault]

/-- A saved module whose last bytes are missing is not loaded: there is no magic if not even the
header is there, and otherwise the bytes end where there had to be more of them. The bytes of a
chunk can be counted in a word, as those of everything that memory holds. -/
theorem load_take_save (hsize : a.save.length ≤ Capacity.maxWord) {k : Nat}
    (hk : k < a.save.length) :
    (k < headerLength → load (a.save.take k) = .error .badMagic) ∧
    (headerLength ≤ k → ∃ fault, load (a.save.take k) = .error (.malformed fault) ∧
      fault.category = "Io" ∧ (fault = .unexpectedEnd ∨ fault = .textTooLong)) ∧
    ∀ b, load (a.save.take k) ≠ .ok b := by
  refine ⟨load_take_save_of_lt, fun hle => ?_, fun b hload => ?_⟩
  · obtain ⟨fault, hload, hshortage⟩ := load_take_save_of_le hsize hk hle
    exact ⟨fault, hload, hshortage.category_eq, hshortage⟩
  · rcases Nat.lt_or_ge k headerLength with hlt | hle
    · rw [load_take_save_of_lt hlt] at hload
      cases hload
    · obtain ⟨fault, hfault, -⟩ := load_take_save_of_le hsize hk hle
      rw [hfault] at hload
      cases hload

/-- Cut off in the version, in the text of its second string, or before its last byte. -/
theorem load_take_save_flawed :
    flawed.save.length = 184 ∧ flawed.save.length ≤ Capacity.maxWord ∧
      load (flawed.save.take 5) = .error .badMagic ∧
      ∀ k, k = 32 ∨ k = 183 → ∃ fault, load (flawed.save.take k) = .error (.malformed fault) ∧
        fault.category = "Io" ∧ (fault = .unexpectedEnd ∨ fault = .textTooLong) := by
  have hlength : flawed.save.length = 184 := by decide +kernel
  have hsize : flawed.save.length ≤ Capacity.maxWord := by
    rw [hlength]
    decide
  refine ⟨hlength, hsize, (load_take_save hsize (by omega)).1 (by decide), fun k hk => ?_⟩
  have hheader : headerLength = 6 := rfl
  exact (load_take_save hsize (by omega)).2.1 (by omega)

end Assembler

end ActorMachine
