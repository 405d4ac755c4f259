import ActorMachine.Chunk.File
import ActorMachine.Proofs.Chunk.Nesting
import ActorMachine.Proofs.Ensures

/-!
# Reading what was written

Every reader of the chunk format takes the bytes that were written for something off the front, and
answers that, whatever follows.

* `Reads`: the statement, with a rule for each way of building a reader.
* `reads_text`, `reads_instruction`, `reads_constant`, `reads_draft`: the readers of the format.
* `load_save_of_wellFormed`: a module is loaded as it was saved, if its table begins with the empty
  string and its drafts are not nested too deep.
-/

namespace ActorMachine

namespace Wire

variable {α β : Type} {read : Reader α} {f : α → Reader β} {bytes bytes' : Bytes} {a : α} {b : β}

/-- The reader takes these bytes off the front and answers `a`. -/
def Reads (read : Reader α) (bytes : Bytes) (a : α) : Prop :=
  ∀ rest, read.run (bytes ++ rest) = .ok (a, rest)

/-! ### Building readers -/

theorem reads_pure (a : α) : Reads (pure a) [] a :=
  fun _ => rfl

/-- What is read second follows. -/
theorem Reads.bind (hread : Reads read bytes a) (hf : Reads (f a) bytes' b) :
    Reads (read >>= f) (bytes ++ bytes') b := by
  intro rest
  rw [StateT.run_bind, List.append_assoc, hread]
  exact hf rest

theorem Reads.map (hread : Reads read bytes a) (g : α → β) : Reads (g <$> read) bytes (g a) := by
  intro rest
  rw [StateT.run_map, hread]
  rfl

/-- What is read last is followed by nothing. -/
theorem Reads.bind_pure (hread : Reads read bytes a) (g : α → β) :
    Reads (read >>= fun a => pure (g a)) bytes (g a) := by
  rw [bind_pure_comp]
  exact hread.map g

/-- What is made of it may fail, but does not. -/
theorem Reads.bind_ofExcept {g : α → Except WireFault β} (hread : Reads read bytes a)
    (hg : g a = .ok b) : Reads (read >>= fun a => ofExcept (g a)) bytes b := by
  intro rest
  rw [StateT.run_bind, hread]
  change (ofExcept (g a) : Reader β).run rest = _
  rw [hg]
  rfl

/-! ### Numbers -/

theorem reads_byte (b : UInt8) : Reads readByte (byte b) b :=
  fun _ => rfl

theorem reads_number {width n : Nat} (hn : n < numbers width) :
    Reads (readNumber width) (number width n) n := by
  intro rest
  rw [readNumber_number, Nat.mod_eq_of_lt hn]

theorem reads_bool (b : Bool) : Reads readBool (bool b) b := by
  cases b <;> exact fun _ => rfl

theorem reads_word (n : UInt32) : Reads readWord (word n) n := by
  have hread : Reads (readNumber 4) (word n) n.toNat := reads_number n.toNat_lt
  have hword := hread.map UInt32.ofNat
  rwa [UInt32.ofNat_toNat] at hword

theorem reads_signedWord (i : Int32) : Reads readSignedWord (signedWord i) i :=
  i.toInt32_toUInt32 ▸ (reads_word i.toUInt32).map UInt32.toInt32

theorem reads_long (n : UInt64) : Reads readLong (number 8 n.toNat) n := by
  have hread : Reads (readNumber 8) (number 8 n.toNat) n.toNat := reads_number n.toNat_lt
  have hlong := hread.map UInt64.ofNat
  rwa [UInt64.ofNat_toNat] at hlong

/-! ### Lists and texts -/

theorem reads_many {write : α → Bytes} {as : List α} (hread : ∀ a ∈ as, Reads read (write a) a) :
    Reads (readMany read as.length) (as.flatMap write) as := by
  induction as with
  | nil => exact reads_pure []
  | cons a as ih =>
    rw [List.flatMap_cons]
    have hrest := ih fun a hmem => hread a (List.mem_cons_of_mem _ hmem)
    exact (hread a List.mem_cons_self).bind (hrest.bind_pure (a :: ·))

/-- Elements that take at least a byte each are not more than the bytes of the list. -/
theorem length_le_length_list {write : α → Bytes} {as : List α} (hwrite : ∀ a, write a ≠ []) :
    as.length ≤ (list write as).length := by
  have hle : as.length ≤ (as.flatMap write).length := by
    induction as with
    | nil => exact Nat.le_refl _
    | cons a as ih =>
      have hpos := List.length_pos_iff.2 (hwrite a)
      rw [List.flatMap_cons, List.length_append, List.length_cons]
      omega
  rw [list, List.length_append]
  omega

/-- A list is read if its elements can be read and its bytes can be counted. -/
theorem reads_list {write : α → Bytes} {as : List α} (hwrite : ∀ a, write a ≠ [])
    (hsize : (list write as).length ≤ Capacity.maxWord)
    (hread : ∀ a ∈ as, Reads read (write a) a) : Reads (readList read) (list write as) as := by
  have hlength := Nat.le_trans (length_le_length_list hwrite) hsize
  exact (reads_number (Nat.lt_succ_of_le hlength)).bind (reads_many hread)

/-- An element takes no more bytes than the list. -/
theorem length_le_of_mem {write : α → Bytes} {as : List α} (hmem : a ∈ as) :
    (write a).length ≤ (list write as).length := by
  have hle := (List.sublist_flatten_of_mem (List.mem_map_of_mem (f := write) hmem)).length_le
  rw [list, List.length_append, List.flatMap_def]
  omega

/-- The bytes of a text are those of its UTF-8 form. -/
theorem flatMap_byte (bytes : Bytes) : bytes.flatMap byte = bytes :=
  List.flatMap_singleton' bytes

theorem reads_bytes (bytes : Bytes) : Reads (readBytes bytes.length) bytes bytes := by
  intro rest
  change (if (bytes ++ rest).length < bytes.length then _ else _) = _
  simp

/-- The UTF-8 form of a text is that of the text. -/
theorem textOf_toUTF8 (s : String) : textOf s.toUTF8.data.toList = .ok s := by
  have hutf8 : String.fromUTF8? s.toUTF8 = some s := dif_pos s.isValidUTF8
  simp only [textOf, Array.toArray_toList, hutf8]

theorem reads_text {s : String} (hsize : (text s).length ≤ Capacity.maxWord) :
    Reads readText (text s) s := by
  have hlength : s.toUTF8.data.toList.length ≤ Capacity.maxWord :=
    Nat.le_trans (length_le_length_list fun b => List.cons_ne_nil b []) hsize
  rw [text, list, flatMap_byte]
  refine (reads_number (Nat.lt_succ_of_le hlength)).bind ((reads_bytes _).bind_ofExcept ?_)
  exact textOf_toUTF8 s

/-! ### Parts of a draft -/

/-- Alternatives are told apart by their tags. -/
theorem reads_tagged {n : Nat} {f : Nat → Reader β} (hn : n < numbers 4)
    (hf : Reads (f n) bytes b) : Reads (readNumber 4 >>= f) (tag n ++ bytes) b :=
  (reads_number hn).bind hf

theorem reads_instruction (i : Instruction) : Reads readInstruction (instruction i) i := by
  cases i with
  | nop | breakpoint | nil | ret | send | remove | rewind =>
    exact reads_tagged (by decide) (reads_pure _)
  | bool b => exact reads_tagged (by decide) ((reads_bool b).map _)
  | int i | jump i | jumpUnless i | receive i =>
    exact reads_tagged (by decide) ((reads_signedWord i).map _)
  | pop n | constant n | loadLocal n | storeLocal n | importSymbol n | makeClosure n | call n =>
    exact reads_tagged (by decide) ((reads_word n).map _)

theorem reads_stringRef (r : StringRef) : Reads readStringRef (stringRef r) r :=
  (reads_word r.index).map StringRef.mk

theorem reads_constant (c : Constant StringRef) : Reads readConstant (constant c) c := by
  cases c with
  | int i =>
    have hlong := (reads_long i.toUInt64).bind_pure fun n => (.int n.toInt64 : Constant StringRef)
    rw [Int64.toInt64_toUInt64] at hlong
    exact reads_tagged (by decide) hlong
  | text r => exact reads_tagged (by decide) ((reads_stringRef r).map _)
  | real x =>
    have hlong := (reads_long x.bits).bind_pure fun n => (.real ⟨n⟩ : Constant StringRef)
    exact reads_tagged (by decide) hlong

theorem reads_importEntry (i : Import StringRef) : Reads readImport (importEntry i) i :=
  (reads_stringRef i.module).bind ((reads_stringRef i.name).bind_pure (Import.mk i.module))

theorem instruction_ne_nil (i : Instruction) : instruction i ≠ [] := by
  cases i <;> exact List.cons_ne_nil _ _

theorem constant_ne_nil (c : Constant StringRef) : constant c ≠ [] := by
  cases c <;> exact List.cons_ne_nil _ _

theorem importEntry_ne_nil (i : Import StringRef) : importEntry i ≠ [] :=
  List.cons_ne_nil _ _

/-! ### Drafts -/

theorem drafts_eq (ds : List Draft) : drafts ds = ds.flatMap draft := by
  induction ds with
  | nil => rw [drafts, List.flatMap_nil]
  | cons d ds ih => rw [drafts, List.flatMap_cons, ih]

/-- A draft is its parts, and the last of them is the list of those nested in it. -/
theorem draft_eq (d : Draft) : draft d =
    stringRef d.source ++ (stringRef d.symbol ++ (byte d.upvalues ++ (byte d.arguments ++
      (byte d.locals ++ (list instruction d.code.toList ++ (list constant d.constants.toList ++
        (list importEntry d.imports.toList ++ list draft d.nested))))))) := by
  cases d
  simp only [draft, drafts_eq, list, List.append_assoc]

theorem draft_ne_nil (d : Draft) : draft d ≠ [] := by
  rw [draft_eq]
  exact List.cons_ne_nil _ _

/-- A draft is read at any depth above its height. -/
theorem reads_draft {depth : Nat} {d : Draft} (hheight : d.height < depth)
    (hsize : (draft d).length ≤ Capacity.maxWord) : Reads (readDraft depth) (draft d) d := by
  induction depth generalizing d with
  | zero => exact absurd hheight (Nat.not_lt_zero _)
  | succ depth ih =>
    -- No part of a draft takes more bytes than the draft, so the lists in it can be counted.
    rw [draft_eq] at hsize ⊢
    simp only [List.length_append] at hsize
    have hnested : ∀ child ∈ d.nested, Reads (readDraft depth) (draft child) child := by
      intro child hmem
      have hlt := Draft.height_lt_of_mem hmem
      have hle : (draft child).length ≤ (list draft d.nested).length := length_le_of_mem hmem
      exact ih (by omega) (by omega)
    have hcode := reads_list instruction_ne_nil (by omega) fun i (_ : i ∈ d.code.toList) =>
      reads_instruction i
    have hconstants := reads_list constant_ne_nil (by omega) fun c (_ : c ∈ d.constants.toList) =>
      reads_constant c
    have himports := reads_list importEntry_ne_nil (by omega) fun i (_ : i ∈ d.imports.toList) =>
      reads_importEntry i
    have hlast := (reads_list draft_ne_nil (by omega) hnested).bind_pure fun nested =>
      Draft.mk d.source d.symbol d.upvalues d.arguments d.locals d.code.toList.toArray
        d.constants.toList.toArray d.imports.toList.toArray nested
    rw [show Draft.mk .. = d by cases d; rfl] at hlast
    exact (reads_stringRef _).bind ((reads_stringRef _).bind ((reads_byte _).bind
      ((reads_byte _).bind ((reads_byte _).bind (hcode.bind (hconstants.bind
        (himports.bind hlast)))))))

theorem text_ne_nil (s : String) : text s ≠ [] :=
  List.cons_ne_nil _ _

end Wire

/-- A list that begins with the empty string is a table as it stands. -/
theorem StringTable.ofList_toList {t : StringTable} (hhead : t.toList.head? = some "") :
    StringTable.ofList t.toList = t := by
  obtain ⟨⟨texts⟩⟩ := t
  obtain ⟨rest, rfl⟩ : ∃ rest, texts = "" :: rest := by
    rw [← List.head?_eq_some_iff]
    exact hhead
  rfl

/-- A table that is made of texts begins with the empty string. -/
theorem StringTable.head?_ofList (texts : List String) :
    (StringTable.ofList texts).toList.head? = some "" := by
  unfold ofList
  split <;> rfl

namespace Assembler

open Wire

variable {a : Assembler}

/-- A body is read at any depth above the height of its draft. -/
theorem reads_body {depth : Nat} (hheight : a.root.height < depth)
    (hsize : a.body.length ≤ Capacity.maxWord) :
    Reads (readBody depth) a.body (a.strings.toList, a.root) := by
  rw [body, List.length_append] at hsize
  have htexts : Reads (readList readText) (list text a.strings.toList) a.strings.toList := by
    refine reads_list text_ne_nil (by omega) fun s hmem => reads_text ?_
    have hle : (text s).length ≤ (list text a.strings.toList).length := length_le_of_mem hmem
    omega
  have hroot := reads_draft hheight (by omega)
  exact htexts.bind (hroot.bind_pure (a.strings.toList, ·))

/-- A chunk is its header and its body. -/
theorem length_save (a : Assembler) : a.save.length = headerLength + a.body.length := by
  simp only [save, List.length_append, length_number]
  rfl

/-- A module is loaded as it was saved, but for the cursor. -/
theorem load_save_of_wellFormed (hhead : a.strings.toList.head? = some "")
    (hheight : a.root.height ≤ maxNesting) (hsize : a.save.length ≤ Capacity.maxWord) :
    load a.save = .ok { a with cursor := [] } := by
  have hlength := a.length_save
  -- The count of the texts alone takes more bytes than drafts may be nested.
  have hlevels : maxNesting ≤ a.body.length := by
    simp only [body, list, List.length_append, length_number, maxNesting]
    omega
  have hread : (readBody (a.body.length + 1)).run a.body = .ok ((a.strings.toList, a.root), []) := by
    have hreads : Reads (readBody (a.body.length + 1)) a.body (a.strings.toList, a.root) :=
      reads_body (by omega) (by omega)
    have hrun := hreads []
    rwa [List.append_nil] at hrun
  have hversion : (readNumber 2).run (a.save.drop magic.length) = .ok (version, a.body) :=
    reads_number (by decide) a.body
  have hmagic : ¬ (a.save.length < headerLength ∨ a.save.take magic.length ≠ magic) := by
    rintro (hlt | hne)
    · omega
    · exact hne rfl
  have hbody : a.save.drop headerLength = a.body := rfl
  unfold load
  rw [if_neg hmagic]
  simp only [hbody, hversion, hread, StringTable.ofList_toList hhead, Draft.nestingDepth_eq_height,
    Nat.not_lt.2 hheight]
  rfl

end Assembler

end ActorMachine
