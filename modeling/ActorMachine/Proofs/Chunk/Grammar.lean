import ActorMachine.Proofs.Chunk.Reading
import Mathlib.Computability.Language
import Mathlib.Data.Nat.Digits.Defs

/-!
# The grammar of chunk files

Which bytes are a chunk, said without the reader: for every text, instruction, draft and so on the
language of the words that stand for it. The reader takes exactly these words off the front.

* `Grammar.tree`, `Grammar.chunk`: the words of a draft and of a whole file.
* `Recognizes`: a reader and a language agree, with a rule for each way of building a reader.
* `recognizes_draft`: the reader of drafts agrees with the grammar, down to any depth.
* `run_readMany_of_length_lt`: a count that the bytes cannot bear is refused before it is counted
  down.
* `load_spec`: what loading answers for every sequence of bytes.
* `nesting_checked`: how loading finds out how deep drafts are nested, and which it refuses.
-/

namespace ActorMachine

open Wire

namespace Grammar

/-! ### The words -/

/-- The words of `width` bytes that stand for a number, the lowest byte first. -/
def numeral (width n : Nat) : Language UInt8 :=
  {word | word.length = width ∧ Nat.ofDigits 256 (word.map UInt8.toNat) = n}

/-- The word that stands for a byte. -/
def octet (b : UInt8) : Language UInt8 :=
  {[b]}

/-- The word that stands for a boolean. -/
def truth (b : Bool) : Language UInt8 :=
  {[if b then 1 else 0]}

/-- The words of a number of 32 bits. -/
def word (n : UInt32) : Language UInt8 :=
  numeral 4 n.toNat

/-- The words of a signed number of 32 bits, in two's complement. -/
def signedWord (i : Int32) : Language UInt8 :=
  word i.toUInt32

/-- The words of a list: those of its length, followed by those of its elements. -/
def sequence {α : Type} (item : α → Language UInt8) (as : List α) : Language UInt8 :=
  numeral 8 as.length * (as.map item).prod

/-- The words of a text: those of its length in bytes, followed by its UTF-8 form. -/
def text (s : String) : Language UInt8 :=
  numeral 8 s.utf8ByteSize * {s.toUTF8.data.toList}

/-- The number that tells an instruction from the others. -/
def instructionTag : Instruction → Nat
  | .nop => 0
  | .breakpoint => 1
  | .pop _ => 2
  | .constant _ => 3
  | .nil => 4
  | .bool _ => 5
  | .int _ => 6
  | .loadLocal _ => 7
  | .storeLocal _ => 8
  | .importSymbol _ => 9
  | .makeClosure _ => 10
  | .jump _ => 11
  | .jumpUnless _ => 12
  | .call _ => 13
  | .ret => 14
  | .send => 15
  | .receive _ => 16
  | .remove => 17
  | .rewind => 18

/-- The words of the operand of an instruction. -/
def operand : Instruction → Language UInt8
  | .nop | .breakpoint | .nil | .ret | .send | .remove | .rewind => 1
  | .bool b => truth b
  | .int i | .jump i | .jumpUnless i | .receive i => signedWord i
  | .pop n | .constant n | .loadLocal n | .storeLocal n | .importSymbol n | .makeClosure n
  | .call n => word n

/-- The words of an instruction. -/
def instruction (i : Instruction) : Language UInt8 :=
  numeral 4 (instructionTag i) * operand i

/-- The words of a reference into the string table. -/
def reference (r : StringRef) : Language UInt8 :=
  word r.index

/-- The number that tells an entry of a constant pool from those of another kind. -/
def constantTag : Constant StringRef → Nat
  | .int _ => 0
  | .text _ => 1
  | .real _ => 2

/-- The words of what a constant holds. -/
def held : Constant StringRef → Language UInt8
  | .int i => numeral 8 i.toUInt64.toNat
  | .text r => reference r
  | .real x => numeral 8 x.bits.toNat

/-- The words of an entry of a constant pool. -/
def constant (c : Constant StringRef) : Language UInt8 :=
  numeral 4 (constantTag c) * held c

/-- The words of an entry of an import table. -/
def importEntry (i : Import StringRef) : Language UInt8 :=
  reference i.module * reference i.name

mutual

/-- The words of a draft with all that is nested in it. -/
def tree : Draft → Language UInt8
  | { source, symbol, upvalues, arguments, locals, code, constants, imports, nested } =>
    reference source * (reference symbol * (octet upvalues * (octet arguments * (octet locals *
      (sequence instruction code.toList * (sequence constant constants.toList *
        (sequence importEntry imports.toList * (numeral 8 nested.length * trees nested))))))))

/-- The words of drafts, one after the other. -/
def trees : List Draft → Language UInt8
  | [] => 1
  | d :: ds => tree d * trees ds

end

/-- The words of the body of a chunk: those of its texts, followed by those of its draft. -/
def content (texts : List String) (root : Draft) : Language UInt8 :=
  sequence text texts * tree root

/-- The words of a chunk: the magic, the version and the body. -/
def chunk (texts : List String) (root : Draft) : Language UInt8 :=
  {Assembler.magic} * (numeral 2 Assembler.version * content texts root)

theorem mem_numeral {width n : Nat} {word : Bytes} : word ∈ numeral width n ↔
    word.length = width ∧ Nat.ofDigits 256 (word.map UInt8.toNat) = n :=
  Iff.rfl

theorem mem_octet {b : UInt8} {word : Bytes} : word ∈ octet b ↔ word = [b] :=
  Iff.rfl

theorem ofNat_eq_iff {n : Nat} {b : UInt8} : UInt8.ofNat n = b ↔ n % 256 = b.toNat := by
  rw [← UInt8.toNat_inj, UInt8.toNat_ofNat']

/-- The lowest byte comes first. -/
theorem numeral_succ (width n : Nat) :
    numeral (width + 1) n = octet (UInt8.ofNat n) * numeral width (n / 256) := by
  ext word
  rw [Language.mem_mul]
  constructor
  · rintro ⟨hlength, hvalue⟩
    obtain ⟨low, high, rfl⟩ := List.exists_cons_of_length_eq_add_one hlength
    rw [List.map_cons, Nat.ofDigits_cons] at hvalue
    have hlow := low.toNat_lt
    have hoctet : UInt8.ofNat n = low := ofNat_eq_iff.2 (by omega)
    exact ⟨[low], mem_octet.2 (by rw [hoctet]), high, ⟨Nat.succ.inj hlength, by omega⟩, rfl⟩
  · rintro ⟨_, rfl, high, ⟨hlength, hvalue⟩, rfl⟩
    have hlow := ofNat_eq_iff.1 (Eq.refl (UInt8.ofNat n))
    refine ⟨congrArg Nat.succ hlength, ?_⟩
    rw [List.singleton_append, List.map_cons, Nat.ofDigits_cons, hvalue, ← hlow]
    omega

theorem trees_eq (ds : List Draft) : trees ds = (ds.map tree).prod := by
  induction ds with
  | nil => rw [trees, List.map_nil, List.prod_nil]
  | cons d ds ih => rw [trees, List.map_cons, List.prod_cons, ih]

/-- A draft is its parts, and the last of them is the list of those nested in it. -/
theorem tree_eq (d : Draft) : tree d =
    reference d.source * (reference d.symbol * (octet d.upvalues * (octet d.arguments *
      (octet d.locals * (sequence instruction d.code.toList *
        (sequence constant d.constants.toList * (sequence importEntry d.imports.toList *
          sequence tree d.nested))))))) := by
  cases d
  rw [tree, trees_eq]
  rfl

variable {α β : Type} {read : Reader α} {f : α → Reader β} {bytes rest : Bytes} {a : α} {b : β}
  {may : α → Prop} {words : α → Language UInt8} {width : Nat}

/-! ### Readers that agree with a language -/

/-- The reader answers what it may, and takes a word of its answer off the front; and whenever the
bytes begin with a word of something that it may answer, it does. -/
def Recognizes (read : Reader α) (may : α → Prop) (words : α → Language UInt8) : Prop :=
  ∀ bytes a rest, read.run bytes = .ok (a, rest) ↔ may a ∧ ∃ word ∈ words a, word ++ rest = bytes

/-- What is read second is read off what the first reader has left. -/
theorem run_bind_eq_ok : (read >>= f).run bytes = .ok (b, rest) ↔
    ∃ a middle, read.run bytes = .ok (a, middle) ∧ (f a).run middle = .ok (b, rest) := by
  rw [StateT.run_bind]
  change (read.run bytes).bind _ = _ ↔ _
  cases h : read.run bytes with
  | error fault => simp [Except.bind]
  | ok p => simp [Except.bind, Prod.ext_iff]

theorem recognizes_pure (a : α) : Recognizes (pure a) (· = a) fun _ => 1 := by
  intro bytes a' rest
  change Except.ok (a, bytes) = .ok (a', rest) ↔ _
  simp [Language.mem_one, Prod.ext_iff, eq_comm]

theorem recognizes_throw (fault : WireFault) (words : α → Language UInt8) :
    Recognizes (throw fault) (fun _ => False) words := by
  intro bytes a rest
  change Except.error fault = .ok (a, rest) ↔ _
  simp

/-- What may be answered, and its words, can be said otherwise. -/
theorem Recognizes.congr {may' : α → Prop} {words' : α → Language UInt8}
    (hread : Recognizes read may words) (hmay : ∀ a, may' a ↔ may a)
    (hwords : ∀ a, may a → words' a = words a) : Recognizes read may' words' := by
  intro bytes a rest
  rw [hread, hmay]
  exact and_congr_right fun ha => by rw [hwords a ha]

theorem Recognizes.of_iff {may' : α → Prop} (hread : Recognizes read may words)
    (hmay : ∀ a, may' a ↔ may a) : Recognizes read may' words :=
  hread.congr hmay fun _ _ => rfl

/-- Only what has words is answered. -/
theorem Recognizes.restrict {may' : α → Prop} (hread : Recognizes read may words)
    (hmay : ∀ a, ∀ word ∈ words a, may' a) : Recognizes read (fun a => may' a ∧ may a) words := by
  intro bytes a rest
  rw [hread]
  refine ⟨fun ⟨ha, word, hmem, hbytes⟩ => ⟨⟨hmay a word hmem, ha⟩, word, hmem, hbytes⟩, ?_⟩
  exact fun ⟨ha, hword⟩ => ⟨ha.2, hword⟩

/-- One thing is read after another: the word of the whole is that of the one and that of the
other. -/
theorem Recognizes.bind {may' : α → β → Prop} {words' : β → Language UInt8}
    {mayAll : β → Prop} {wordsAll : β → Language UInt8} (hread : Recognizes read may words)
    (hf : ∀ a, may a → Recognizes (f a) (may' a) words')
    (hmay : ∀ b, mayAll b ↔ ∃ a, may a ∧ may' a b)
    (hwords : ∀ a b, may a → may' a b → wordsAll b = words a * words' b) :
    Recognizes (read >>= f) mayAll wordsAll := by
  intro bytes b rest
  rw [run_bind_eq_ok, hmay]
  constructor
  · -- What the first one leaves is what the other one finds.
    rintro ⟨a, middle, hfirst, hsecond⟩
    obtain ⟨ha, first, hmem, rfl⟩ := (hread _ _ _).1 hfirst
    obtain ⟨hb, second, hmem', rfl⟩ := (hf a ha _ _ _).1 hsecond
    refine ⟨⟨a, ha, hb⟩, first ++ second, ?_, List.append_assoc _ _ _⟩
    rw [hwords a b ha hb]
    exact Language.append_mem_mul hmem hmem'
  · -- The word is cut in two, and the second part belongs to what the first one leaves.
    rintro ⟨⟨a, ha, hb⟩, word, hmem, rfl⟩
    rw [hwords a b ha hb] at hmem
    obtain ⟨first, hfirst, second, hsecond, rfl⟩ := Language.mem_mul.1 hmem
    refine ⟨a, second ++ rest, (hread _ _ _).2 ⟨ha, first, hfirst, ?_⟩, ?_⟩
    · rw [List.append_assoc]
    · exact (hf a ha _ _ _).2 ⟨hb, second, hsecond, rfl⟩

/-- What is read first is a part of what is read as a whole. -/
theorem Recognizes.part {mayAll : β → Prop} {words' : β → Language UInt8} (part : β → α)
    (hread : Recognizes read (fun _ => True) words)
    (hf : ∀ a, Recognizes (f a) (fun b => part b = a ∧ mayAll b) words') :
    Recognizes (read >>= f) mayAll fun b => words (part b) * words' b :=
  hread.bind (fun a _ => hf a) (by simp) (by rintro _ b - ⟨rfl, -⟩; rfl)

/-- What is read is made into something else. -/
theorem Recognizes.map {g : α → β} {may' : β → Prop} {words' : β → Language UInt8}
    (hread : Recognizes read may words) (hmay : ∀ b, may' b ↔ ∃ a, may a ∧ b = g a)
    (hwords : ∀ a, may a → words' (g a) = words a) : Recognizes (g <$> read) may' words' := by
  rw [← bind_pure_comp]
  refine hread.bind (fun a _ => recognizes_pure (g a)) hmay ?_
  rintro a _ ha rfl
  rw [hwords a ha, mul_one]

/-! ### Numbers -/

theorem recognizes_byte : Recognizes readByte (fun _ => True) octet := by
  intro bytes b rest
  cases bytes with
  | nil => simp [readByte, StateT.run, mem_octet]
  | cons x xs => simp [readByte, StateT.run, mem_octet, eq_comm]

theorem recognizes_number (width : Nat) :
    Recognizes (readNumber width) (fun _ => True) (numeral width) := by
  induction width with
  | zero =>
    intro bytes n rest
    rw [readNumber, recognizes_pure 0 bytes n rest]
    simp [mem_numeral, Language.mem_one, eq_comm]
  | succ width ih =>
    rw [readNumber, funext (numeral_succ width)]
    refine recognizes_byte.part UInt8.ofNat fun low => ?_
    have hlow := low.toNat_lt
    simp only [bind_pure_comp, and_true, ofNat_eq_iff]
    refine ih.map (fun n => ⟨fun h => ⟨n / 256, trivial, by omega⟩, ?_⟩) fun high _ => ?_
    · rintro ⟨high, -, rfl⟩
      omega
    · rw [show (low.toNat + 256 * high) / 256 = high by omega]

theorem recognizes_bool : Recognizes readBool (fun _ => True) truth := by
  rw [show truth = fun b => octet (if b then 1 else 0) * 1 from funext fun b => (mul_one _).symm]
  refine recognizes_byte.part (fun b : Bool => if b then 1 else 0) fun x => ?_
  split
  case h_1 => exact (recognizes_pure false).of_iff (by decide)
  case h_2 => exact (recognizes_pure true).of_iff (by decide)
  case h_3 hzero hone =>
    refine (recognizes_throw _ _).of_iff fun b => ?_
    cases b with
    | false => simpa using fun h => hzero h.symm
    | true => simpa using fun h => hone h.symm

theorem lt_of_mem_numeral {n : Nat} {word : Bytes} (hmem : word ∈ numeral width n) :
    n < numbers width := by
  induction width generalizing n word with
  | zero =>
    obtain ⟨hlength, rfl⟩ := hmem
    rw [List.length_eq_zero_iff.1 hlength]
    exact Nat.one_pos
  | succ width ih =>
    rw [numeral_succ] at hmem
    obtain ⟨_, -, high, hhigh, -⟩ := Language.mem_mul.1 hmem
    have hlt := ih hhigh
    rw [numbers]
    omega

theorem recognizes_word : Recognizes readWord (fun _ => True) word := by
  have hnumber := (recognizes_number 4).restrict fun n _ => lt_of_mem_numeral
  refine hnumber.map (fun n => ?_) fun n hn => ?_
  · simpa using ⟨n.toNat, n.toNat_lt, (UInt32.ofNat_toNat).symm⟩
  · rw [word, UInt32.toNat_ofNat_of_lt' hn.1]

theorem recognizes_signedWord : Recognizes readSignedWord (fun _ => True) signedWord := by
  refine recognizes_word.map (fun i => ?_) fun n _ => ?_
  · simpa using ⟨i.toUInt32, (i.toInt32_toUInt32).symm⟩
  · rw [signedWord, UInt32.toUInt32_toInt32]

theorem recognizes_long : Recognizes readLong (fun _ => True) fun n => numeral 8 n.toNat := by
  have hnumber := (recognizes_number 8).restrict fun n _ => lt_of_mem_numeral
  refine hnumber.map (fun n => ?_) fun n hn => ?_
  · simpa using ⟨n.toNat, n.toNat_lt, (UInt64.ofNat_toNat).symm⟩
  · rw [UInt64.toNat_ofNat_of_lt' hn.1]

/-! ### Lists and texts -/

theorem recognizes_bytes (length : Nat) :
    Recognizes (readBytes length) (·.length = length) fun bytes => {bytes} := by
  intro bytes word rest
  have hword : (∃ word' ∈ ({word} : Language UInt8), word' ++ rest = bytes) ↔
      word ++ rest = bytes := exists_eq_left
  rw [hword]
  change (if bytes.length < length then Except.error WireFault.textTooLong
    else .ok (bytes.take length, bytes.drop length)) = Except.ok (word, rest) ↔ _
  split
  case isTrue hlt =>
    refine ⟨nofun, ?_⟩
    rintro ⟨rfl, rfl⟩
    rw [List.length_append] at hlt
    omega
  case isFalse hle =>
    rw [Except.ok.injEq, Prod.mk.injEq]
    constructor
    · rintro ⟨rfl, rfl⟩
      exact ⟨List.length_take_of_le (Nat.not_lt.1 hle), List.take_append_drop _ _⟩
    · rintro ⟨rfl, rfl⟩
      exact ⟨List.take_left, List.drop_left⟩

theorem recognizes_ofExcept (e : Except WireFault α) :
    Recognizes (ofExcept e) (e = .ok ·) fun _ => 1 := by
  cases e with
  | error fault => exact (recognizes_throw fault _).of_iff fun a => by simp
  | ok a => exact (recognizes_pure a).of_iff fun a' => by simp [eq_comm]

/-- The bytes that are a text are those of its UTF-8 form, and no others. -/
theorem textOf_eq_ok {bytes : Bytes} {s : String} :
    textOf bytes = .ok s ↔ bytes = s.toUTF8.data.toList := by
  refine ⟨fun h => ?_, fun h => h ▸ textOf_toUTF8 s⟩
  unfold textOf at h
  split at h
  case h_1 t ht =>
    cases h
    unfold String.fromUTF8? at ht
    split at ht
    · cases ht
      rfl
    · cases ht
  case h_2 => cases h

theorem recognizes_text : Recognizes readText (fun _ => True) text := by
  refine (recognizes_number 8).part String.utf8ByteSize fun length => ?_
  refine (recognizes_bytes length).bind (fun bytes _ => recognizes_ofExcept (textOf bytes))
    (fun s => ?_) fun bytes s _ hs => ?_
  · simp only [textOf_eq_ok, exists_eq_right, and_true]
    rfl
  · rw [textOf_eq_ok.1 hs, mul_one]

/-- Elements are read one after the other. -/
theorem recognizes_many (hread : Recognizes read may words) (count : Nat) :
    Recognizes (readMany read count) (fun as => as.length = count ∧ ∀ a ∈ as, may a)
      fun as => (as.map words).prod := by
  induction count with
  | zero =>
    refine (recognizes_pure []).congr (fun as => ?_) fun as has => ?_
    · rw [List.length_eq_zero_iff, and_iff_left_of_imp]
      rintro rfl
      exact List.forall_mem_nil _
    · rw [has, List.map_nil, List.prod_nil]
  | succ count ih =>
    -- After the first element the rest is a list of its own, put behind it.
    have hcons (a : α) : Recognizes ((a :: ·) <$> readMany read count)
        (fun bs => ∃ as, (as.length = count ∧ ∀ a ∈ as, may a) ∧ bs = a :: as)
        fun bs => (bs.tail.map words).prod :=
      ih.map (fun _ => Iff.rfl) fun _ _ => rfl
    simp only [readMany, bind_pure_comp]
    refine hread.bind (fun a _ => hcons a) (fun as => ?_) ?_
    · cases as with
      | nil => simp
      | cons a as =>
        simp only [List.length_cons, List.forall_mem_cons, Nat.add_right_cancel_iff]
        grind
    · rintro a _ ha ⟨as, has, rfl⟩
      rw [List.map_cons, List.prod_cons, List.tail_cons]

/-- However large a count is: if every element takes bytes, no more elements are tried than there
are bytes, and what then fails is the same for all counts. -/
theorem run_readMany_of_length_lt (hread : Recognizes read may words)
    (hwords : ∀ a, [] ∉ words a) (bytes : Bytes) :
    ∃ fault, ∀ count, bytes.length < count → (readMany read count).run bytes = .error fault := by
  -- An element takes bytes, so fewer are left than there were. They run out before the count does.
  induction hlength : bytes.length using Nat.strongRecOn generalizing bytes with
  | _ length ih =>
  have hrun (count : Nat) : (readMany read (count + 1)).run bytes = (do
      let p ← read.run bytes
      let q ← (readMany read count).run p.2
      return (p.1 :: q.1, q.2)) := rfl
  cases h : read.run bytes with
  | error fault =>
    refine ⟨fault, fun count hlt => ?_⟩
    obtain ⟨count, rfl⟩ := Nat.exists_eq_add_of_lt hlt
    rw [hrun, h]
    rfl
  | ok p =>
    obtain ⟨-, word, hmem, rfl⟩ := (hread bytes p.1 p.2).1 h
    have hpos : 0 < word.length := List.length_pos_iff.2 fun hnil => hwords p.1 (hnil ▸ hmem)
    rw [List.length_append] at hlength
    obtain ⟨fault, hfault⟩ := ih p.2.length (by omega) p.2 rfl
    refine ⟨fault, fun count hlt => ?_⟩
    obtain ⟨count, rfl⟩ := Nat.exists_eq_add_of_lt hlt
    rw [hrun, h]
    change (do
      let q ← (readMany read (length + count)).run p.2
      return (p.1 :: q.1, q.2)) = _
    rw [hfault _ (by omega)]
    rfl

theorem recognizes_list (hread : Recognizes read may words) :
    Recognizes (readList read) (fun as => ∀ a ∈ as, may a) (sequence words) :=
  (recognizes_number 8).part List.length fun count => recognizes_many hread count

theorem recognizes_list_of_all (hread : Recognizes read (fun _ => True) words) :
    Recognizes (readList read) (fun _ => True) (sequence words) :=
  (recognizes_list hread).of_iff fun _ => by simp

/-! ### Parts of a draft -/

theorem recognizes_reference : Recognizes readStringRef (fun _ => True) reference :=
  recognizes_word.map (fun r => by simpa using ⟨r.index, rfl⟩) fun n _ => rfl

theorem instructionTag_lt (i : Instruction) : instructionTag i < 19 := by
  cases i <;> simp [instructionTag]

theorem recognizes_instruction : Recognizes readInstruction (fun _ => True) instruction := by
  refine (recognizes_number 4).part instructionTag fun n => ?_
  simp only [and_true]
  split
  case h_1 | h_2 | h_5 | h_15 | h_16 | h_18 | h_19 =>
    exact (recognizes_pure _).congr (by intro i; cases i <;> simp [instructionTag])
      (by rintro _ rfl; rfl)
  case h_3 | h_4 | h_8 | h_9 | h_10 | h_11 | h_14 =>
    exact recognizes_word.map (by intro i; cases i <;> simp [instructionTag]) fun _ _ => rfl
  case h_6 =>
    exact recognizes_bool.map (by intro i; cases i <;> simp [instructionTag]) fun _ _ => rfl
  case h_7 | h_12 | h_13 | h_17 =>
    exact recognizes_signedWord.map (by intro i; cases i <;> simp [instructionTag]) fun _ _ => rfl
  case h_20 =>
    refine (recognizes_throw _ _).of_iff fun i => ?_
    have hlt := instructionTag_lt i
    grind

theorem recognizes_constant : Recognizes readConstant (fun _ => True) constant := by
  refine (recognizes_number 4).part constantTag fun n => ?_
  simp only [and_true]
  split
  case h_1 =>
    rw [bind_pure_comp]
    refine recognizes_long.map ?_ ?_
    · intro c
      cases c with
      | int i => simpa [constantTag] using ⟨i.toUInt64, (i.toInt64_toUInt64).symm⟩
      | text | real => simp [constantTag]
    · intro n _
      rw [held, UInt64.toUInt64_toInt64]
  case h_2 =>
    exact recognizes_reference.map (by intro c; cases c <;> simp [constantTag]) fun _ _ => rfl
  case h_3 =>
    rw [bind_pure_comp]
    refine recognizes_long.map ?_ fun _ _ => rfl
    intro c
    cases c with
    | real x => simpa [constantTag] using ⟨x.bits, rfl⟩
    | text | int => simp [constantTag]
  case h_4 =>
    refine (recognizes_throw _ _).of_iff fun c => ?_
    cases c <;> simp [constantTag] <;> grind

theorem recognizes_import : Recognizes readImport (fun _ => True) importEntry := by
  refine recognizes_reference.part Import.module fun module => ?_
  simp only [bind_pure_comp]
  refine recognizes_reference.map ?_ ?_
  · rintro ⟨m, n⟩
    simp only [Import.mk.injEq]
    grind
  · exact fun _ _ => rfl

/-! ### Drafts -/

/-- Drafts that are nested less deep than the reader goes are read, and no others. -/
theorem recognizes_draft (depth : Nat) : Recognizes (readDraft depth) (·.height < depth) tree := by
  induction depth with
  | zero => exact (recognizes_throw _ _).of_iff (by simp)
  | succ depth ih =>
    rw [readDraft, funext tree_eq]
    refine recognizes_reference.part _ fun source => ?_
    refine recognizes_reference.part _ fun symbol => ?_
    refine recognizes_byte.part _ fun upvalues => ?_
    refine recognizes_byte.part _ fun arguments => ?_
    refine recognizes_byte.part _ fun locals => ?_
    -- Of the lists that stand next nothing is asked, so they are told by their words alone.
    have hcode := recognizes_list_of_all recognizes_instruction
    refine hcode.part (fun d : Draft => d.code.toList) fun code => ?_
    have hconstants := recognizes_list_of_all recognizes_constant
    refine hconstants.part (fun d : Draft => d.constants.toList) fun constants => ?_
    have himports := recognizes_list_of_all recognizes_import
    refine himports.part (fun d : Draft => d.imports.toList) fun imports => ?_
    -- The nested drafts are read one level less deep. They alone decide about the height.
    rw [bind_pure_comp]
    refine (recognizes_list ih).map (fun d => ?_) fun _ _ => rfl
    rw [Nat.lt_succ_iff, Draft.height_eq, Draft.heightAll_le_iff]
    constructor
    · rintro ⟨rfl, rfl, rfl, rfl, rfl, rfl, rfl, rfl, hnested⟩
      exact ⟨d.nested, hnested, by cases d; rfl⟩
    · rintro ⟨nested, hnested, rfl⟩
      exact ⟨rfl, rfl, rfl, rfl, rfl, rfl, rfl, rfl, hnested⟩

/-- No word of drafts is shorter than a word of one of them. -/
theorem exists_mem_of_mem_prod {item : α → Language UInt8} {as : List α} {word : Bytes}
    (hmem : word ∈ (as.map item).prod) (ha : a ∈ as) :
    ∃ part ∈ item a, part.length ≤ word.length := by
  induction as generalizing word with
  | nil => cases ha
  | cons a' as ih =>
    rw [List.map_cons, List.prod_cons] at hmem
    obtain ⟨first, hfirst, second, hsecond, rfl⟩ := Language.mem_mul.1 hmem
    rw [List.length_append]
    rcases List.mem_cons.1 ha with rfl | ha
    · exact ⟨first, hfirst, by omega⟩
    · obtain ⟨part, hpart, hle⟩ := ih hsecond ha
      exact ⟨part, hpart, by omega⟩

theorem exists_tree_eq (d : Draft) : ∃ front, tree d = front * sequence tree d.nested := by
  rw [tree_eq]
  simp only [← mul_assoc]
  exact ⟨_, rfl⟩

/-- A draft is not nested as deep as its words are long: every level takes bytes. -/
theorem height_lt_of_mem_tree {d : Draft} {word : Bytes} (hmem : word ∈ tree d) :
    d.height < word.length := by
  induction hheight : d.height using Nat.strongRecOn generalizing d word with
  | _ height ih =>
  obtain ⟨front, htree⟩ := exists_tree_eq d
  rw [htree, sequence] at hmem
  obtain ⟨_, -, _, hlast, rfl⟩ := Language.mem_mul.1 hmem
  obtain ⟨count, hcount, nested, hnested, rfl⟩ := Language.mem_mul.1 hlast
  have hle : d.height ≤ nested.length := by
    rw [d.height_eq, Draft.heightAll_le_iff]
    intro child hchild
    obtain ⟨part, hpart, hle⟩ := exists_mem_of_mem_prod hnested hchild
    exact Nat.lt_of_lt_of_le (ih _ (hheight ▸ Draft.height_lt_of_mem hchild) hpart rfl) hle
  rw [← hheight, List.length_append, List.length_append, hcount.1]
  omega

end Grammar

namespace Assembler

open Grammar

variable {bytes : Bytes} {texts : List String} {root : Draft}

/-- The bytes begin with the magic, and there are enough of them for a version. -/
def HasMagic (bytes : Bytes) : Prop :=
  headerLength ≤ bytes.length ∧ magic <+: bytes

/-- The bytes begin with the magic and a version. -/
def HasVersion (bytes : Bytes) (found : Nat) : Prop :=
  ∃ word ∈ numeral 2 found, magic ++ word <+: bytes

/-- The bytes begin with a chunk that holds these texts and this draft. -/
def Bears (bytes : Bytes) (texts : List String) (root : Draft) : Prop :=
  ∃ word ∈ chunk texts root, word <+: bytes

theorem recognizes_body (depth : Nat) :
    Recognizes (readBody depth) (fun p => p.2.height < depth) fun p => content p.1 p.2 := by
  refine (recognizes_list_of_all recognizes_text).part Prod.fst fun texts => ?_
  rw [bind_pure_comp]
  refine (recognizes_draft depth).map (fun p => ?_) fun _ _ => rfl
  constructor
  · rintro ⟨rfl, hheight⟩
    exact ⟨p.2, hheight, rfl⟩
  · rintro ⟨root, hheight, rfl⟩
    exact ⟨rfl, hheight⟩

/-- With as many levels as bytes, the bytes run out before the levels do. -/
theorem run_readBody_eq_ok {rest : Bytes} :
    (readBody (bytes.length + 1)).run bytes = .ok ((texts, root), rest) ↔
      ∃ word ∈ content texts root, word ++ rest = bytes := by
  rw [recognizes_body _ _ _ _, and_iff_right_of_imp]
  rintro ⟨word, hmem, rfl⟩
  obtain ⟨front, -, back, hback, rfl⟩ := Language.mem_mul.1 hmem
  have hheight : root.height < back.length := height_lt_of_mem_tree hback
  simp only [List.length_append]
  omega

/-- Bytes begin with one body at most. -/
theorem content_unique {texts' : List String} {root' : Draft} {word word' : Bytes}
    (hmem : word ∈ content texts root) (hmem' : word' ∈ content texts' root')
    (hbegins : word <+: bytes) (hbegins' : word' <+: bytes) : texts' = texts ∧ root' = root := by
  obtain ⟨rest, hrest⟩ := hbegins
  obtain ⟨rest', hrest'⟩ := hbegins'
  have hread := run_readBody_eq_ok.2 ⟨word, hmem, hrest⟩
  rw [run_readBody_eq_ok.2 ⟨word', hmem', hrest'⟩] at hread
  simp only [Except.ok.injEq, Prod.mk.injEq] at hread
  exact hread.1

/-! ### The header -/

variable {word rest : Bytes} {found : Nat}

/-- Of two numbers of one width that the same bytes begin with, one is the other. -/
theorem numeral_unique {width found' : Nat} {word' rest' : Bytes}
    (hmem : word ∈ numeral width found) (hmem' : word' ∈ numeral width found')
    (hbegins : word' ++ rest' <+: word ++ rest) :
    found' = found ∧ rest' <+: rest := by
  obtain ⟨tail, htail⟩ := hbegins
  rw [List.append_assoc] at htail
  obtain ⟨rfl, rfl⟩ := List.append_inj htail (hmem'.1.trans hmem.1.symm)
  exact ⟨hmem'.2.symm.trans hmem.2, List.prefix_append _ _⟩

/-- Bytes with the magic are the magic, two bytes for a version, and the rest. -/
theorem HasMagic.exists_eq (hmagic : HasMagic bytes) :
    ∃ found, ∃ word ∈ numeral 2 found, ∃ rest, bytes = magic ++ (word ++ rest) := by
  obtain ⟨hlength, tail, rfl⟩ := hmagic
  have htail : 2 ≤ tail.length := by
    have hmagic : magic.length = 4 := rfl
    rw [List.length_append, headerLength] at hlength
    omega
  exact ⟨_, tail.take 2, ⟨List.length_take_of_le htail, rfl⟩, tail.drop 2,
    by rw [List.take_append_drop]⟩

theorem hasMagic_header (hmem : word ∈ numeral 2 found) : HasMagic (magic ++ (word ++ rest)) := by
  refine ⟨?_, List.prefix_append _ _⟩
  have hmagic : magic.length = 4 := rfl
  rw [List.length_append, List.length_append, hmem.1, hmagic, headerLength]
  omega

theorem hasVersion_header (hmem : word ∈ numeral 2 found) {found' : Nat} :
    HasVersion (magic ++ (word ++ rest)) found' ↔ found' = found := by
  constructor
  · rintro ⟨word', hmem', hbegins⟩
    rw [List.prefix_append_right_inj, ← List.append_nil word'] at hbegins
    exact (numeral_unique hmem hmem' hbegins).1
  · rintro rfl
    exact ⟨word, hmem, by rw [← List.append_assoc]; exact List.prefix_append _ _⟩

theorem bears_header (hmem : word ∈ numeral 2 found) : Bears (magic ++ (word ++ rest)) texts root ↔
    found = version ∧ ∃ body ∈ content texts root, body <+: rest := by
  constructor
  · rintro ⟨_, hchunk, hbegins⟩
    obtain ⟨_, rfl, _, htail, rfl⟩ := Language.mem_mul.1 hchunk
    obtain ⟨word', hmem', body, hbody, rfl⟩ := Language.mem_mul.1 htail
    rw [List.prefix_append_right_inj] at hbegins
    obtain ⟨rfl, hbegins⟩ := numeral_unique hmem hmem' hbegins
    exact ⟨rfl, body, hbody, hbegins⟩
  · rintro ⟨rfl, body, hbody, hbegins⟩
    refine ⟨magic ++ (word ++ body), ?_, ?_⟩
    · exact Language.append_mem_mul rfl (Language.append_mem_mul hmem hbody)
    · rwa [List.prefix_append_right_inj, List.prefix_append_right_inj]

/-- Without the magic, nothing else counts. -/
theorem load_of_not_hasMagic (hmagic : ¬ HasMagic bytes) : load bytes = .error .badMagic := by
  have hbad : bytes.length < headerLength ∨ bytes.take magic.length ≠ magic := by
    by_contra h
    push Not at h
    exact hmagic ⟨h.1, List.prefix_iff_eq_take.2 h.2.symm⟩
  rw [load, if_pos hbad]
  rfl

/-- With the magic and a version, what follows decides. -/
theorem load_header (hmem : word ∈ numeral 2 found) : load (magic ++ (word ++ rest)) =
    if found ≠ version then .error (.unsupportedVersion found)
    else match (readBody (rest.length + 1)).run rest with
      | .error fault => .error (.malformed fault)
      | .ok ((texts, root), _) =>
        if maxNesting < root.height then .error (.nestingTooDeep maxNesting)
        else .ok { strings := .ofList texts, root, cursor := [] } := by
  -- The prefix passes the test, and the version is found behind the magic.
  have hgood : ¬ ((magic ++ (word ++ rest)).length < headerLength ∨
      (magic ++ (word ++ rest)).take magic.length ≠ magic) := by
    obtain ⟨hlength, hbegins⟩ : HasMagic (magic ++ (word ++ rest)) := hasMagic_header hmem
    rintro (hlt | hne)
    · exact absurd hlt (Nat.not_lt.2 hlength)
    · exact hne (List.prefix_iff_eq_take.1 hbegins).symm
  have hversion : (readNumber 2).run ((magic ++ (word ++ rest)).drop magic.length) =
      .ok (found, rest) := by
    rw [List.drop_left]
    exact (recognizes_number 2 _ _ _).2 ⟨trivial, word, hmem, rfl⟩
  have hbody : (magic ++ (word ++ rest)).drop headerLength = rest := by
    rw [← List.append_assoc, show headerLength = (magic ++ word).length from ?_, List.drop_left]
    rw [List.length_append, hmem.1]
    rfl
  unfold load
  rw [if_neg hgood]
  simp only [hversion, hbody]
  split
  case isTrue hfound => rfl
  case isFalse hfound =>
    change (match (readBody (rest.length + 1)).run rest with
      | .error fault => _
      | .ok ((texts, root), _) => _) = _
    split
    · rfl
    · rw [Draft.nestingDepth_eq_height]
      split <;> rfl

/-- Every sequence of bytes is answered in one of five ways. -/
theorem load_cases (bytes : Bytes) :
    (¬ HasMagic bytes ∧ load bytes = .error .badMagic) ∨
    (∃ found, HasVersion bytes found ∧ found ≠ version ∧
      load bytes = .error (.unsupportedVersion found)) ∨
    (HasVersion bytes version ∧ (∀ texts root, ¬ Bears bytes texts root) ∧
      ∃ fault, load bytes = .error (.malformed fault)) ∨
    (∃ texts root, Bears bytes texts root ∧ maxNesting < root.height ∧
      load bytes = .error (.nestingTooDeep maxNesting)) ∨
    ∃ texts root, Bears bytes texts root ∧ root.height ≤ maxNesting ∧
      load bytes = .ok { strings := .ofList texts, root, cursor := [] } := by
  -- The tests are taken in the order in which they are made.
  by_cases hmagic : HasMagic bytes
  case neg => exact .inl ⟨hmagic, load_of_not_hasMagic hmagic⟩
  obtain ⟨found, word, hmem, rest, rfl⟩ := hmagic.exists_eq
  refine .inr ?_
  rw [load_header hmem]
  by_cases hfound : found = version
  case neg => exact .inl ⟨found, (hasVersion_header hmem).2 rfl, hfound, if_pos hfound⟩
  refine .inr ?_
  rw [if_neg (not_not_intro hfound)]
  cases hread : (readBody (rest.length + 1)).run rest with
  | error fault =>
    refine .inl ⟨(hasVersion_header hmem).2 hfound.symm, fun texts root hbears => ?_, fault, rfl⟩
    obtain ⟨-, body, hbody, tail, htail⟩ := (bears_header hmem).1 hbears
    rw [run_readBody_eq_ok.2 ⟨body, hbody, htail⟩] at hread
    cases hread
  | ok p =>
    obtain ⟨⟨texts, root⟩, tail⟩ := p
    obtain ⟨body, hbody, htail⟩ := run_readBody_eq_ok.1 hread
    have hbears : Bears (magic ++ (word ++ rest)) texts root :=
      (bears_header hmem).2 ⟨hfound, body, hbody, tail, htail⟩
    refine .inr ?_
    by_cases hheight : maxNesting < root.height
    · exact .inl ⟨texts, root, hbears, hheight, if_pos hheight⟩
    · exact .inr ⟨texts, root, hbears, Nat.not_lt.1 hheight, if_neg hheight⟩

theorem HasVersion.hasMagic (hversion : HasVersion bytes found) : HasMagic bytes := by
  obtain ⟨word, hmem, rest, rfl⟩ := hversion
  rw [List.append_assoc]
  exact hasMagic_header hmem

theorem HasVersion.unique {found' : Nat} (hversion : HasVersion bytes found)
    (hversion' : HasVersion bytes found') : found' = found := by
  obtain ⟨word, hmem, rest, rfl⟩ := hversion
  rw [List.append_assoc] at hversion'
  exact (hasVersion_header hmem).1 hversion'

theorem Bears.hasVersion (hbears : Bears bytes texts root) : HasVersion bytes version := by
  obtain ⟨_, hchunk, rest, rfl⟩ := hbears
  obtain ⟨_, rfl, _, htail, rfl⟩ := Language.mem_mul.1 hchunk
  obtain ⟨word, hmem, body, -, rfl⟩ := Language.mem_mul.1 htail
  refine ⟨word, hmem, body ++ rest, by simp only [List.append_assoc]⟩

/-- Bytes begin with one chunk at most. -/
theorem Bears.unique {texts' : List String} {root' : Draft} (hbears : Bears bytes texts root)
    (hbears' : Bears bytes texts' root') : texts' = texts ∧ root' = root := by
  obtain ⟨found, word, hmem, rest, rfl⟩ := hbears.hasVersion.hasMagic.exists_eq
  obtain ⟨-, body, hbody, hbegins⟩ := (bears_header hmem).1 hbears
  obtain ⟨-, body', hbody', hbegins'⟩ := (bears_header hmem).1 hbears'
  exact content_unique hbody hbody' hbegins hbegins'

/-- What bytes bear decides, and how deep it is nested. -/
theorem load_of_bears (hbears : Bears bytes texts root) : load bytes =
    if maxNesting < root.height then .error (.nestingTooDeep maxNesting)
    else .ok { strings := .ofList texts, root, cursor := [] } := by
  rcases load_cases bytes with ⟨hmagic, -⟩ | ⟨found, hversion, hne, -⟩ | ⟨-, hnone, -⟩ |
    ⟨texts', root', hbears', hheight, h⟩ | ⟨texts', root', hbears', hheight, h⟩
  · exact absurd hbears.hasVersion.hasMagic hmagic
  · exact absurd (hbears.hasVersion.unique hversion) hne
  · exact absurd hbears (hnone texts root)
  · obtain ⟨rfl, rfl⟩ := hbears.unique hbears'
    rw [h, if_pos hheight]
  · obtain ⟨rfl, rfl⟩ := hbears.unique hbears'
    rw [h, if_neg (Nat.not_lt.2 hheight)]

theorem load_of_hasVersion (hversion : HasVersion bytes found) (hne : found ≠ version) :
    load bytes = .error (.unsupportedVersion found) := by
  obtain ⟨_, word, hmem, rest, rfl⟩ := hversion.hasMagic.exists_eq
  obtain rfl := (hasVersion_header hmem).1 hversion
  rw [load_header hmem, if_pos hne]

theorem load_of_not_bears (hversion : HasVersion bytes version)
    (hnone : ∀ texts root, ¬ Bears bytes texts root) :
    ∃ fault, load bytes = .error (.malformed fault) := by
  rcases load_cases bytes with ⟨hmagic, -⟩ | ⟨found, hversion', hne, -⟩ | ⟨-, -, h⟩ |
    ⟨texts, root, hbears, -⟩ | ⟨texts, root, hbears, -⟩
  · exact absurd hversion.hasMagic hmagic
  · exact absurd (hversion.unique hversion') hne
  · exact h
  · exact absurd hbears (hnone texts root)
  · exact absurd hbears (hnone texts root)

/-- Loading accepts exactly the bytes that begin with a chunk of drafts that are not nested too
deep, and answers what they bear, which is unique. Of all other bytes it says the first thing that
is wrong with them: the magic, the version, the body or the nesting. -/
theorem load_spec (bytes : Bytes) :
    (∀ a, load bytes = .ok a ↔ ∃ texts root, Bears bytes texts root ∧ root.height ≤ maxNesting ∧
      a = { strings := .ofList texts, root, cursor := [] }) ∧
    (∀ texts root texts' root', Bears bytes texts root → Bears bytes texts' root' →
      texts' = texts ∧ root' = root) ∧
    (load bytes = .error .badMagic ↔ bytes.length < headerLength ∨ ¬ magic <+: bytes) ∧
    (∀ found, load bytes = .error (.unsupportedVersion found) ↔
      HasVersion bytes found ∧ found ≠ version) ∧
    ((∃ fault, load bytes = .error (.malformed fault)) ↔
      HasVersion bytes version ∧ ∀ texts root, ¬ Bears bytes texts root) ∧
    (∀ limit, load bytes = .error (.nestingTooDeep limit) ↔
      limit = maxNesting ∧ ∃ texts root, Bears bytes texts root ∧ maxNesting < root.height) := by
  have hmagic : (bytes.length < headerLength ∨ ¬ magic <+: bytes) ↔ ¬ HasMagic bytes := by
    rw [HasMagic, not_and_or, Nat.not_le]
  rw [hmagic]
  refine ⟨fun a => ⟨fun hload => ?ok, ?_⟩, fun _ _ _ _ hbears hbears' => hbears.unique hbears',
    ⟨fun hload => ?magic, load_of_not_hasMagic⟩,
    fun found => ⟨fun hload => ?version, fun h => load_of_hasVersion h.1 h.2⟩,
    ⟨fun ⟨fault, hload⟩ => ?body, fun h => load_of_not_bears h.1 h.2⟩,
    fun limit => ⟨fun hload => ?nesting, ?_⟩⟩
  -- From an answer, the way in which the bytes are answered is read off.
  case ok | magic | version | body | nesting =>
    rcases load_cases bytes with ⟨hmagic, h⟩ | ⟨found, hversion, hne, h⟩ |
      ⟨hversion, hnone, fault, h⟩ | ⟨texts, root, hbears, hheight, h⟩ |
      ⟨texts, root, hbears, hheight, h⟩ <;> rw [h] at hload <;> cases hload
    first
      | exact hmagic
      | exact ⟨hversion, hne⟩
      | exact ⟨hversion, hnone⟩
      | exact ⟨rfl, texts, root, hbears, hheight⟩
      | exact ⟨texts, root, hbears, hheight, rfl⟩
  · rintro ⟨texts, root, hbears, hheight, rfl⟩
    rw [load_of_bears hbears, if_neg (Nat.not_lt.2 hheight)]
  · rintro ⟨rfl, texts, root, hbears, hheight⟩
    rw [load_of_bears hbears, if_pos hheight]

/-! ### Nesting -/

/-- What is saved bears what it was saved from. -/
theorem bears_save {a : Assembler} (hsize : a.save.length ≤ Capacity.maxWord) :
    Bears a.save a.strings.toList a.root := by
  have hlength := a.length_save
  have hread : Reads (readBody (a.root.height + 1)) a.body (a.strings.toList, a.root) :=
    reads_body (Nat.lt_succ_self _) (by omega)
  obtain ⟨-, body, hbody, hword⟩ := (recognizes_body _ _ _ _).1 (hread [])
  rw [List.append_nil, List.append_nil] at hword
  have hversion : number 2 version ∈ numeral 2 version := ⟨rfl, rfl⟩
  rw [save, List.append_assoc]
  exact (bears_header hversion).2 ⟨rfl, body, hbody, hword ▸ List.prefix_refl _⟩

/-- The loop that measures how deep a draft is nested ends, after a round for each draft of the
tree, with the length of the longest path of nested drafts. It would do so in whichever order it
looked at the drafts. What bears a draft is loaded, unless a path leads more than eight levels
down. -/
theorem nesting_checked (d : Draft) :
    (∀ rounds, (Descent.round^[rounds] (.start d)).pending = [] ↔ d.count ≤ rounds) ∧
    (Descent.round^[d.count] (.start d)).deepest = d.nestingDepth ∧
    (∀ rounds s, (Descent.start d).Leads rounds s → s.pending = [] →
      rounds = d.count ∧ s.deepest = d.nestingDepth) ∧
    IsGreatest {n | ∃ path : List Nat, (d.at? path).isSome ∧ path.length = n} d.nestingDepth ∧
    ∀ bytes texts, Bears bytes texts d →
      (load bytes = .error (.nestingTooDeep maxNesting) ↔
        ∃ path : List Nat, 8 < path.length ∧ (d.at? path).isSome) ∧
      ((∃ a, load bytes = .ok a) ↔ ∀ path : List Nat, (d.at? path).isSome → path.length ≤ 8) := by
  refine ⟨fun rounds => ?_, ?_, fun rounds s hleads hpending => ⟨?_, ?_⟩, ?_,
    fun bytes texts hbears => ?_⟩
  · rw [Descent.pending_iterate_eq_nil_iff, Descent.size_start]
  · rw [Draft.nestingDepth, Descent.finish_eq, Descent.size_start]
  · -- Each round takes one draft off those that are still to be looked at, in whichever order.
    have hsize := hleads.size_eq
    rw [Descent.size_start, Descent.size_eq_zero_iff.2 hpending] at hsize
    omega
  · rw [hleads.deepest_eq hpending, d.nestingDepth_eq_height]
  · rw [d.nestingDepth_eq_height]
    exact d.isGreatest_height
  · have hdeep : maxNesting < d.height ↔ ∃ path : List Nat, 8 < path.length ∧ (d.at? path).isSome :=
      Draft.lt_height_iff
    have hflat : (∀ path : List Nat, (d.at? path).isSome → path.length ≤ 8) ↔
        ¬ maxNesting < d.height := by
      rw [hdeep]
      grind
    rw [load_of_bears hbears, ← hdeep, hflat]
    by_cases hheight : maxNesting < d.height <;> simp [hheight]

/-- A chain of blank drafts, each nested in the one before. -/
def chain (levels : Nat) : Assembler where
  strings := .ofList [""]
  root := links levels
  cursor := []
where
  /-- A draft with that many levels below it. -/
  links : Nat → Draft
    | 0 => .blank
    | levels + 1 => { Draft.blank with nested := [links levels] }

/-- Eight levels are loaded, nine are not. -/
theorem nesting_checked_chain :
    (chain 9).root.nestingDepth = 9 ∧ load (chain 9).save = .error (.nestingTooDeep maxNesting) ∧
    ∃ a, load (chain 8).save = .ok a := by
  obtain ⟨hended, -, hany, -, hdeep⟩ := nesting_checked (chain 9).root
  obtain ⟨-, -, -, -, hflat⟩ := nesting_checked (chain 8).root
  refine ⟨?_, ?_, ?_⟩
  · have hleads := Descent.leads_iterate (Nat.le_refl (Descent.start (chain 9).root).size)
    rw [← (hany _ _ hleads ((hended _).2 (by decide +kernel))).2]
    decide +kernel
  · exact ((hdeep _ _ (bears_save (by decide +kernel))).1).2
      ⟨List.replicate 9 0, by decide, by decide +kernel⟩
  · exact ((hflat _ _ (bears_save (by decide +kernel))).2).2 fun path => Draft.length_le_height

end Assembler

end ActorMachine
