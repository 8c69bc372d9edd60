import Sicxe.Object.Text.Parser
import Sicxe.Proofs.Success
import Sicxe.Proofs.Text.Lines
import Sicxe.Proofs.Text.Numeral

/-!
# The numbers in the records of a text

A text is read as a module only if each of its records has the fields of its kind and every field
that is a number can be read as one. Here is said which texts these numbers are.

* `Object.Record.Spelled`: the numbers in the fields of a record have given properties.
* `Object.readRecord_readable`: what the numbers of a record are like that was read, and
  `Object.readable_of_ofText` for all records of a text.
* `Object.numbers_of_ofText`: **a number is written in hexadecimal digits and nothing else, and a
  half-byte count is 1 to 8**, exactly where no plus sign and no count beyond a byte gets through.
-/

namespace Sicxe.Object

open Hex (IsNumeral)

/-! ### The numbers of a record -/

/-- A record has the fields of its kind. Those that are numbers have the property `number`, a
payload has the property `payload` and a half-byte count has `count` as well. -/
inductive Record.Spelled (number payload count : List Char → Prop) : Record → Prop
  | header (name : List Char) {start length : List Char} (atStart : number start)
      (ofLength : number length) : Spelled number payload count [['H'], name, start, length]
  | symbol (name : List Char) {address : List Char} (atAddress : number address) :
      Spelled number payload count [['D'], name, address]
  | importName (name : List Char) : Spelled number payload count [['R'], name]
  | text {address length bytes : List Char} (atAddress : number address)
      (ofLength : number length) (ofBytes : payload bytes) :
      Spelled number payload count [['T'], address, length, bytes]
  | fixup (symbol : List Char) {address halfBytes : List Char} (atAddress : number address)
      (isNumber : number halfBytes) (isCount : count halfBytes) :
      Spelled number payload count [['M'], address, halfBytes, '+' :: symbol]
  | entry {address : List Char} (atAddress : number address) :
      Spelled number payload count [['E'], address]

/-- The numbers of a record are hexadecimal digits and nothing else, and so is a payload; a
half-byte count is 1 to 8. -/
def Record.WellSpelled : Record → Prop :=
  Spelled IsNumeral (fun payload => ∀ c ∈ payload, c ∈ Hex.digitChars)
    (fun halfBytes => 1 ≤ Hex.number halfBytes ∧ Hex.number halfBytes ≤ 8)

/-- A number of 32 bits in hexadecimal digits, behind at most one plus sign. -/
def IsReadable (field : List Char) : Prop :=
  IsNumeral (Hex.unsigned field) ∧ Hex.number (Hex.unsigned field) < 0x100000000

/-- Pairs of characters, each of them two digits or a plus sign and a digit. -/
def IsPairs (payload : List Char) : Prop :=
  ∃ pairs : List (List Char), payload = pairs.flatten ∧
    ∀ pair ∈ pairs, pair.length = 2 ∧ IsNumeral (Hex.unsigned pair)

/-- The numbers of a record can be read. Of a half-byte count the last byte is 1 to 8. -/
def Record.Readable : Record → Prop :=
  Spelled IsReadable IsPairs
    (fun halfBytes => 1 ≤ Hex.number (Hex.unsigned halfBytes) % 256 ∧
      Hex.number (Hex.unsigned halfBytes) % 256 ≤ 8)

/-- There is no plus sign in the numbers of a record, and a half-byte count fits in a byte. -/
def Record.Plain : Record → Prop :=
  Spelled ('+' ∉ ·) ('+' ∉ ·) (fun halfBytes => Hex.number halfBytes < 256)

namespace Record.Spelled

variable {number payload count number' payload' count' : List Char → Prop} {record : Record}

theorem imp (spelled : Spelled number payload count record)
    (numbers : ∀ field, number field → number' field)
    (payloads : ∀ bytes, payload bytes → payload' bytes)
    (counts : ∀ field, number field → count field → count' field) :
    Spelled number' payload' count' record := by
  cases spelled with
  | header name atStart ofLength => exact .header name (numbers _ atStart) (numbers _ ofLength)
  | symbol name atAddress => exact .symbol name (numbers _ atAddress)
  | importName name => exact .importName name
  | text atAddress ofLength ofBytes =>
    exact .text (numbers _ atAddress) (numbers _ ofLength) (payloads _ ofBytes)
  | fixup symbol atAddress isNumber isCount =>
    exact .fixup symbol (numbers _ atAddress) (numbers _ isNumber) (counts _ isNumber isCount)
  | entry atAddress => exact .entry (numbers _ atAddress)

theorem and (spelled : Spelled number payload count record)
    (also : Spelled number' payload' count' record) :
    Spelled (fun field => number field ∧ number' field)
      (fun bytes => payload bytes ∧ payload' bytes) (fun field => count field ∧ count' field)
      record := by
  cases spelled with
  | header name atStart ofLength =>
    cases also with
    | header _ atStart' ofLength' => exact .header name ⟨atStart, atStart'⟩ ⟨ofLength, ofLength'⟩
  | symbol name atAddress =>
    cases also with
    | symbol _ atAddress' => exact .symbol name ⟨atAddress, atAddress'⟩
  | importName name => exact .importName name
  | text atAddress ofLength ofBytes =>
    cases also with
    | text atAddress' ofLength' ofBytes' =>
      exact .text ⟨atAddress, atAddress'⟩ ⟨ofLength, ofLength'⟩ ⟨ofBytes, ofBytes'⟩
  | fixup symbol atAddress isNumber isCount =>
    cases also with
    | fixup _ atAddress' isNumber' isCount' =>
      exact .fixup symbol ⟨atAddress, atAddress'⟩ ⟨isNumber, isNumber'⟩ ⟨isCount, isCount'⟩
  | entry atAddress =>
    cases also with
    | entry atAddress' => exact .entry ⟨atAddress, atAddress'⟩

end Record.Spelled

/-- Pairs without a plus sign are digits. -/
theorem IsPairs.digits {payload : List Char} (pairs : IsPairs payload) (noPlus : '+' ∉ payload) :
    ∀ c ∈ payload, c ∈ Hex.digitChars := by
  obtain ⟨pairs, rfl, readable⟩ := pairs
  intro c member
  obtain ⟨pair, isPair, inPair⟩ := List.mem_flatten.mp member
  have plain : '+' ∉ pair := fun plus => noPlus (List.mem_flatten.mpr ⟨pair, isPair, plus⟩)
  have numeral := (readable pair isPair).2
  rw [Hex.unsigned_of_not_mem plain] at numeral
  exact numeral.2 c inPair

/-- **What is readable is spelled well exactly if it is plain.** -/
theorem Record.Readable.wellSpelled_iff {record : Record} (readable : record.Readable) :
    record.WellSpelled ↔ record.Plain := by
  constructor
  · intro wellSpelled
    refine wellSpelled.imp (fun _ numeral => numeral.plus_not_mem) (fun bytes digits plus => ?_)
      (fun field numeral range => by omega)
    exact absurd (digits _ plus) (by decide)
  · intro plain
    refine (Spelled.and readable plain).imp (fun field ⟨numeral, noPlus⟩ => ?_)
      (fun bytes ⟨pairs, noPlus⟩ => pairs.digits noPlus)
      (fun field ⟨_, noPlus⟩ ⟨range, small⟩ => ?_)
    · rw [← Hex.unsigned_of_not_mem noPlus]
      exact numeral.1
    · rw [Hex.unsigned_of_not_mem noPlus, Nat.mod_eq_of_lt small] at range
      exact range

/-! ### What is read -/

variable {draft next : Draft} {line : Nat} {fields : Record} {what : String}

theorem readNumber_eq_ok_iff {field : List Char} {number : Nat} :
    readNumber line what field = .ok number ↔
      IsNumeral (Hex.unsigned field) ∧ Hex.number (Hex.unsigned field) = number ∧
        number < 0x100000000 := by
  have spelled : readNumber line what field = .ok number ↔
      Numeral.natural? 16 Numeral.wordBound field = some number := by
    unfold readNumber malformed
    cases Numeral.natural? 16 Numeral.wordBound field <;> simp
  rw [spelled, Numeral.natural?_eq_some_iff]
  rfl

theorem isReadable_of_readNumber {field : List Char} {number : Nat}
    (read : readNumber line what field = .ok number) : IsReadable field := by
  obtain ⟨numeral, rfl, bound⟩ := readNumber_eq_ok_iff.mp read
  exact ⟨numeral, bound⟩

/-- What is taken for two bytes of text are two narrow characters or a wide one. -/
theorem takePair?_cases {payload pair rest : List Char}
    (taken : takePair? payload = some (pair, rest)) :
    payload = pair ++ rest ∧ Text.byteLength payload = 2 + Text.byteLength rest ∧
      (pair.length = 2 ∨ ∃ c, pair = [c] ∧ c.utf8Size = 2) := by
  unfold takePair? at taken
  split at taken
  · cases taken
  · rename_i first others
    by_cases wide : first.utf8Size = 2
    · rw [if_pos wide] at taken
      cases taken
      exact ⟨rfl, by rw [Text.byteLength_cons, wide], .inr ⟨first, rfl, wide⟩⟩
    rw [if_neg wide] at taken
    by_cases narrow : first.utf8Size = 1
    · rw [if_pos narrow] at taken
      split at taken
      · rename_i second others
        by_cases alsoNarrow : second.utf8Size = 1
        · rw [if_pos alsoNarrow] at taken
          cases taken
          refine ⟨rfl, ?_, .inl rfl⟩
          rw [Text.byteLength_cons, Text.byteLength_cons, narrow, alsoNarrow]
          omega
        · rw [if_neg alsoNarrow] at taken
          cases taken
      · cases taken
    · rw [if_neg narrow] at taken
      cases taken

/-- A number of two bytes has two characters. -/
theorem length_of_takePair? {payload pair rest : List Char}
    (taken : takePair? payload = some (pair, rest)) (numeral : IsNumeral (Hex.unsigned pair)) :
    pair.length = 2 := by
  obtain ⟨_, _, two | ⟨c, rfl, wide⟩⟩ := takePair?_cases taken
  · exact two
  · by_cases plus : c = '+'
    · subst plus
      exact absurd rfl numeral.1
    · have alone : Hex.unsigned [c] = [c] := Hex.unsigned_of_not_mem (by simpa using Ne.symm plus)
      rw [alone] at numeral
      have narrow : Hex.digitChars.all (fun c => c.utf8Size = 1) = true := by decide
      have one := of_decide_eq_true (List.all_eq_true.mp narrow c (numeral.2 c List.mem_cons_self))
      cases one.symm.trans wide

/-- **A payload that is read up to its end is made of pairs.** -/
theorem isPairs_of_readPayload {count : Nat} {payload : List Char} {bytes : List UInt8}
    (read : readPayload line count payload = .ok bytes)
    (whole : Text.byteLength payload = 2 * count) : IsPairs payload := by
  induction count generalizing payload bytes with
  | zero =>
    rw [Text.eq_nil_of_byteLength whole]
    exact ⟨[], rfl, nofun⟩
  | succ count ih =>
    unfold readPayload at read
    split at read
    · cases read
    · rename_i pair rest taken
      obtain ⟨byte, readPair, read⟩ := bind_eq_ok_iff.mp read
      obtain ⟨others, readRest, _⟩ := bind_eq_ok_iff.mp read
      obtain ⟨numeral, _, _⟩ := readNumber_eq_ok_iff.mp readPair
      obtain ⟨split, length, _⟩ := takePair?_cases taken
      obtain ⟨pairs, rfl, readable⟩ := ih readRest (by omega)
      refine ⟨pair :: pairs, split, ?_⟩
      rw [List.forall_mem_cons]
      exact ⟨⟨length_of_takePair? taken numeral, numeral⟩, readable⟩

theorem readable_readHeader (read : readHeader line fields = .ok draft) :
    Record.Readable (['H'] :: fields) := by
  unfold readHeader at read
  split at read
  · obtain ⟨start, readStart, read⟩ := bind_eq_ok_iff.mp read
    obtain ⟨length, readLength, _⟩ := bind_eq_ok_iff.mp read
    exact .header _ (isReadable_of_readNumber readStart) (isReadable_of_readNumber readLength)
  · cases read

theorem readable_readSymbol (read : readSymbol draft line fields = .ok next) :
    Record.Readable (['D'] :: fields) := by
  unfold readSymbol at read
  split at read
  · obtain ⟨address, readAddress, _⟩ := bind_eq_ok_iff.mp read
    exact .symbol _ (isReadable_of_readNumber readAddress)
  · cases read

theorem readable_readImport (read : readImport draft line fields = .ok next) :
    Record.Readable (['R'] :: fields) := by
  unfold readImport at read
  split at read
  · exact .importName _
  · cases read

theorem readable_readText (read : readText draft line fields = .ok next) :
    Record.Readable (['T'] :: fields) := by
  unfold readText at read
  split at read
  · obtain ⟨address, readAddress, read⟩ := bind_eq_ok_iff.mp read
    obtain ⟨length, readLength, read⟩ := bind_eq_ok_iff.mp read
    split at read
    · cases read
    · split at read
      · cases read
      · split at read
        · cases read
        · rename_i whole
          split at read
          · cases read
          · obtain ⟨bytes, readBytes, _⟩ := bind_eq_ok_iff.mp read
            exact .text (isReadable_of_readNumber readAddress)
              (isReadable_of_readNumber readLength)
              (isPairs_of_readPayload readBytes (Decidable.not_not.mp whole))
  · cases read

theorem readable_readFixup (read : readFixup draft line fields = .ok next) :
    Record.Readable (['M'] :: fields) := by
  unfold readFixup at read
  split at read
  · obtain ⟨address, readAddress, read⟩ := bind_eq_ok_iff.mp read
    obtain ⟨count, readCount, read⟩ := bind_eq_ok_iff.mp read
    dsimp only at read
    split at read
    · cases read
    · rename_i inRange
      split at read
      · obtain ⟨_, same, _⟩ := readNumber_eq_ok_iff.mp readCount
        refine .fixup _ (isReadable_of_readNumber readAddress)
          (isReadable_of_readNumber readCount) ?_
        rw [same]
        omega
      · cases read
  · cases read

theorem readable_readEntry (read : readEntry draft line fields = .ok next) :
    Record.Readable (['E'] :: fields) := by
  unfold readEntry at read
  split at read
  · obtain ⟨entry, readAddress, _⟩ := bind_eq_ok_iff.mp read
    exact .entry (isReadable_of_readNumber readAddress)
  · cases read

/-- **The numbers of a record that was read are readable.** -/
theorem readRecord_readable {record : Record} (read : readRecord draft line record = .ok next) :
    record.Readable := by
  unfold readRecord at read
  split at read
  · cases read
  · exact readable_readSymbol read
  · exact readable_readImport read
  · exact readable_readText read
  · exact readable_readFixup read
  · exact readable_readEntry read
  · cases read
  · cases read

theorem readRecords_readable {records : List (Nat × Record)}
    (read : readRecords draft records = .ok next) :
    ∀ numbered ∈ records, numbered.2.Readable := by
  induction records generalizing draft with
  | nil => exact nofun
  | cons numbered rest ih =>
    unfold readRecords at read
    split at read
    · rename_i first
      rw [List.forall_mem_cons]
      exact ⟨readRecord_readable first, ih read⟩
    · cases read

/-! ### Whole texts -/

variable {text : String} {object : Object}

/-- **All records of a text that is read as a module are readable.** -/
theorem readable_of_ofText (read : ofText text = .ok object) :
    ∀ numbered ∈ recordsOfText text.toList, numbered.2.Readable := by
  unfold ofText ofRecords at read
  split at read
  · cases read
  · rename_i line fields rest isText
    obtain ⟨header, readFirst, read⟩ := bind_eq_ok_iff.mp read
    obtain ⟨draft, readRest, _⟩ := bind_eq_ok_iff.mp read
    rw [isText, List.forall_mem_cons]
    exact ⟨readable_readHeader readFirst, readRecords_readable readRest⟩
  · cases read

/-- **The numbers in a text that is read as a module.** Every number is written in hexadecimal
digits behind at most one plus sign, and so is each pair of characters of a payload; of every
half-byte count the last byte is 1 to 8. So the numbers and payloads are digits and nothing else,
and the half-byte counts themselves are 1 to 8, exactly if the text has no plus sign in them and no
half-byte count that does not fit in a byte. -/
theorem numbers_of_ofText (read : ofText text = .ok object) :
    (∀ numbered ∈ recordsOfText text.toList, numbered.2.Readable) ∧
      ((∀ numbered ∈ recordsOfText text.toList, numbered.2.WellSpelled) ↔
        ∀ numbered ∈ recordsOfText text.toList, numbered.2.Plain) := by
  have readable := readable_of_ofText read
  refine ⟨readable, forall₂_congr fun numbered member => ?_⟩
  exact (readable numbered member).wellSpelled_iff

/-- A text with a record of every kind. -/
def copyText : String :=
  "H^COPY  ^001000^000007\nD^COPY^001000\nR^RDREC\nT^001000^07^4B1000000320Ff\n" ++
  "M^001001^05^+RDREC\nE^001000\n"

theorem numbers_of_ofText_copyText :
    ∃ object, ofText copyText = .ok object ∧
      ∀ numbered ∈ recordsOfText copyText.toList, numbered.2.WellSpelled := by
  obtain ⟨object, read⟩ : ∃ object, ofText copyText = .ok object :=
    exists_ok_of_isSome (by decide +kernel)
  refine ⟨object, read, (numbers_of_ofText read).2.mpr ?_⟩
  have records : recordsOfText copyText.toList =
      [(1, [['H'], "COPY  ".toList, "001000".toList, "000007".toList]),
        (2, [['D'], "COPY".toList, "001000".toList]),
        (3, [['R'], "RDREC".toList]),
        (4, [['T'], "001000".toList, "07".toList, "4B1000000320Ff".toList]),
        (5, [['M'], "001001".toList, "05".toList, '+' :: "RDREC".toList]),
        (6, [['E'], "001000".toList])] := by
    decide +kernel
  rw [records]
  simp only [List.forall_mem_cons]
  exact ⟨.header _ (by decide) (by decide), .symbol _ (by decide), .importName _,
    .text (by decide) (by decide) (by decide), .fixup _ (by decide) (by decide) (by decide),
    .entry (by decide), nofun⟩

/-- A text with a signed number, a signed byte of code and a half-byte count of more than a byte. -/
def signedText : String :=
  "H^A^+0^2\nT^0^02^+500\nM^0^105^+A\nE^0\n"

/-- **The text is read as a module**, its half-byte count as 5, though three of its records are not
spelled well. -/
theorem numbers_of_ofText_signedText :
    ∃ object, ofText signedText = .ok object ∧ object.code = #[5, 0] ∧
      object.relocations = [⟨0, "A", 3, 5, false⟩] ∧
      ∃ header code fixup entry, recordsOfText signedText.toList =
        [(1, header), (2, code), (3, fixup), (4, entry)] ∧
        ¬ header.WellSpelled ∧ ¬ code.WellSpelled ∧ ¬ fixup.WellSpelled := by
  obtain ⟨object, read, parts⟩ : ∃ object, ofText signedText = .ok object ∧
      (object.code, object.relocations) = (#[5, 0], [⟨0, "A", 3, 5, false⟩]) :=
    exists_ok_of_map (by decide +kernel)
  refine ⟨object, read, congrArg Prod.fst parts, congrArg Prod.snd parts,
    [['H'], "A".toList, "+0".toList, "2".toList],
    [['T'], "0".toList, "02".toList, "+500".toList],
    [['M'], "0".toList, "105".toList, '+' :: "A".toList],
    [['E'], "0".toList], by decide +kernel, ?_, ?_, ?_⟩
  · intro spelled
    cases spelled with
    | header _ atStart _ => exact atStart.plus_not_mem (by decide)
  · intro spelled
    cases spelled with
    | text _ _ ofBytes => exact absurd (ofBytes '+' (by decide)) (by decide)
  · intro spelled
    cases spelled with
    | fixup _ _ _ isCount => exact absurd isCount.2 (by decide)

end Sicxe.Object
