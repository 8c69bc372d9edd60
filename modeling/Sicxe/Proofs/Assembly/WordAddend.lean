import Sicxe.Proofs.Assembly.FixedLine

/-!
# Words with a symbol

A word that refers to a symbol holds an addend until the symbol has its address. The addend is
stored in the low 24 bits of the word, and the fix-up reads these as a number without a sign.

* `Relocation.apply_word`: what becomes of a word when its symbol gets an address.
* `Placement.apply_encodeWord`: a word is fixed up to the sum of its addend and the address of its
  symbol exactly if the addend is not negative; a negative one is always refused as an overflow
  (`Placement.apply_encodeWord_negative`).
-/

namespace Sicxe

namespace Relocation

variable {code : Array UInt8} {offset field address origin : Nat} {symbol : String}

/-- **A word has the address of its symbol added**, unless the sum takes more than 24 bits. -/
theorem apply_word (holds : Bytes.slice code offset 3 = Bytes.ofNat 3 field)
    (small : field < 0x1000000) :
    (word offset symbol).apply code address origin =
      if field + address < 0x1000000 then
        .ok (Bytes.write code offset (Bytes.ofNat 3 (field + address)))
      else .error (.fieldOverflow symbol offset) := by
  have full : (Bytes.slice code offset 3).length = 3 := by
    rw [holds, Bytes.length_ofNat]
  have inside : (word offset symbol).inside code.size :=
    ⟨Nat.le_of_ble_eq_true rfl, Nat.le_of_ble_eq_true rfl,
      Bytes.fits_of_length_slice full (Nat.le_of_ble_eq_true rfl)⟩
  have raw : (word offset symbol).raw code = field := by
    show Bytes.value (Bytes.slice code offset 3) = field
    rw [holds, Bytes.value_ofNat]
    exact Nat.mod_eq_of_lt small
  have capacity : (word offset symbol).capacity = 0x1000000 := rfl
  have read : (word offset symbol).field code = field := by
    rw [Relocation.field, raw, capacity, Nat.mod_eq_of_lt small]
  have put : (word offset symbol).put code (field + address) =
      Bytes.write code offset (Bytes.ofNat 3 (field + address)) := by
    rw [Relocation.put, raw, capacity, Nat.div_eq_of_lt small, Nat.zero_mul, Nat.zero_add]
    rfl
  rw [apply_of_inside inside, read]
  by_cases room : field + address < 0x1000000
  · rw [(resolve_absolute_iff rfl).mpr ⟨room, rfl⟩, if_pos room, Except.map, put]
  · have refused : (word offset symbol).resolve field address origin =
        .error (.fieldOverflow symbol offset) := by
      rw [resolve, if_neg (show ¬ (word offset symbol).relative = true from Bool.false_ne_true)]
      exact if_neg room
    rw [refused, if_neg room, Except.map]

end Relocation

namespace Placement

variable {placement : Placement} {base : Option UInt32} {line : PlacedLine}
variable {encoded : EncodedLine} {record : Relocation} {text : String} {value : Value}

/-- What a word adds to the address of its symbol: the constant behind an import, or the distance of
an address of the program from the start. -/
def addend (placement : Placement) (value : Value) : Int :=
  if value.external = none then value.constant - placement.start else value.constant

/-- The symbol that a value is an offset from: an import, or the program for one of its
addresses. -/
def RefersTo (placement : Placement) (value : Value) (symbol : String) : Prop :=
  value.external = some symbol ∨
    value.external = none ∧ value.relative = 1 ∧ symbol = placement.name

/-- A field with a symbol holds the addend. -/
theorem addend_of_addressField {field : AddressField} {symbol : String}
    (holds : placement.addressField text value = .ok field)
    (isSymbol : field.symbol = some symbol) :
    placement.RefersTo value symbol ∧ field.value = placement.addend value := by
  unfold addressField at holds
  split at holds
  · rename_i isImport
    cases holds
    refine ⟨Or.inl (isImport.trans isSymbol), ?_⟩
    simp only [addend, isImport, reduceCtorEq, if_false]
  · rename_i isLocal
    split at holds
    · rename_i moves
      cases holds
      cases isSymbol
      refine ⟨Or.inr ⟨isLocal, moves.1, rfl⟩, ?_⟩
      simp only [addend, isLocal, if_true]
    · split at holds
      · cases holds
        cases isSymbol
      · cases holds

/-- **A word with a symbol is fixed up to its addend plus the address of the symbol if the addend is
not negative, and refused as an overflow otherwise**, whatever the address is for which the sum is a
word. Only the three bytes of the word change. -/
theorem apply_encodeWord (isWord : line.command = .directive .WORD)
    (encodes : placement.encodeLine base line = .ok encoded)
    (isRecord : encoded.record = some record) :
    ∃ text value, line.operand = some text ∧ placement.eval text line.address = .ok value ∧
      placement.RefersTo value record.symbol ∧
      -0x800000 ≤ placement.addend value ∧ placement.addend value ≤ 0xFFFFFF ∧
      ∀ (code : Array UInt8) (address origin : Nat),
        Bytes.slice code (placement.offset line) 3 = encoded.bytes →
        0 ≤ address + placement.addend value → address + placement.addend value ≤ 0xFFFFFF →
        record.apply code address origin =
          if 0 ≤ placement.addend value then
            .ok (Bytes.write code (placement.offset line)
              (Bytes.ofNat 3 (address + placement.addend value).toNat))
          else .error (.fieldOverflow record.symbol record.offset) := by
  simp only [encodeLine, isWord] at encodes
  obtain ⟨text, value, field, given, evaluated, holds, least, greatest, rfl⟩ :=
    encodeWord_cases encodes
  obtain ⟨symbol, isSymbol, rfl⟩ := Option.map_eq_some_iff.mp isRecord
  obtain ⟨refers, same⟩ := addend_of_addressField holds isSymbol
  refine ⟨text, value, given, evaluated, refers, same ▸ least, same ▸ greatest, ?_⟩
  intro code address origin bytes notNegative fits
  rw [← same] at notNegative fits ⊢
  rw [Relocation.apply_word bytes (by omega)]
  by_cases positive : 0 ≤ field.value
  · have sum : (field.value % 0x1000000).toNat + address = (address + field.value).toNat := by
      omega
    rw [sum, if_pos (by omega), if_pos positive]
  · -- The addend reads as 2^24 more than it is, and so the sum does not fit.
    rw [if_neg (by omega), if_neg positive]
    rfl

/-- A word five behind an import becomes the address of the import and five. -/
theorem apply_encodeWord_behind : ∃ placement object line,
    assemble "P START 16\n EXTREF A\n RESB 2\n WORD A+5\n END" = .ok (placement, object) ∧
      line ∈ placement.lines ∧ line.command = .directive .WORD ∧
      object.code = #[0, 0, 0, 0, 5] ∧
      (Relocation.word 2 "A").apply object.code 0x1000 0 = .ok #[0, 0, 0, 0x10, 5] := by
  obtain ⟨⟨placement, object⟩, assembled, same⟩ := exists_ok_of_map
    (show ((assemble "P START 16\n EXTREF A\n RESB 2\n WORD A+5\n END").map fun result =>
        (result.1.lines[3]?, result.1.start, result.2.code,
          (result.1.eval "A+5" 18).toOption)).toOption =
      some (some ⟨4, none, .directive .WORD, some "A+5", 18, 3⟩, 16, #[0, 0, 0, 0, 5],
        some ⟨5, 0, some "A"⟩) by
      decide +kernel)
  simp only [Prod.mk.injEq] at same
  obtain ⟨third, start, code, evaluated⟩ := same
  have member := List.mem_of_getElem? third
  have evaluated := ok_of_toOption evaluated
  have encodes : placement.encodeLine none ⟨4, none, .directive .WORD, some "A+5", 18, 3⟩ =
      .ok ⟨[0, 0, 5], some (.word (placement.offset ⟨4, none, .directive .WORD, some "A+5", 18, 3⟩)
        "A")⟩ :=
    bind_eq_ok_iff.mpr ⟨"A+5", rfl, bind_eq_ok_iff.mpr ⟨_, evaluated, rfl⟩⟩
  rw [offset, start] at encodes
  refine ⟨placement, object, _, assembled, member, rfl, code, ?_⟩
  obtain ⟨text, value, given, isValue, _, _, _, applied⟩ := apply_encodeWord rfl encodes rfl
  cases given
  cases isValue.symm.trans evaluated
  rw [offset, start, show placement.addend ⟨5, 0, some "A"⟩ = 5 from rfl] at applied
  rw [code]
  exact applied #[0, 0, 0, 0, 5] 0x1000 0 (by decide) (by decide) (by decide)

/-- **A word one below an import cannot be linked**, although the sum is an address. -/
theorem apply_encodeWord_negative : ∃ placement object line text value,
    assemble " EXTREF A\n WORD A-1\n END" = .ok (placement, object) ∧
      line ∈ placement.lines ∧ line.command = .directive .WORD ∧ line.operand = some text ∧
      placement.eval text line.address = .ok value ∧ value = ⟨-1, 0, some "A"⟩ ∧
      object.relocations = [.word 0 "A"] ∧
      (Relocation.word 0 "A").apply object.code 16 0 = .error (.fieldOverflow "A" 0) := by
  obtain ⟨⟨placement, object⟩, assembled, same⟩ := exists_ok_of_map
    (show ((assemble " EXTREF A\n WORD A-1\n END").map fun result =>
        (result.1.lines[1]?, result.2.code, result.2.relocations,
          (result.1.eval "A-1" 0).toOption)).toOption =
      some (some ⟨2, none, .directive .WORD, some "A-1", 0, 3⟩, #[0xFF, 0xFF, 0xFF],
        [.word 0 "A"], some ⟨-1, 0, some "A"⟩) by
      decide +kernel)
  simp only [Prod.mk.injEq] at same
  obtain ⟨second, code, records, evaluated⟩ := same
  refine ⟨placement, object, _, "A-1", _, assembled, List.mem_of_getElem? second, rfl, rfl,
    ok_of_toOption evaluated, rfl, records, ?_⟩
  rw [code]
  exact error_of_failure? (by decide +kernel)

end Placement

end Sicxe
