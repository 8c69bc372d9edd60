import Sicxe.Machine.Memory
import Sicxe.Proofs.Bytes
import Sicxe.Proofs.InPlace

/-!
# Histories of a memory

Memory is written in five ways, with addresses of bytes or of words, and read in six. They all come
to bytes at positions: a `Store` has a stretch of memory, and after some stores every position holds
what the last store to it has put there (`Memory.held`).

* `Store.apply_eq_ok_iff`, `Store.apply_eq_error_iff`: a store succeeds exactly if its stretch lies
  inside memory.
* `Store.inPlace_eq`: written byte by byte, a store checks its stretch before the first byte.
* `Memory.getElem?_after`: the bytes of a memory after some stores.
* `Memory.ReadsAs`: what the six readings give for the bytes at the positions.
* `Memory.after_exact`: **every store is all or nothing, changes its own bytes only, and is what all
  readings see**.
-/

namespace Sicxe

/-- A write access to memory. -/
inductive Store where
  | byte (address : Nat) (value : UInt8)
  /-- Three bytes at a word, which is told by its index. -/
  | word (index : Nat) (first second third : UInt8)
  | slice (address : Nat) (bytes : List UInt8)
  | signedWord (address : Nat) (value : Int)
  | signedLong (address : Nat) (value : Int)
  deriving DecidableEq, Repr

namespace Store

/-- The position of the first byte, which does not wrap around. -/
def address : Store → Nat
  | byte address _ | slice address _ | signedWord address _ | signedLong address _ => address
  | word index _ _ _ => 3 * index

/-- The number of bytes. -/
def length : Store → Nat
  | byte _ _ => 1
  | word _ _ _ _ | signedWord _ _ => 3
  | slice _ bytes => bytes.length
  | signedLong _ _ => 6

/-- The bytes that are put. -/
def bytes : Store → List UInt8
  | byte _ value => [value]
  | word _ first second third => [first, second, third]
  | slice _ bytes => bytes
  | signedWord _ value => Memory.wordBytes value
  | signedLong _ value => Memory.longBytes value

/-- The byte that is put at a position. -/
def byteAt (store : Store) (position : Nat) : Option UInt8 :=
  if store.address ≤ position then store.bytes[position - store.address]? else none

/-- The memory after a store. -/
def apply (memory : Memory) : Store → Except MachineError Memory
  | byte address value => memory.writeByte address value
  | word index first second third => memory.writeWord index [first, second, third]
  | slice address bytes => memory.write address bytes
  | signedWord address value => memory.storeWord address value
  | signedLong address value => memory.storeLong address value

variable {memory next : Memory} {store : Store} {error : MachineError} {position : Nat}

@[simp]
theorem length_bytes (store : Store) : store.bytes.length = store.length := by
  cases store with
  | signedWord _ value => exact Bytes.length_ofNat 3 _
  | signedLong _ value => exact Bytes.length_ofNat 6 _
  | _ => rfl

/-- The stretch of a store lies inside a memory of some size. -/
def Fits (store : Store) (size : Nat) : Prop :=
  store.address + store.length ≤ size

instance (store : Store) (size : Nat) : Decidable (store.Fits size) :=
  inferInstanceAs (Decidable (_ ≤ _))

theorem writeWord_eq (memory : Memory) (index : Nat) (bytes : List UInt8) :
    memory.writeWord index bytes =
      if 3 * index < Memory.addressCount then memory.write (3 * index) bytes
      else .error (.outOfBounds (Memory.addressCount - 1) 3 memory.size) := by
  unfold Memory.writeWord Memory.wordAddress
  split <;> rfl

/-- A store writes its bytes, unless its address is beyond those of 32 bits. -/
theorem apply_eq (memory : Memory) (store : Store) :
    store.apply memory = memory.write store.address store.bytes ∨
      Memory.addressCount ≤ store.address ∧
        store.apply memory =
          .error (.outOfBounds (Memory.addressCount - 1) store.length memory.size) := by
  cases store with
  | word index first second third =>
    by_cases near : 3 * index < Memory.addressCount
    · exact .inl ((writeWord_eq memory index _).trans (if_pos near))
    · exact .inr ⟨Nat.le_of_not_lt near, (writeWord_eq memory index _).trans (if_neg near)⟩
  | _ => exact .inl rfl

/-- **A store succeeds exactly if its stretch lies inside memory.** -/
theorem apply_eq_ok_iff (small : memory.size < Memory.addressCount) :
    store.apply memory = .ok next ↔
      store.Fits memory.size ∧ next = memory.put store.address store.bytes := by
  rcases apply_eq memory store with written | ⟨beyond, refused⟩
  · rw [written, Memory.write, length_bytes]
    unfold Fits
    split
    · rename_i fits
      simp only [Except.ok.injEq, fits, true_and, eq_comm]
    · rename_i outside
      simp only [reduceCtorEq, outside, false_and]
  · have outside : ¬ store.Fits memory.size := by
      unfold Fits
      omega
    rw [refused]
    simp only [reduceCtorEq, outside, false_and]

/-- **It is out of bounds otherwise**, and told by its address if this has 32 bits. -/
theorem apply_eq_error (small : memory.size < Memory.addressCount)
    (failed : store.apply memory = .error error) :
    ¬ store.Fits memory.size ∧ ∃ reported, error = .outOfBounds reported store.length memory.size ∧
      (store.address < Memory.addressCount → reported = store.address) := by
  refine ⟨fun fits => ?_, ?_⟩
  · cases failed.symm.trans ((apply_eq_ok_iff small).mpr ⟨fits, rfl⟩)
  · rcases apply_eq memory store with written | ⟨beyond, refused⟩
    · rw [written, Memory.write, length_bytes] at failed
      split at failed
      · cases failed
      · cases failed
        exact ⟨_, rfl, fun _ => rfl⟩
    · cases failed.symm.trans refused
      exact ⟨_, rfl, fun near => absurd near (Nat.not_lt.mpr beyond)⟩

theorem failed_iff (small : memory.size < Memory.addressCount) :
    (∃ error, store.apply memory = .error error) ↔ memory.size < store.address + store.length := by
  constructor
  · rintro ⟨error, failed⟩
    exact Nat.lt_of_not_le (apply_eq_error small failed).1
  · intro outside
    cases outcome : store.apply memory with
    | error error => exact ⟨error, rfl⟩
    | ok next =>
      exact absurd ((apply_eq_ok_iff small).mp outcome).1 (Nat.not_le.mpr outside)

/-! ### Stores in place -/

open InPlace (inspect update settle)

/-- Puts bytes at an address where they fit, one after the other. -/
def putInPlace (address : Nat) : List UInt8 → InPlace MachineError Memory Unit
  | [] => pure ()
  | value :: rest => do
    update fun memory => ⟨memory.bytes.setIfInBounds address value⟩
    putInPlace (address + 1) rest

/-- Puts bytes at an address after the check that they fit. -/
def writeInPlace (address : Nat) (bytes : List UInt8) : InPlace MachineError Memory Unit := do
  inspect fun memory => memory.check address bytes.length
  putInPlace address bytes

/-- A store that changes memory byte by byte. -/
def inPlace : Store → InPlace MachineError Memory Unit
  | byte address value => writeInPlace address [value]
  | word index first second third => do
    let address ← inspect fun memory => memory.wordAddress index
    writeInPlace address [first, second, third]
  | slice address bytes => writeInPlace address bytes
  | signedWord address value => writeInPlace address (Memory.wordBytes value)
  | signedLong address value => writeInPlace address (Memory.longBytes value)

theorem putInPlace_eq (address : Nat) (bytes : List UInt8) (memory : Memory) :
    putInPlace address bytes memory = settle memory (.ok (memory.put address bytes)) := by
  induction bytes generalizing address memory with
  | nil => rfl
  | cons value rest ih => exact ih (address + 1) ⟨memory.bytes.setIfInBounds address value⟩

theorem writeInPlace_eq (address : Nat) (bytes : List UInt8) (memory : Memory) :
    writeInPlace address bytes memory = settle memory (memory.write address bytes) := by
  have checked : memory.write address bytes =
      memory.check address bytes.length >>= fun _ => .ok (memory.put address bytes) := by
    unfold Memory.write Memory.check
    split <;> rfl
  rw [checked]
  exact InPlace.inspect_bind fun _ _ => putInPlace_eq address bytes memory

/-- **A store in place that fails has not changed a byte.** -/
theorem inPlace_eq (store : Store) (memory : Memory) :
    store.inPlace memory = settle memory (store.apply memory) := by
  cases store with
  | word index first second third =>
    exact InPlace.inspect_bind fun address _ => writeInPlace_eq address _ memory
  | byte address value => exact writeInPlace_eq address _ memory
  | slice address bytes => exact writeInPlace_eq address _ memory
  | signedWord address value => exact writeInPlace_eq address _ memory
  | signedLong address value => exact writeInPlace_eq address _ memory

end Store

namespace Memory

variable {memory next : Memory} {store : Store} {stores : List Store} {position : Nat}

/-! ### The bytes after some stores -/

theorem size_put (memory : Memory) (address : Nat) (bytes : List UInt8) :
    (memory.put address bytes).size = memory.size :=
  Bytes.size_write _ _ _

/-- A store that fits is seen at its own positions, and no other position changes. -/
theorem getElem?_put (fits : store.Fits memory.size) (position : Nat) :
    (memory.put store.address store.bytes).bytes[position]? =
      (store.byteAt position).or memory.bytes[position]? := by
  rw [put, Bytes.getElem?_write _ _ _ (by rw [store.length_bytes]; exact fits), Store.byteAt]
  by_cases behind : store.address ≤ position
  · rw [if_pos behind]
    by_cases inside : position < store.address + store.bytes.length
    · rw [if_pos ⟨behind, inside⟩, List.getElem?_eq_getElem (by omega), Option.some_or]
    · rw [if_neg (fun both => inside both.2), List.getElem?_eq_none (by omega), Option.none_or]
  · rw [if_neg behind, if_neg (fun both => behind both.1), Option.none_or]

/-- The memory after some stores. -/
def after (memory : Memory) (stores : List Store) : Memory :=
  InPlace.after (fun memory store => store.apply memory) memory stores

/-- What the last store to a position has put there. Stores that do not fit put nothing. -/
def lastStored (size : Nat) (stores : List Store) (position : Nat) : Option UInt8 :=
  stores.reverse.findSome? fun store => if store.Fits size then store.byteAt position else none

/-- What a position holds after some stores. -/
def held (memory : Memory) (stores : List Store) (position : Nat) : UInt8 :=
  ((lastStored memory.size stores position).or memory.bytes[position]?).getD 0

theorem lastStored_concat (size : Nat) (stores : List Store) (store : Store) (position : Nat) :
    lastStored size (stores ++ [store]) position =
      (if store.Fits size then store.byteAt position else none).or
        (lastStored size stores position) := by
  rw [lastStored, List.reverse_append, List.reverse_singleton, List.singleton_append,
    List.findSome?_cons]
  cases (if store.Fits size then store.byteAt position else none) <;> rfl

/-- One more store. -/
theorem after_concat (memory : Memory) (stores : List Store) (store : Store) :
    memory.after (stores ++ [store]) =
      (InPlace.settle (memory.after stores) (store.apply (memory.after stores))).2 :=
  InPlace.after_concat _ _ _ _

/-- **After some stores every position holds what was last stored there.** -/
theorem getElem?_after (small : memory.size < addressCount) (stores : List Store) :
    (memory.after stores).size = memory.size ∧ ∀ position,
      (memory.after stores).bytes[position]? =
        (lastStored memory.size stores position).or memory.bytes[position]? := by
  induction stores using List.reverseRecOn with
  | nil => exact ⟨rfl, fun position => (Option.none_or).symm⟩
  | append_singleton stores store ih =>
    obtain ⟨size, bytes⟩ := ih
    rw [← size] at small
    cases outcome : store.apply (memory.after stores) with
    | ok next =>
      obtain ⟨fits, rfl⟩ := (Store.apply_eq_ok_iff small).mp outcome
      rw [after_concat, outcome]
      refine ⟨(size_put _ _ _).trans size, fun position => ?_⟩
      rw [lastStored_concat, if_pos (size ▸ fits), Option.or_assoc, ← bytes]
      exact getElem?_put fits position
    | error error =>
      have outside := (Store.apply_eq_error small outcome).1
      rw [after_concat, outcome]
      refine ⟨size, fun position => ?_⟩
      rw [lastStored_concat, if_neg (size ▸ outside), Option.none_or]
      exact bytes position

/-! ### Readings -/

/-- The number that `length` bytes from a position on spell, the first being the most significant. -/
def bigEndian (content : Nat → UInt8) (address : Nat) : Nat → Nat
  | 0 => 0
  | length + 1 => 256 * bigEndian content address length + (content (address + length)).toNat

/-- The bytes of a stretch. -/
def stretch (content : Nat → UInt8) (address length : Nat) : List UInt8 :=
  (List.range length).map fun index => content (address + index)

/-- All readings of a memory of some size give the bytes at their positions, and a stretch that is
not entirely inside it is out of bounds. -/
structure ReadsAs (memory : Memory) (size : Nat) (content : Nat → UInt8) : Prop where
  slice (address length : Nat) :
    memory.read address length =
      if address + length ≤ size then .ok (stretch content address length)
      else .error (.outOfBounds address length size)
  byte (address : Nat) :
    memory.readByte address =
      if address + 1 ≤ size then .ok (content address) else .error (.outOfBounds address 1 size)
  /-- A word by its index, whose address does not wrap around. -/
  word (index : Nat) :
    memory.readWord index =
      if 3 * index + 3 ≤ size then .ok (stretch content (3 * index) 3)
      else .error (.outOfBounds (min (3 * index) (addressCount - 1)) 3 size)
  signedWord (address : Nat) :
    memory.loadWord address =
      if address + 3 ≤ size then .ok (signExtend 24 (bigEndian content address 3))
      else .error (.outOfBounds address 3 size)
  signedLong (address : Nat) :
    memory.loadLong address =
      if address + 6 ≤ size then .ok (signExtend 48 (bigEndian content address 6))
      else .error (.outOfBounds address 6 size)
  /-- Four bytes, or what is left of memory. -/
  window (address : Nat) :
    memory.window address =
      if address + 1 ≤ size then .ok (stretch content address (min 4 (size - address)))
      else .error (.outOfBounds address 1 size)

variable {content : Nat → UInt8}

theorem value_stretch (content : Nat → UInt8) (address length : Nat) :
    Bytes.value (stretch content address length) = bigEndian content address length := by
  induction length with
  | zero => rfl
  | succ length ih =>
    rw [stretch, List.range_succ, List.map_append, List.map_singleton, Bytes.value_append_byte,
      bigEndian, ← ih, Nat.mul_comm]
    rfl

/-- A stretch inside memory reads as its bytes. -/
theorem slice_eq_stretch
    (holds : ∀ position < memory.size, memory.bytes[position]? = some (content position))
    {address length : Nat} (inside : address + length ≤ memory.size) :
    Bytes.slice memory.bytes address length = stretch content address length := by
  refine List.ext_getElem? fun index => ?_
  rw [Bytes.getElem?_slice, stretch, List.getElem?_map]
  by_cases within : index < length
  · rw [if_pos within, holds _ (by omega), List.getElem?_range within, Option.map_some]
  · rw [if_neg within, List.getElem?_eq_none (by simpa using within), Option.map_none]

/-- A stretch that begins inside memory reads up to the end of memory. -/
theorem slice_min (memory : Memory) {address : Nat} (length : Nat)
    (inside : address ≤ memory.size) :
    Bytes.slice memory.bytes address length =
      Bytes.slice memory.bytes address (min length (memory.size - address)) := by
  refine List.ext_getElem? fun index => ?_
  rw [Bytes.getElem?_slice, Bytes.getElem?_slice]
  have size : memory.bytes.size = memory.size := rfl
  by_cases within : index < min length (memory.size - address)
  · rw [if_pos within, if_pos (by omega)]
  · rw [if_neg within]
    split
    · exact Array.getElem?_eq_none (by omega)
    · rfl

/-- **All readings come down to the bytes.** -/
theorem readsAs_of_bytes (small : memory.size < addressCount)
    (holds : ∀ position < memory.size, memory.bytes[position]? = some (content position)) :
    memory.ReadsAs memory.size content := by
  have slice : ∀ address length, memory.read address length =
      if address + length ≤ memory.size then .ok (stretch content address length)
      else .error (.outOfBounds address length memory.size) := by
    intro address length
    unfold read
    split
    · rename_i inside
      rw [slice_eq_stretch holds inside]
    · rfl
  refine ⟨slice, fun address => ?_, fun index => ?_, fun address => ?_, fun address => ?_,
    fun address => ?_⟩
  · rw [readByte, slice]
    split <;> rfl
  · rw [readWord, wordAddress]
    by_cases near : 3 * index < addressCount
    · rw [if_pos near, Nat.min_eq_left (by omega)]
      exact slice (3 * index) 3
    · rw [if_neg near, if_neg (by omega), Nat.min_eq_right (by omega)]
      rfl
  · rw [loadWord, slice]
    split
    · exact congrArg (fun number : Nat => Except.ok (Word.signed number)) (value_stretch content _ 3)
    · rfl
  · rw [loadLong, slice]
    split
    · exact congrArg (fun number : Nat => Except.ok (signExtend 48 number)) (value_stretch content _ 6)
    · rfl
  · unfold window
    split
    · rw [slice_min memory 4 (by omega), slice_eq_stretch holds (by omega)]
    · rfl

/-- The readings after some stores. -/
theorem readsAs_after (small : memory.size < addressCount) (stores : List Store) :
    (memory.after stores).ReadsAs memory.size (memory.held stores) := by
  obtain ⟨size, bytes⟩ := getElem?_after small stores
  rw [← size]
  refine readsAs_of_bytes (by rw [size]; exact small) fun position inside => ?_
  rw [size] at inside
  rw [bytes, held]
  obtain ⟨byte, found⟩ : ∃ byte, memory.bytes[position]? = some byte :=
    ⟨_, Array.getElem?_eq_getElem inside⟩
  rw [found, Option.or_some, Option.getD_some]

/-! ### Reading back -/

/-- The low bits of a number, written and read with a sign. -/
theorem signExtend_value_ofNat (width : Nat) (value : Int) :
    signExtend (8 * width)
        (Bytes.value (Bytes.ofNat width (value % valueCount (8 * width)).toNat)) =
      signExtend (8 * width) value := by
  have positive := valueCount_pos (8 * width)
  have nonneg : 0 ≤ value % (valueCount (8 * width) : Int) := Int.emod_nonneg _ (by omega)
  rw [Bytes.value_ofNat, signExtend, signExtend, Int.natCast_emod, Int.toNat_of_nonneg nonneg,
    Int.emod_emod, Int.emod_bmod]

/-- A stretch that was written reads as it was written. -/
theorem read_of_write {address : Nat} {bytes : List UInt8}
    (written : memory.write address bytes = .ok next) :
    next.read address bytes.length = .ok bytes := by
  unfold write at written
  split at written
  · rename_i inside
    cases written
    rw [read, if_pos (by rw [size_put]; exact inside)]
    exact congrArg Except.ok (Bytes.slice_write_self _ _ _ inside)
  · cases written

theorem loadWord_of_storeWord {address : Nat} {value : Int}
    (stored : memory.storeWord address value = .ok next) :
    next.loadWord address = .ok (signExtend 24 value) := by
  have readBack : next.read address 3 = .ok (wordBytes value) := by
    rw [← Bytes.length_ofNat 3 (value % 0x1000000).toNat]
    exact read_of_write stored
  rw [loadWord, readBack]
  exact congrArg Except.ok (signExtend_value_ofNat 3 value)

theorem loadLong_of_storeLong {address : Nat} {value : Int}
    (stored : memory.storeLong address value = .ok next) :
    next.loadLong address = .ok (signExtend 48 value) := by
  have readBack : next.read address 6 = .ok (longBytes value) := by
    rw [← Bytes.length_ofNat 6 (value % 0x1000000000000).toNat]
    exact read_of_write stored
  rw [loadLong, readBack]
  exact congrArg Except.ok (signExtend_value_ofNat 6 value)

/-- **Accesses to memory are exact and atomic.** After any stores to a memory of fewer than 2^32
bytes, one more store fails exactly if its stretch is not entirely inside memory; it is then out of
bounds and, carried out byte by byte, has not changed a byte. If it succeeds, it changes its own
bytes only. All readings give at each position the byte that was stored there last, and a word or
long word that was just stored reads as the low 24 or 48 bits of its value with their sign. -/
theorem after_exact (memory : Memory) (small : memory.size < addressCount) (stores : List Store) :
    let last := memory.after stores
    last.size = memory.size ∧
    (∀ store : Store,
      ((∃ error, store.apply last = .error error) ↔
        memory.size < store.address + store.length) ∧
      (∀ error, store.apply last = .error error →
        store.inPlace last = (.error error, last) ∧ memory.after (stores ++ [store]) = last ∧
        ∃ reported, error = .outOfBounds reported store.length memory.size) ∧
      (∀ next, store.apply last = .ok next →
        store.inPlace last = (.ok (), next) ∧ memory.after (stores ++ [store]) = next ∧
        ∀ position, position < store.address ∨ store.address + store.length ≤ position →
          next.bytes[position]? = last.bytes[position]?)) ∧
    last.ReadsAs memory.size (memory.held stores) ∧
    (∀ address value next, last.storeWord address value = .ok next →
      next.loadWord address = .ok (signExtend 24 value)) ∧
    ∀ address value next, last.storeLong address value = .ok next →
      next.loadLong address = .ok (signExtend 48 value) := by
  intro last
  have size : last.size = memory.size := (getElem?_after small stores).1
  have lastSmall : last.size < addressCount := by
    rw [size]
    exact small
  refine ⟨size, fun store => ⟨?_, fun error failed => ?_, fun next stored => ?_⟩,
    readsAs_after small stores, fun address value next => loadWord_of_storeWord,
    fun address value next => loadLong_of_storeLong⟩
  · rw [← size]
    exact Store.failed_iff lastSmall
  · obtain ⟨_, reported, isOutside, _⟩ := Store.apply_eq_error lastSmall failed
    rw [Store.inPlace_eq, after_concat, failed]
    exact ⟨rfl, rfl, reported, size ▸ isOutside⟩
  · rw [Store.inPlace_eq, after_concat, stored]
    refine ⟨rfl, rfl, fun position outside => ?_⟩
    obtain ⟨fits, rfl⟩ := (Store.apply_eq_ok_iff lastSmall).mp stored
    rw [← store.length_bytes] at outside
    refine Bytes.getElem?_write_of_apart _ _ _ ?_ outside
    rw [store.length_bytes]
    exact fits

/-- Three stores that overlap, and one that reaches beyond the end. -/
theorem after_exact_overlapping :
    let memory := zeros 1024
    let stores : List Store :=
      [.signedWord 10 (-2), .byte 11 0, .signedLong 1019 5, .word 4 1 2 3]
    memory.size < addressCount ∧ (memory.after stores).size = 1024 ∧
      (memory.after stores).loadWord 10 = .ok (-65535) ∧
      (memory.after stores).window 1021 = .ok [0, 0, 0] := by
  intro memory stores
  have small : memory.size < addressCount := by decide +kernel
  obtain ⟨size, _, reads, _⟩ := after_exact memory small stores
  have memorySize : memory.size = 1024 := by decide +kernel
  refine ⟨small, size.trans memorySize, ?_, ?_⟩
  · rw [reads.signedWord, memorySize]
    decide +kernel
  · rw [reads.window, memorySize]
    decide +kernel

end Memory

end Sicxe
