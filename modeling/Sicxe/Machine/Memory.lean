import Sicxe.Bytes
import Sicxe.Machine.Error
import Sicxe.Word

/-!
# Memory

Main memory is addressed by bytes. An access that is not entirely inside it fails and changes
nothing; addresses never wrap. `Memory.read` and `Memory.write` are the two accesses, and every
other one is a reading of the bytes of these.
-/

namespace Sicxe

/-- Main memory. -/
structure Memory where
  bytes : Array UInt8
  deriving DecidableEq, Repr

namespace Memory

/-- The least size of a memory. -/
def minSize : Nat := 1024

/-- The size of a memory unless another one is asked for. -/
def defaultSize : Nat := 0x100000

/-- The number of addresses of 32 bits. -/
def addressCount : Nat := 0x100000000

/-- A memory of zeros. -/
def zeros (size : Nat) : Memory :=
  ⟨Array.replicate size 0⟩

/-- A memory of zeros of a size that is great enough. -/
def create (size : Nat) : Except MachineError Memory :=
  if size < minSize then .error (.memorySize size) else .ok (zeros size)

/-- The number of bytes of a memory. -/
def size (memory : Memory) : Nat :=
  memory.bytes.size

/-- A memory of the same size with nothing but zeros. -/
def clear (memory : Memory) : Memory :=
  zeros memory.size

/-- Checks that `length` bytes from `address` on are inside the memory. -/
def check (memory : Memory) (address length : Nat) : Except MachineError Unit :=
  if address + length ≤ memory.size then .ok ()
  else .error (.outOfBounds address length memory.size)

/-- The memory with `bytes` put at an address where they fit. -/
def put (memory : Memory) (address : Nat) (bytes : List UInt8) : Memory :=
  ⟨Bytes.write memory.bytes address bytes⟩

/-- The `length` bytes from `address` on. -/
def read (memory : Memory) (address length : Nat) : Except MachineError (List UInt8) :=
  if address + length ≤ memory.size then .ok (Bytes.slice memory.bytes address length)
  else .error (.outOfBounds address length memory.size)

/-- The memory with `bytes` written at `address`. -/
def write (memory : Memory) (address : Nat) (bytes : List UInt8) : Except MachineError Memory :=
  if address + bytes.length ≤ memory.size then .ok (memory.put address bytes)
  else .error (.outOfBounds address bytes.length memory.size)

/-- The byte at `address`. -/
def readByte (memory : Memory) (address : Nat) : Except MachineError UInt8 :=
  (memory.read address 1).map fun bytes => bytes.headD 0

/-- The memory with one byte written at `address`. -/
def writeByte (memory : Memory) (address : Nat) (byte : UInt8) : Except MachineError Memory :=
  memory.write address [byte]

/-- The address of a word by its index. An address beyond 32 bits is out of bounds wherever memory
ends, and is reported as the last address of 32 bits. -/
def wordAddress (memory : Memory) (index : Nat) : Except MachineError Nat :=
  if 3 * index < addressCount then .ok (3 * index)
  else .error (.outOfBounds (addressCount - 1) 3 memory.size)

/-- The three bytes of a word by its index. -/
def readWord (memory : Memory) (index : Nat) : Except MachineError (List UInt8) := do
  let address ← memory.wordAddress index
  memory.read address 3

/-- The memory with the bytes of a word written by its index. -/
def writeWord (memory : Memory) (index : Nat) (bytes : List UInt8) :
    Except MachineError Memory := do
  let address ← memory.wordAddress index
  memory.write address bytes

/-- The signed word at `address`. -/
def loadWord (memory : Memory) (address : Nat) : Except MachineError Int :=
  (memory.read address 3).map fun bytes => Word.signed (Bytes.value bytes)

/-- The bytes of a word. -/
def wordBytes (value : Int) : List UInt8 :=
  Bytes.ofNat 3 (value % 0x1000000).toNat

/-- The memory with the low 24 bits of a value written at `address`. -/
def storeWord (memory : Memory) (address : Nat) (value : Int) : Except MachineError Memory :=
  memory.write address (wordBytes value)

/-- The signed long word at `address`. -/
def loadLong (memory : Memory) (address : Nat) : Except MachineError Int :=
  (memory.read address 6).map fun bytes => signExtend 48 (Bytes.value bytes)

/-- The bytes of a long word. -/
def longBytes (value : Int) : List UInt8 :=
  Bytes.ofNat 6 (value % 0x1000000000000).toNat

/-- The memory with the low 48 bits of a value written at `address`. -/
def storeLong (memory : Memory) (address : Nat) (value : Int) : Except MachineError Memory :=
  memory.write address (longBytes value)

/-- Up to four bytes from `address` on, fewer at the end of memory, but at least one. -/
def window (memory : Memory) (address : Nat) : Except MachineError (List UInt8) :=
  if address + 1 ≤ memory.size then .ok (Bytes.slice memory.bytes address 4)
  else .error (.outOfBounds address 1 memory.size)

end Memory

end Sicxe
