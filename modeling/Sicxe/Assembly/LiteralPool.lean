import Sicxe.Assembly.Constant
import Sicxe.Assembly.PlacedLine

/-!
# The literal pool

Literals wait in the pool until the next place where they can be put. A literal is placed once,
and later uses of the same text share its address.

* `LiteralPool.add` takes in a literal.
* `LiteralPool.flush` places the waiting literals one after another.
* `LiteralPool.addresses` tells where the placed literals are.
-/

namespace Sicxe

/-- The literals of a program by their texts, in the order of their first use, each with its
address once it is placed. -/
structure LiteralPool where
  entries : List (String × Option Nat) := []
  deriving DecidableEq, Repr

namespace LiteralPool

/-- The pool with a literal in it. -/
def add (pool : LiteralPool) (literal : String) : LiteralPool :=
  if pool.entries.any fun entry => entry.1 == literal then pool
  else ⟨pool.entries ++ [(literal, none)]⟩

/-- The directive and operand that emit a literal. -/
def data (literal : String) : Directive × String :=
  let body := String.ofList (Literal.body literal.toList)
  match Literal.parse literal with
  | .ok (.word _) => (.WORD, body)
  | _ => (.BYTE, body)

/-- The line that holds a literal of `size` bytes at `address`. -/
def dataLine (literal : String) (address size : Nat) : PlacedLine :=
  let (directive, operand) := data literal
  ⟨0, none, .directive directive, some operand, address, size⟩

/-- What placing literals leads to. An error stops it; the literals before keep their places. -/
structure Flushed where
  entries : List (String × Option Nat)
  /-- The address after the last literal. -/
  counter : Nat
  lines : List PlacedLine
  error : Option AssemblyError
  deriving DecidableEq, Repr

/-- Places the waiting entries from the address `counter` on. -/
def flushEntries (counter : Nat) : List (String × Option Nat) → Flushed
  | [] => ⟨[], counter, [], none⟩
  | (text, some address) :: rest =>
    let flushed := flushEntries counter rest
    { flushed with entries := (text, some address) :: flushed.entries }
  | (text, none) :: rest =>
    match Literal.parse text with
    | .error error => ⟨(text, none) :: rest, counter, [], some error⟩
    | .ok literal =>
      let flushed := flushEntries (counter + literal.size) rest
      { flushed with
        entries := (text, some counter) :: flushed.entries
        lines := dataLine text counter literal.size :: flushed.lines }

/-- Places the waiting literals of a pool from the address `counter` on. -/
def flush (pool : LiteralPool) (counter : Nat) : Flushed :=
  flushEntries counter pool.entries

/-- The placed literals with their addresses. -/
def addresses (pool : LiteralPool) : List (String × Nat) :=
  pool.entries.filterMap fun (text, address) => address.map fun address => (text, address)

end LiteralPool

end Sicxe
