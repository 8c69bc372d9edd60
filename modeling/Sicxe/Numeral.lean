/-!
# Numerals

Reading numbers in a radix. All readers refuse an empty digit string and a number out of range.

* `Numeral.natural?` reads an unsigned number below a bound; a leading `+` is allowed.
* `Numeral.integer?` reads a number of 64 bits with an optional sign.
* `Numeral.prefixed?` reads an integer whose radix is told by `0x`, `0o` or `0b`.
-/

namespace Sicxe.Numeral

/-- The bound of unsigned numbers of 32 bits. -/
def wordBound : Nat := 0x100000000

/-- The bound of unsigned numbers of 64 bits. -/
def longBound : Nat := 0x10000000000000000

/-- The bound of the positive among signed numbers of 64 bits. -/
def signBound : Nat := 0x8000000000000000

/-- The value of an ASCII digit or letter as a digit in a radix up to 36. -/
def digitValue? (radix : Nat) (c : Char) : Option Nat :=
  let value :=
    if c.isDigit then c.toNat - 48
    else if c.isLower then c.toNat - 87
    else if c.isUpper then c.toNat - 55
    else radix
  if value < radix then some value else none

/-- The number that `digits` continue from `start`. -/
def accumulate? (radix : Nat) (start : Nat) : List Char → Option Nat
  | [] => some start
  | c :: rest => (digitValue? radix c).bind fun value => accumulate? radix (start * radix + value) rest

/-- The number that a nonempty string of digits spells. -/
def digits? (radix : Nat) (text : List Char) : Option Nat :=
  if text.isEmpty then none else accumulate? radix 0 text

/-- An unsigned number below `bound`, written with an optional `+`. -/
def natural? (radix bound : Nat) (text : List Char) : Option Nat :=
  let digits := match text with
    | '+' :: rest => rest
    | _ => text
  (digits? radix digits).filter (· < bound)

/-- A 64-bit integer, written with an optional sign. -/
def integer? (radix : Nat) (text : List Char) : Option Int :=
  match text with
  | '-' :: rest => ((digits? radix rest).filter (· ≤ signBound)).map fun value => -(value : Int)
  | _ => (natural? radix signBound text).map Int.ofNat

/-- The radix that a numeral announces by `0x`, `0o` or `0b` in either case, and its digits. -/
def radixAndDigits : List Char → Nat × List Char
  | '0' :: 'x' :: rest | '0' :: 'X' :: rest => (16, rest)
  | '0' :: 'o' :: rest | '0' :: 'O' :: rest => (8, rest)
  | '0' :: 'b' :: rest | '0' :: 'B' :: rest => (2, rest)
  | text => (10, text)

/-- An integer behind an optional mark of its radix; the digits may carry a sign of their own. -/
def marked? (text : List Char) : Option Int :=
  let (radix, digits) := radixAndDigits text
  integer? radix digits

/-- An integer with an optional `-` in front of the mark of its radix. The least integer of 64 bits
has no negation. -/
def prefixed? (text : List Char) : Option Int :=
  match text with
  | '-' :: rest => ((marked? rest).filter (-(signBound : Int) < ·)).map fun value => -value
  | _ => marked? text

end Sicxe.Numeral
