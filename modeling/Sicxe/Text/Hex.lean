/-!
# Hexadecimal text

Numbers in upper-case hexadecimal digits, with at least a given number of them.
-/

namespace Sicxe.Hex

/-- The digit of a number below 16, upper case. -/
def digit (number : Nat) : Char :=
  if number < 10 then Char.ofNat (48 + number) else Char.ofNat (55 + number)

/-- The digits of a number, at least one and without leading zeros. -/
def digits (number : Nat) : List Char :=
  if number < 16 then [digit number] else digits (number / 16) ++ [digit (number % 16)]
termination_by number
decreasing_by omega

/-- The digits of a number, filled up with leading zeros to `width` places. -/
def padded (width number : Nat) : List Char :=
  (digits number).leftpad width '0'

/-- The text of `padded`. -/
def text (width number : Nat) : String :=
  String.ofList (padded width number)

/-- The text of an integer; a negative one is shown as its 64-bit two's complement. -/
def intText (width : Nat) (number : Int) : String :=
  text width (number % 0x10000000000000000).toNat

/-- The two digits of every byte, without separators. -/
def ofBytes (bytes : List UInt8) : List Char :=
  bytes.flatMap fun byte => padded 2 byte.toNat

end Sicxe.Hex
