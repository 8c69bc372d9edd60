import Sicxe.Assembly.Error
import Sicxe.Numeral

/-!
# Operand expressions

An expression is a sum of signed terms: numbers, symbols and `*`, the address of the line. Its
value is a constant together with two counts of what moves with a program: how many addresses of
this program it contains, and which imported symbol it is an offset from.

* `Expr.parse` cuts a text at its signs and reads the terms.
* `Expr.eval` adds the values of the terms from left to right.
-/

namespace Sicxe

/-- Whether a text is an identifier: a letter or `_`, then letters, digits and `_`, all ASCII. -/
def isIdentifier : List Char → Bool
  | [] => false
  | first :: rest => (first.isAlpha || first == '_') && rest.all fun c => c.isAlphanum || c == '_'

/-- A term of an expression. -/
inductive Term where
  /-- The address of the line. -/
  | here
  | number (value : Int)
  | symbol (name : String)
  deriving DecidableEq, Repr

/-- A term with its sign. -/
structure Summand where
  negated : Bool
  term : Term
  deriving DecidableEq, Repr

/-- An expression with the text it was read from. -/
structure Expr where
  text : String
  summands : List Summand
  deriving DecidableEq, Repr

/-- The value of an expression. -/
structure Value where
  constant : Int := 0
  /-- How many addresses of this program are added, less those subtracted. -/
  relative : Int := 0
  /-- The imported symbol that the value is an offset from. -/
  external : Option String := none
  deriving DecidableEq, Repr

namespace Value

/-- A number that stays when the program moves. -/
def absolute (constant : Int) : Value := { constant }

/-- An address of this program. -/
def address (address : Nat) : Value := { constant := address, relative := 1 }

/-- The address of an imported symbol. -/
def imported (name : String) : Value := { external := some name }

/-- Whether a value stays when the program moves. -/
def isAbsolute (value : Value) : Bool :=
  value.relative == 0 && value.external.isNone

/-- Whether a value is a constant or one address of this program. -/
def isLocal (value : Value) : Bool :=
  value.external.isNone && (value.relative == 0 || value.relative == 1)

end Value

/-- An integer that has an optional radix mark and sign. -/
def readInteger (text : List Char) : Except AssemblyError Int :=
  match Numeral.prefixed? text with
  | some value => .ok value
  | none => .error (.unreadable (String.ofList text) .number)

namespace Term

/-- The term that a text without signs spells. -/
def parse (text : List Char) : Except AssemblyError Term :=
  if text = ['*'] then .ok here
  else if (text.head?.any Char.isDigit) then (readInteger text).map number
  else if isIdentifier text then .ok (symbol (String.ofList text))
  else .error (.unreadable (String.ofList text) .expression)

/-- The value of a term on the line at address `here`. -/
def value (here : Nat) (lookup : String → Option Value) : Term → Except AssemblyError Value
  | .here => .ok (.address here)
  | .number value => .ok (.absolute value)
  | .symbol name =>
    match lookup name with
    | some value => .ok value
    | none => .error (.undefinedSymbol name)

end Term

namespace Expr

/-- The pieces of a text between its signs, each with the sign in front of it; the first piece
has the sign `negated`. -/
def pieces (negated : Bool) : List Char → List (Bool × List Char)
  | [] => [(negated, [])]
  | c :: rest =>
    if c = '+' then (negated, []) :: pieces false rest
    else if c = '-' then (negated, []) :: pieces true rest
    else
      match pieces negated rest with
      | (sign, piece) :: others => (sign, c :: piece) :: others
      | [] => [(negated, [c])]

/-- The pieces of a text that may begin with a sign of its own. -/
def signedPieces : List Char → List (Bool × List Char)
  | '-' :: rest => pieces true rest
  | '+' :: rest => pieces false rest
  | text => pieces false text

/-- The summands that a list of signed pieces spells. -/
def readSummands : List (Bool × List Char) → Except AssemblyError (List Summand)
  | [] => .ok []
  | (negated, piece) :: rest =>
    match Term.parse piece with
    | .error error => .error error
    | .ok term =>
      match readSummands rest with
      | .error error => .error error
      | .ok summands => .ok (⟨negated, term⟩ :: summands)

/-- The expression that a text spells. -/
def parse (text : String) : Except AssemblyError Expr :=
  match readSummands (signedPieces text.toList) with
  | .ok summands => .ok ⟨text, summands⟩
  | .error error => .error error

/-- The symbols of an expression, in order. -/
def symbols (expr : Expr) : List String :=
  expr.summands.filterMap fun summand =>
    match summand.term with
    | .symbol name => some name
    | _ => none

/-- Whether a sum fits a 64-bit integer. -/
def inRange (sum : Int) : Bool :=
  -0x8000000000000000 ≤ sum && sum < 0x8000000000000000

/-- The sum of a value and one more summand of value `value`. An import may come in once and only
with a plus sign, and every partial sum must fit 64 bits. -/
def addTo (text : String) (sum : Value) (negated : Bool) (value : Value) :
    Except AssemblyError Value :=
  if value.external.isSome && (negated || sum.external.isSome) then
    .error (.badExpression text)
  else
    let constant := if negated then sum.constant - value.constant else sum.constant + value.constant
    if inRange constant then
      .ok
        { constant
          relative :=
            if negated then sum.relative - value.relative else sum.relative + value.relative
          external := value.external.or sum.external }
    else
      .error (.valueRange value.constant 64)

/-- The sum of `sum` and the values of the summands. -/
def evalFrom (text : String) (here : Nat) (lookup : String → Option Value) (sum : Value) :
    List Summand → Except AssemblyError Value
  | [] => .ok sum
  | ⟨negated, term⟩ :: rest =>
    match term.value here lookup with
    | .error error => .error error
    | .ok value =>
      match addTo text sum negated value with
      | .error error => .error error
      | .ok sum => evalFrom text here lookup sum rest

/-- The value of an expression on the line at address `here`. An import may not be mixed with
addresses of this program. -/
def eval (expr : Expr) (here : Nat) (lookup : String → Option Value) :
    Except AssemblyError Value :=
  match evalFrom expr.text here lookup {} expr.summands with
  | .ok value =>
    if value.external.isSome && value.relative != 0 then .error (.badExpression expr.text)
    else .ok value
  | .error error => .error error

end Expr

end Sicxe
