import Targeting.Decimal.Shortest

/-!
# Doubles with infinities

The doubles that a text can name: finite numbers, the two infinities, and the one that is no number.

## Main definitions

* `Targeting.Extended` — the numbers.
* `Targeting.Extended.ofText?` — reading; `Targeting.Extended.text` — writing, always positional.
* `Targeting.Extended.toNatural` — the nearest natural number of so many bits.
-/

set_option autoImplicit false

namespace Targeting

/-- A finite double, an infinity, or no number. -/
inductive Extended where
  | finite (value : Binary64)
  | infinite (negative : Bool)
  | notANumber
deriving DecidableEq, Inhabited

namespace Extended

/-- The number nearest to `digits · 10 ^ exponent`, infinite if that is beyond the finite ones.
Decimals far below the least double or far above the greatest are not computed. -/
def nearest (negative : Bool) (digits : Nat) (exponent : Int) : Extended :=
  let order : Int := (digitsOf digits).length + exponent
  if digits = 0 ∨ order < -330 then finite ⟨negative, 0, -1074⟩
  else if 310 < order then infinite negative
  else
    match Binary64.ofDecimal? negative digits exponent with
    | some x => finite x
    | none => infinite negative

/-- Reads a power of ten after its letter. -/
def power? (text : List Char) : Option Int :=
  match text with
  | [] => some 0
  | c :: rest => if c = 'e' ∨ c = 'E' then integer? rest else none

/-- Reads a number after its sign: a word for those that are not finite, or digits, of which there
is at least one, with a point among them and a power of ten after them. -/
def magnitude? (negative : Bool) (text : List Char) : Option Extended :=
  let letters := text.map Char.toLower
  if letters = "inf".toList ∨ letters = "infinity".toList then some (infinite negative)
  else if letters = "nan".toList then some notANumber
  else
    let whole := text.takeWhile Char.isDigit
    let (fraction, rest) :=
      match text.dropWhile Char.isDigit with
      | '.' :: rest => (rest.takeWhile Char.isDigit, rest.dropWhile Char.isDigit)
      | rest => ([], rest)
    match natural? (whole ++ fraction), power? rest with
    | some digits, some power => some (nearest negative digits (power - fraction.length))
    | _, _ => none

/-- The number that a text names. -/
def ofText? (text : String) : Option Extended :=
  let (negative, magnitude) := splitSign text.toList
  magnitude? negative magnitude

/-- The text of a number: its shortest decimal, without a power of ten. -/
def text : Extended → String
  | finite x => (if x.negative then "-" else "") ++ x.shortest.positional
  | infinite negative => if negative then "-inf" else "inf"
  | notANumber => "NaN"

/-- Whether a number is not zero. -/
def isNonzero : Extended → Bool
  | finite x => !x.isZero
  | _ => true

/-- The nearest natural number of so many bits, a half going up; what is no number becomes zero. -/
def toNatural (bits : Nat) : Extended → Nat
  | finite x => min x.roundToInt.toNat (Nat.pow 2 bits - 1)
  | infinite negative => if negative then 0 else Nat.pow 2 bits - 1
  | notANumber => 0

end Extended

end Targeting
