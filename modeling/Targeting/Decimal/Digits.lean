/-!
# Digits and words

Whole numbers as decimal digits, and the numbers that fit in a word of so many bits.

## Main definitions

* `Targeting.readDigits`, `Targeting.natural?`, `Targeting.integer?` — the number of digits.
* `Targeting.digitsOf` — the digits of a number.
* `Targeting.fitsWord`, `Targeting.fitsInt64` — the bounds of words.
-/

set_option autoImplicit false

namespace Targeting

/-! ## Digits -/

/-- The value of a decimal digit. -/
def digitValue (c : Char) : Nat := c.toNat - 48

/-- The number that decimal digits write. -/
def readDigits (digits : List Char) : Nat := digits.foldl (fun n c => n * 10 + digitValue c) 0

/-- A natural number that is written with decimal digits only, at least one. -/
def natural? (digits : List Char) : Option Nat :=
  if digits.isEmpty || !digits.all Char.isDigit then none else some (readDigits digits)

/-- The sign at the start of a text, if it is there, and the rest. -/
def splitSign (text : List Char) : Bool × List Char :=
  match text with
  | '+' :: rest => (false, rest)
  | '-' :: rest => (true, rest)
  | _ => (false, text)

/-- The number with a sign. -/
def withSign (negative : Bool) (n : Nat) : Int := if negative then -(n : Int) else n

/-- A whole number that is written with an optional sign and decimal digits. -/
def integer? (text : List Char) : Option Int :=
  let (negative, digits) := splitSign text
  (natural? digits).map (withSign negative)

/-- The decimal digits of a whole number. -/
def digitsOf (n : Nat) : List Char := Nat.toDigits 10 n

/-! ## Words -/

/-- Whether a number fits in a word of so many bits. -/
def fitsWord (bits n : Nat) : Bool := n < Nat.pow 2 bits

/-- Whether a number fits in a word of 64 bits with a sign. -/
def fitsInt64 (n : Int) : Bool := -9223372036854775808 ≤ n && n ≤ 9223372036854775807

end Targeting
