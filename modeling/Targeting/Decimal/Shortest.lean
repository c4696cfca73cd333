import Targeting.Decimal.Binary64
import Targeting.Decimal.Digits

/-!
# Shortest decimals

The decimal with the fewest digits that rounds to a given double, and of those the one nearest to
it; and the two ways to write a decimal down.

## Main definitions

* `Targeting.Decimal` — digits times a power of ten.
* `Targeting.Binary64.shortest` — the shortest decimal of a double.
* `Targeting.Decimal.positional`, `Targeting.Decimal.scientific` — the two notations.
-/

set_option autoImplicit false

namespace Targeting

/-- A non-negative decimal: `digits · 10 ^ exponent`. -/
structure Decimal where
  /-- The digits, read as a whole number. -/
  digits : Nat
  /-- The power of ten of the last digit. -/
  exponent : Int
deriving DecidableEq, Inhabited

/-! ## The search -/

/-- The greatest `k` with `10 ^ (k - 1) ≤ num / den`, for a positive quotient. -/
def decimalOrder (num den : Nat) : Int :=
  if den ≤ num then (digitsOf (num / den)).length
  else 1 - ((digitsOf ((den - 1) / num)).length : Int)

namespace Decimal

/-- The quotient that a decimal denotes. -/
def ratio (d : Decimal) : Nat × Nat :=
  if 0 ≤ d.exponent then (d.digits * Nat.pow 10 d.exponent.toNat, 1)
  else (d.digits, Nat.pow 10 (-d.exponent).toNat)

/-- The same decimal without zeros at the end of its digits; `fuel` bounds how many go. -/
def trim : Nat → Decimal → Decimal
  | 0, d => d
  | fuel + 1, d =>
    if d.digits ≠ 0 ∧ d.digits % 10 = 0 then trim fuel ⟨d.digits / 10, d.exponent + 1⟩ else d

/-- Whether a decimal rounds to the significand and exponent of a double. -/
def readsAs (d : Decimal) (x : Binary64) : Bool :=
  Binary64.nearest d.ratio.1 d.ratio.2 == (x.significand, x.exponent)

end Decimal

namespace Binary64

/-- Of the two decimals around a double on the grid of a power of ten, the one that rounds to the
double; of two that do, the nearer one, and on a tie the even one. -/
def onGrid? (x : Binary64) (power : Int) : Option Decimal :=
  let (num, den) := x.ratio
  let (scaled, one) :=
    if 0 ≤ power then (num, den * Nat.pow 10 power.toNat)
    else (num * Nat.pow 10 (-power).toNat, den)
  let below : Decimal := ⟨scaled / one, power⟩
  let above : Decimal := ⟨scaled / one + 1, power⟩
  match below.readsAs x, above.readsAs x with
  | true, true => some ⟨roundDiv scaled one, power⟩
  | true, false => some below
  | false, true => some above
  | false, false => none

/-- The shortest decimal of a double's absolute value. Seventeen digits always suffice. -/
def shortest (x : Binary64) : Decimal :=
  if x.isZero then ⟨0, 0⟩
  else
    let order := decimalOrder x.ratio.1 x.ratio.2
    let grids := (List.range 17).map fun n => order - (n + 1 : Nat)
    ((grids.findSome? x.onGrid?).getD ⟨0, 0⟩).trim 17

end Binary64

/-! ## Notations -/

namespace Decimal

/-- The place of the point: the decimal is `0.d₁d₂… · 10 ^ point`. -/
def point (d : Decimal) : Int := (digitsOf d.digits).length + d.exponent

/-- The positional notation: whole part, and a point and fraction where there is a fraction. -/
def positional (d : Decimal) : String :=
  let digits := digitsOf d.digits
  if 0 ≤ d.exponent then String.ofList (digits ++ List.replicate d.exponent.toNat '0')
  else if 0 < d.point then
    String.ofList (digits.take d.point.toNat ++ '.' :: digits.drop d.point.toNat)
  else String.ofList ('0' :: '.' :: List.replicate (-d.point).toNat '0' ++ digits)

/-- The notation with one digit before the point and a signed power of ten. -/
def scientific (d : Decimal) : String :=
  let power := d.point - 1
  let sign := if 0 ≤ power then "+" else "-"
  let mantissa :=
    match digitsOf d.digits with
    | first :: second :: rest => String.ofList (first :: '.' :: second :: rest)
    | digits => String.ofList digits
  mantissa ++ "e" ++ sign ++ String.ofList (digitsOf power.natAbs)

end Decimal

end Targeting
