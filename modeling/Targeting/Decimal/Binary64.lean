/-!
# Double-precision numbers

Finite binary floating-point numbers of 64 bits, as exact integers: a sign, a significand below
`2 ^ 53` and a power of two. Every operation computes its exact result as a quotient of natural
numbers and rounds it once, to the nearest number and on a tie to the even significand.

## Main definitions

* `Targeting.Binary64` — a finite number.
* `Targeting.Binary64.roundRatio` — the number nearest to a quotient.
* `Targeting.Binary64.ofDecimal?` — the number nearest to a decimal.
* `Targeting.Binary64.scaled?` — a whole number times a power of ten, rounded at each step.
-/

set_option autoImplicit false

namespace Targeting

/-- A finite double: the significand times a power of two, with a sign. Zero has both signs. -/
structure Binary64 where
  /-- Whether the number has a minus sign. -/
  negative : Bool
  /-- The significand, below `2 ^ 53`. -/
  significand : Nat
  /-- The power of two, at least `-1074`; the least one unless the significand has 53 bits. -/
  exponent : Int
deriving DecidableEq, Inhabited

namespace Binary64

/-! ## Rounding -/

/-- The quotient rounded to the nearest whole number, a tie to the even one. -/
def roundDiv (num den : Nat) : Nat :=
  let quotient := num / den
  let twice := 2 * (num % den)
  if twice < den then quotient
  else if den < twice then quotient + 1
  else quotient + quotient % 2

/-- A quotient times a power of two, as a quotient. -/
def shift (num den : Nat) (power : Int) : Nat × Nat :=
  if 0 ≤ power then (num * Nat.pow 2 power.toNat, den)
  else (num, den * Nat.pow 2 (-power).toNat)

/-- The power of two just below a positive quotient: the greatest `e` with `2 ^ e ≤ num / den`. -/
def binaryOrder (num den : Nat) : Int :=
  let estimate : Int := (Nat.log2 num : Int) - Nat.log2 den
  let (scaled, one) := shift num den (-estimate)
  if scaled < one then estimate - 1 else estimate

/-- The significand and exponent nearest to a quotient, without a bound on the exponent. -/
def nearest (num den : Nat) : Nat × Int :=
  if num = 0 then (0, -1074)
  else
    let exponent := max (binaryOrder num den - 52) (-1074)
    let (scaled, one) := shift num den (-exponent)
    let significand := roundDiv scaled one
    if significand = Nat.pow 2 53 then (Nat.pow 2 52, exponent + 1) else (significand, exponent)

/-- The number nearest to a quotient; none when that is beyond the greatest finite one. -/
def roundRatio (negative : Bool) (num den : Nat) : Option Binary64 :=
  let (significand, exponent) := nearest num den
  if 971 < exponent then none else some ⟨negative, significand, exponent⟩

/-! ## Exact values -/

/-- The absolute value as a quotient of natural numbers. -/
def ratio (x : Binary64) : Nat × Nat := shift x.significand 1 x.exponent

/-- Whether the number is zero, of either sign. -/
def isZero (x : Binary64) : Bool := x.significand == 0

/-- The number with the least whole part in absolute value that is no nearer to another whole
number; a half goes away from zero. -/
def roundToInt (x : Binary64) : Int :=
  let (num, den) := x.ratio
  let magnitude : Int := ((2 * num + den) / (2 * den) : Nat)
  if x.negative then -magnitude else magnitude

/-! ## Reading decimals -/

/-- The number nearest to `digits · 10 ^ exponent`. -/
def ofDecimal? (negative : Bool) (digits : Nat) (exponent : Int) : Option Binary64 :=
  if 0 ≤ exponent then roundRatio negative (digits * Nat.pow 10 exponent.toNat) 1
  else roundRatio negative digits (Nat.pow 10 (-exponent).toNat)

/-- The greatest power of ten that is finite. -/
def greatestPower : Nat := 308

/-- The quotient that a power of ten has once it is rounded. -/
def powerOfTen (power : Nat) : Nat × Nat :=
  let (significand, exponent) := nearest (Nat.pow 10 power) 1
  shift significand 1 exponent

/-- The product with a power of ten, both factors rounded before and the product after. -/
def timesPower? (x : Binary64) (power : Nat) : Option Binary64 :=
  roundRatio x.negative (x.ratio.1 * (powerOfTen power).1) (x.ratio.2 * (powerOfTen power).2)

/-- The quotient by a power of ten, rounded likewise. -/
def overPower? (x : Binary64) (power : Nat) : Option Binary64 :=
  roundRatio x.negative (x.ratio.1 * (powerOfTen power).2) (x.ratio.2 * (powerOfTen power).1)

/-- The number divided by the greatest power of ten a number of times, as long as it is not zero. -/
def overGreatest? : Nat → Binary64 → Option Binary64
  | 0, x => some x
  | times + 1, x =>
    if x.isZero then some x else (x.overPower? greatestPower).bind (overGreatest? times)

/-- A number times a power of ten. A negative power beyond the greatest one is divided out
piecewise; a product beyond the finite numbers is none. -/
def scale? (x : Binary64) (exponent : Int) : Option Binary64 :=
  if x.isZero then some x
  else if 0 ≤ exponent then
    if greatestPower < exponent then none else x.timesPower? exponent.toNat
  else
    let times := (exponent.natAbs - 1) / greatestPower
    (overGreatest? times x).bind (·.overPower? (exponent.natAbs - times * greatestPower))

/-- `digits · 10 ^ exponent`, the digits rounded first and the product or quotient after. -/
def scaled? (negative : Bool) (digits : Nat) (exponent : Int) : Option Binary64 :=
  (roundRatio negative digits 1).bind (scale? · exponent)

end Binary64

end Targeting
