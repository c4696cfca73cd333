import Targeting.Decimal.Shortest
import Targeting.Json.Value

/-!
# JSON text

The compact text of a JSON value: no blanks, characters beyond ASCII as they are, and a double as
its shortest decimal.

## Main definitions

* `Targeting.Json.Number.text` — the text of a number.
* `Targeting.Json.quote` — the text of a string.
* `Targeting.Json.compact` — the text of a value.
-/

set_option autoImplicit false

namespace Targeting.Json

/-! ## Numbers -/

/-- A double is written positionally, with at least one digit after the point, from `0.00001` up
to but not including `10 ^ 16`, and with a power of ten elsewhere. -/
def realText (x : Binary64) : String :=
  let decimal := x.shortest
  let magnitude :=
    if x.isZero then "0.0"
    else if decimal.point ≤ -5 ∨ 16 < decimal.point then decimal.scientific
    else if 0 ≤ decimal.exponent then decimal.positional ++ ".0"
    else decimal.positional
  if x.negative then "-" ++ magnitude else magnitude

/-- The text of a number. -/
def Number.text : Number → String
  | .int n => toString n
  | .real x => realText x

/-! ## Strings -/

/-- The lower-case hexadecimal digit of a number below sixteen. -/
def hexDigit (n : Nat) : Char := Nat.digitChar n

/-- A character inside a string: quotes, backslashes and control characters are escaped. -/
def escapeChar (c : Char) : List Char :=
  if c = '"' then ['\\', '"']
  else if c = '\\' then ['\\', '\\']
  else if c = '\n' then ['\\', 'n']
  else if c = '\r' then ['\\', 'r']
  else if c = '\t' then ['\\', 't']
  else if c.toNat = 8 then ['\\', 'b']
  else if c.toNat = 12 then ['\\', 'f']
  else if c.toNat < 32 then
    ['\\', 'u', '0', '0', hexDigit (c.toNat / 16), hexDigit (c.toNat % 16)]
  else [c]

/-- The text of a string. -/
def quote (text : String) : String :=
  String.ofList ('"' :: (text.toList.flatMap escapeChar ++ ['"']))

/-! ## Values -/

mutual

/-- The compact text of a value. -/
def compact : Json → String
  | .null => "null"
  | .bool b => if b then "true" else "false"
  | .number n => n.text
  | .string s => quote s
  | .array items => "[" ++ ",".intercalate (compactItems items) ++ "]"
  | .object fields => "\x7b" ++ ",".intercalate (compactFields fields) ++ "\x7d"

/-- The compact texts of a list of values. -/
def compactItems : List Json → List String
  | [] => []
  | item :: rest => compact item :: compactItems rest

/-- The compact texts of a list of fields. -/
def compactFields : List (String × Json) → List String
  | [] => []
  | (name, value) :: rest => (quote name ++ ":" ++ compact value) :: compactFields rest

end

end Targeting.Json
