import Targeting.Decimal.Digits
import Targeting.Json.Document

/-!
# Reading JSON text

The document of a text, read character by character. Reading never fails: a break of the text
becomes part of the document (`Targeting.Json.Document`).

## Main definitions

* `Targeting.Json.Numeral` — a number as it is written; `Numeral.value?` — its value.
* `Targeting.Json.readValue` — the document at the start of a text, and the text after it.
* `Targeting.Json.Document.ofText` — the document of a text, and whether other text follows it.
-/

set_option autoImplicit false

namespace Targeting.Json

/-- Whether a character may stand between the parts of a JSON text. -/
def isSpace (c : Char) : Bool := c = ' ' || c = '\n' || c = '\t' || c = '\r'

/-- The text without the blanks at its start. -/
def dropSpace (text : List Char) : List Char := text.dropWhile isSpace

/-- The flaw of a held part whose text has ended, and of the same part when it is skipped. -/
def ended : Document := .broken .truncated .truncated

/-- A break of the text at a character that cannot stand there. -/
def misplaced : Document := .broken .malformed .malformed

/-! ## Numbers -/

/-- A number as it is written: its sign, its digits before and after the point, its power of ten. -/
structure Numeral where
  negative : Bool
  whole : List Char
  fraction : Option (List Char)
  power : Option Int

/-- Reads digits as long as the number they write has 64 bits; gives that number and the digits
left over. -/
def gather (significand : Nat) : List Char → Nat × List Char
  | [] => (significand, [])
  | c :: rest =>
    let next := significand * 10 + digitValue c
    if fitsWord 64 next then gather next rest else (significand, c :: rest)

/-- The value of a numeral; none when it is beyond the finite doubles. A whole number of 64 bits
stays one. In all others the digits that fit in 64 bits are scaled by a power of ten. -/
def Numeral.value? (n : Numeral) : Option Number :=
  let (whole, surplus) := gather 0 n.whole
  match n.fraction, n.power, surplus with
  | none, none, [] =>
    if n.negative then
      if whole ≠ 0 ∧ fitsInt64 (-(whole : Int)) then some (.int (-(whole : Int)))
      else (Binary64.roundRatio true whole 1).map .real
    else some (.int whole)
  | fraction, power, surplus =>
    let fraction := fraction.getD []
    let (significand, unread) := gather whole fraction
    let shift : Int := surplus.length - (fraction.length - unread.length : Nat)
    (Binary64.scaled? n.negative significand (shift + power.getD 0)).map .real

/-- Reads the sign and digits of a power of ten; a text that has none is the flaw. -/
def readPower (text : List Char) : Except Document (Int × List Char) :=
  let (negative, text) := splitSign text
  let digits := text.takeWhile Char.isDigit
  match digits, text with
  | [], [] => .error (.broken .truncated .malformed)
  | [], _ => .error misplaced
  | _, _ =>
    .ok (withSign negative (readDigits digits), text.dropWhile Char.isDigit)

/-- Reads the digits after a point, if there is one, and the power of ten after an `e`. -/
def readTail (negative : Bool) (whole text : List Char) :
    Except Document (Numeral × List Char) := do
  let (fraction, text) ←
    match text with
    | '.' :: rest =>
      match rest.takeWhile Char.isDigit, rest with
      | [], [] => .error (.broken .truncated .malformed)
      | [], _ => .error misplaced
      | digits, _ => pure (some digits, rest.dropWhile Char.isDigit)
    | _ => pure (none, text)
  match text with
  | 'e' :: rest | 'E' :: rest =>
    let (power, text) ← readPower rest
    return (⟨negative, whole, fraction, some power⟩, text)
  | _ => return (⟨negative, whole, fraction, none⟩, text)

/-- Reads a number after its sign. A zero at the start is the whole part. -/
def readNumeral (negative : Bool) (text : List Char) : Except Document (Numeral × List Char) :=
  match text with
  | [] => .error (.broken .truncated .malformed)
  | '0' :: rest =>
    if rest.head?.any Char.isDigit then .error misplaced else readTail negative ['0'] rest
  | _ =>
    let whole := text.takeWhile Char.isDigit
    if whole.isEmpty then .error misplaced
    else readTail negative whole (text.dropWhile Char.isDigit)

/-- Reads a number after its sign, as a document; no text is left after a break. -/
def readNumber (negative : Bool) (text : List Char) : Document × Option (List Char) :=
  match readNumeral negative text with
  | .error flaw => (flaw, none)
  | .ok (numeral, rest) =>
    match numeral.value? with
    | some value => (.number value, some rest)
    | none => (.beyond .null, some rest)

/-! ## Strings -/

/-- The value of a hexadecimal digit. -/
def hexValue? (c : Char) : Option Nat :=
  if c.isDigit then some (c.toNat - 48)
  else if 'a' ≤ c ∧ c ≤ 'f' then some (c.toNat - 87)
  else if 'A' ≤ c ∧ c ≤ 'F' then some (c.toNat - 55)
  else none

/-- The value of hexadecimal digits, most significant first. -/
def hexValues? (digits : List Char) : Option Nat :=
  digits.foldlM (fun n c => (hexValue? c).map (n * 16 + ·)) 0

/-- The character that one letter stands for after a backslash. -/
def escaped? (c : Char) : Option Char :=
  match c with
  | '"' => some '"'
  | '\\' => some '\\'
  | '/' => some '/'
  | 'b' => some (Char.ofNat 8)
  | 'f' => some (Char.ofNat 12)
  | 'n' => some '\n'
  | 'r' => some '\r'
  | 't' => some '\t'
  | _ => none

/-- What reading a string gives: the string, none if it cannot be held, and the text after it; or
the flaws of a break. -/
inductive StringRead where
  | closed (content : Option String) (rest : List Char)
  | broken (held skipped : Flaw)

/-- The flaw of a string that breaks off, given whether it could be held up to there. -/
def breakOff (held : Option (List Char)) : StringRead :=
  .broken (if held.isSome then .truncated else .malformed) .truncated

/-- Adds a code unit of an escape. Half of a pair waits for the other half; a half without the
other makes the string one that cannot be held. -/
def addUnit (held : Option (List Char)) (lead : Option Nat) (unit : Nat) :
    Option (List Char) × Option Nat :=
  let isLead := 0xD800 ≤ unit && unit < 0xDC00
  let isTrail := 0xDC00 ≤ unit && unit < 0xE000
  match lead with
  | some first =>
    if isTrail then
      let code := 0x10000 + (first - 0xD800) * 0x400 + (unit - 0xDC00)
      (held.map (Char.ofNat code :: ·), none)
    else (none, none)
  | none =>
    if isTrail then (none, none)
    else if isLead then (held, some unit)
    else (held.map (Char.ofNat unit :: ·), none)

/-- Adds a character that is no code unit of an escape. -/
def addChar (held : Option (List Char)) (lead : Option Nat) (c : Char) : Option (List Char) :=
  if lead.isSome then none else held.map (c :: ·)

/-- Reads a string after its opening quote. `held` has the characters read so far, last first, or
none once the string cannot be held; `lead` is half of a pair that waits for the other half. -/
def readString (held : Option (List Char)) (lead : Option Nat) : List Char → StringRead
  | [] => breakOff held
  | '"' :: rest =>
    .closed ((if lead.isSome then none else held).map fun chars => String.ofList chars.reverse) rest
  | '\\' :: 'u' :: a :: b :: c :: d :: rest =>
    match hexValues? [a, b, c, d] with
    | some unit => readString (addUnit held lead unit).1 (addUnit held lead unit).2 rest
    | none => .broken .malformed .malformed
  | '\\' :: 'u' :: rest =>
    if (rest.map Char.utf8Size).sum < 4 then breakOff held else .broken .malformed .malformed
  | '\\' :: c :: rest =>
    match escaped? c with
    | some char => readString (addChar held lead char) none rest
    | none => .broken .malformed .malformed
  | ['\\'] => breakOff held
  | c :: rest =>
    if c.toNat < 32 then .broken .malformed .malformed
    else readString (addChar held lead c) none rest

/-! ## Values -/

/-- Reads the rest of a word of the format, after its first letter. -/
def readWord (document : Document) : List Char → List Char → Document × Option (List Char)
  | [], rest => (document, some rest)
  | _ :: _, [] => (ended, none)
  | c :: word, d :: rest => if c = d then readWord document word rest else (misplaced, none)

/-- The number of containers around a container that cannot be held any more. -/
def depthLimit : Nat := 127

mutual

/-- Reads a value that has `depth` containers around it; no text is left after a break. The fuel
bounds the number of calls, of which each but the last takes up text. -/
def readValue : Nat → Nat → List Char → Document × Option (List Char)
  | 0, _, _ => (misplaced, none)
  | fuel + 1, depth, text =>
    let bounded := fun (content : Document) =>
      if depthLimit ≤ depth then .beyond content else content
    match dropSpace text with
    | [] => (ended, none)
    | 'n' :: rest => readWord .null "ull".toList rest
    | 't' :: rest => readWord (.bool true) "rue".toList rest
    | 'f' :: rest => readWord (.bool false) "alse".toList rest
    | '"' :: rest =>
      match readString (some []) none rest with
      | .closed (some content) rest => (.string content, some rest)
      | .closed none rest => (.beyond .null, some rest)
      | .broken held skipped => (.broken held skipped, none)
    | '[' :: rest =>
      match dropSpace rest with
      | ']' :: rest => (bounded (.array [] .closed), some rest)
      | _ =>
        let (items, ending, rest) := readItems fuel (depth + 1) rest
        (bounded (.array items ending), rest)
    | '\x7b' :: rest =>
      match dropSpace rest with
      | '\x7d' :: rest => (bounded (.object [] .closed), some rest)
      | _ =>
        let (fields, ending, rest) := readFields fuel (depth + 1) rest
        (bounded (.object fields ending), rest)
    | '-' :: rest => readNumber true rest
    | c :: rest => if c.isDigit then readNumber false (c :: rest) else (misplaced, none)

/-- Reads the items of an array from one item up to the closing bracket. -/
def readItems : Nat → Nat → List Char → List Document × Ending × Option (List Char)
  | 0, _, _ => ([], .broken .malformed .malformed, none)
  | fuel + 1, depth, text =>
    let (item, rest) := readValue fuel depth text
    match rest.map dropSpace with
    | none => ([item], .closed, none)
    | some [] => ([item], .broken .truncated .truncated, none)
    | some (']' :: rest) => ([item], .closed, some rest)
    | some (',' :: rest) =>
      if (dropSpace rest).head? = some ']' then ([item], .broken .malformed .malformed, none)
      else
        let (items, ending, rest) := readItems fuel depth rest
        (item :: items, ending, rest)
    | some _ => ([item], .broken .malformed .malformed, none)

/-- Reads the fields of an object from one name up to the closing bracket. -/
def readFields : Nat → Nat → List Char →
    List (Option String × Document) × Ending × Option (List Char)
  | 0, _, _ => ([], .broken .malformed .malformed, none)
  | fuel + 1, depth, text =>
    match dropSpace text with
    | [] => ([], .broken .truncated .truncated, none)
    | '"' :: rest =>
      match readString (some []) none rest with
      | .broken held skipped => ([], .broken held skipped, none)
      | .closed name rest =>
        match dropSpace rest with
        | [] => ([(name, ended)], .closed, none)
        | ':' :: rest =>
          let (value, rest) := readValue fuel depth rest
          match rest.map dropSpace with
          | none => ([(name, value)], .closed, none)
          | some [] => ([(name, value)], .broken .truncated .truncated, none)
          | some ('\x7d' :: rest) => ([(name, value)], .closed, some rest)
          | some (',' :: rest) =>
            let (fields, ending, rest) := readFields fuel depth rest
            ((name, value) :: fields, ending, rest)
          | some _ => ([(name, value)], .broken .malformed .malformed, none)
        | _ => ([(name, misplaced)], .closed, none)
    | _ => ([], .broken .malformed .malformed, none)

end

/-- The document at the start of a text, and whether anything but blanks follows it. -/
def Document.ofText (text : String) : Document × Bool :=
  let chars := text.toList
  let (document, rest) := readValue (2 * chars.length + 1) 0 chars
  (document, rest.any fun rest => !(dropSpace rest).isEmpty)

end Targeting.Json
