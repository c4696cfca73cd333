import Targeting.Settings.Toml.Body
import Targeting.Settings.Toml.Text
import Targeting.Settings.Toml.Time

/-!
# Keys and values of TOML

Values are strings, numbers, truth values, days and times, and lists and tables of values. What is
neither a string nor a list nor a table is a word: it ends where a character comes that cannot stand
in one.

## Main definitions

* `Targeting.Toml.readKey?` — a dotted key.
* `Targeting.Toml.wholeNumber?`, `Targeting.Toml.fraction?` — the numbers that words are.
* `Targeting.Toml.wordValue?` — the value of a word.
* `Targeting.Toml.readValue?` — a value.
-/

set_option autoImplicit false

namespace Targeting.Toml

/-! ## Keys -/

/-- Reads one part of a key: bare, or a string of one line. -/
def readPart? (text : List Char) : Option (String × List Char) :=
  match text with
  | '"' :: rest => readQuoted? '"' false rest
  | '\'' :: rest => readQuoted? '\'' false rest
  | _ =>
    let part := text.takeWhile isKeyChar
    if part.isEmpty then none else some (String.ofList part, text.dropWhile isKeyChar)

/-- Reads a key, its parts separated by points; gives the text after the blanks that follow it. The
fuel bounds the number of parts. -/
def readParts? : Nat → List Char → Option (List String × List Char)
  | 0, _ => none
  | fuel + 1, text => do
    let (part, rest) ← readPart? (dropBlank text)
    match dropBlank rest with
    | '.' :: rest =>
      let (parts, rest) ← readParts? fuel rest
      return (part :: parts, rest)
    | rest => return ([part], rest)

/-- Reads a key and the blanks that follow it. -/
def readKey? (text : List Char) : Option (List String × List Char) :=
  readParts? (text.length + 1) text

/-! ## Numbers and words -/

/-- The digits of a number without the underscores between them. -/
def joinDigits? (text : List Char) : Option (List Char) :=
  let parts := text.splitOn '_'
  if parts.any (·.isEmpty) then none else some parts.flatten

/-- The number that digits write in a base. -/
def inBase? (base : Nat) (text : List Char) : Option Nat := do
  (← joinDigits? text).foldlM (fun n c => do
    let digit ← Json.hexValue? c
    if digit < base then some (n * base + digit) else none) 0

/-- A whole number: decimal with an optional sign and no zeros in front, or in another base. -/
def wholeNumber? (text : List Char) : Option Int :=
  match text with
  | '0' :: 'x' :: digits => (inBase? 16 digits).map Int.ofNat
  | '0' :: 'o' :: digits => (inBase? 8 digits).map Int.ofNat
  | '0' :: 'b' :: digits => (inBase? 2 digits).map Int.ofNat
  | _ =>
    let (negative, digits) := splitSign text
    if digits.head? = some '0' ∧ digits ≠ ['0'] then none
    else (inBase? 10 digits).map (withSign negative)

/-- Whether a character may stand among the digits of a number. -/
def isDigitOrLine (c : Char) : Bool := c.isDigit || c = '_'

/-- Reads the digits after a point, of which there is at least one. Where there is no point, there
are none. -/
def readPlaces? (text : List Char) : Option (List Char × List Char) :=
  match text with
  | '.' :: rest =>
    (joinDigits? (rest.takeWhile isDigitOrLine)).map fun digits =>
      (digits, rest.dropWhile isDigitOrLine)
  | _ => some ([], text)

/-- The power of ten that a text names after its letter; none is named where the text is empty. -/
def power? (text : List Char) : Option Int :=
  match text with
  | [] => some 0
  | letter :: rest =>
    if letter = 'e' ∨ letter = 'E' then
      let (negative, digits) := splitSign rest
      if digits.all isDigitOrLine then (joinDigits? digits).map (withSign negative <| readDigits ·)
      else none
    else none

/-- A number with a fraction, a power of ten or both, with an optional sign and no zeros in front,
or the word of a number that is not finite. A number beyond the finite ones is none. -/
def fraction? (text : List Char) : Option Extended := do
  let (negative, magnitude) := splitSign text
  if magnitude = "inf".toList then return .infinite negative
  if magnitude = "nan".toList then return .notANumber
  let whole ← joinDigits? (magnitude.takeWhile isDigitOrLine)
  let rest := magnitude.dropWhile isDigitOrLine
  if rest.isEmpty || whole.head? = some '0' && whole ≠ ['0'] then none
  let (places, rest) ← readPlaces? rest
  let power ← power? rest
  match Extended.nearest negative (readDigits (whole ++ places)) (power - places.length) with
  | .finite x => return .finite x
  | _ => none

/-- The value of a word: a truth value, a whole number of 64 bits with a sign, another number, or
the text of a day or time. -/
def wordValue? (word : List Char) : Option Setting :=
  if word = "true".toList then some (.truth true)
  else if word = "false".toList then some (.truth false)
  else
    match wholeNumber? word, fraction? word, Stamp.ofWord? word with
    | some n, _, _ => if fitsInt64 n then some (.int n) else none
    | none, some x, _ => some (.real x)
    | none, none, some stamp => some (.text stamp.text)
    | none, none, none => none

/-- Whether a character may stand in a word. -/
def isValueChar (c : Char) : Bool :=
  c.isAlphanum || c = '_' || c = '+' || c = '-' || c = '.' || c = ':'

/-- The word at the start of a text, and the text after it. A blank may stand in it between a day
and a time. -/
def splitWord (text : List Char) : List Char × List Char :=
  let word := text.takeWhile isValueChar
  match text.dropWhile isValueChar with
  | ' ' :: c :: rest =>
    if c.isDigit && (readDay? word).any (·.2.isEmpty) then
      (word ++ ' ' :: (c :: rest).takeWhile isValueChar, (c :: rest).dropWhile isValueChar)
    else (word, ' ' :: c :: rest)
  | rest => (word, rest)

/-- Reads a single value. -/
def readSingle? (text : List Char) : Option (Setting × List Char) :=
  match readString? text with
  | some (s, rest) => some (.text s, rest)
  | none => (wordValue? (splitWord text).1).map fun value => (value, (splitWord text).2)

/-! ## Lists and tables -/

mutual

/-- Reads a value. The fuel bounds the number of its parts. -/
def readNested? : Nat → List Char → Option (Setting × List Char)
  | 0, _ => none
  | fuel + 1, text =>
    match text with
    | '[' :: rest => do
      let (items, rest) ← readItems? fuel (dropSpace false rest)
      return (.list items, rest)
    | '\x7b' :: rest => do
      let (entries, rest) ← readEntries? fuel [] (dropSpace false rest)
      return (.table (toSettings entries), rest)
    | _ => readSingle? text

/-- Reads the items of a list up to its closing bracket; the last may have a comma after it. -/
def readItems? : Nat → List Char → Option (List Setting × List Char)
  | 0, _ => none
  | fuel + 1, text =>
    match text with
    | ']' :: rest => some ([], rest)
    | _ => do
      let (item, rest) ← readNested? fuel text
      match dropSpace false rest with
      | ',' :: rest =>
        let (items, rest) ← readItems? fuel (dropSpace false rest)
        return (item :: items, rest)
      | ']' :: rest => return ([item], rest)
      | _ => none

/-- Reads the entries of a table up to its closing brace, after those that it has; the last may have
a comma after it. -/
def readEntries? : Nat → Body → List Char → Option (Body × List Char)
  | 0, _, _ => none
  | fuel + 1, entries, text =>
    match text with
    | '\x7d' :: rest => some (entries, rest)
    | _ => do
      let (path, rest) ← readKey? text
      match rest with
      | '=' :: rest =>
        let (value, rest) ← readNested? fuel (dropBlank rest)
        let entries ← define? value path entries
        match dropSpace false rest with
        | ',' :: rest => readEntries? fuel entries (dropSpace false rest)
        | '\x7d' :: rest => return (entries, rest)
        | _ => none
      | _ => none

end

/-- Reads a value. -/
def readValue? (text : List Char) : Option (Setting × List Char) :=
  readNested? (text.length + 1) text

end Targeting.Toml
