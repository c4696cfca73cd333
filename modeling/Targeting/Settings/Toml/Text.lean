import Targeting.Json.Reader
import Targeting.Settings.Path

/-!
# Blanks and strings of TOML

A string is found in two steps: its closing quotes separate what is inside from what follows, then
the escapes inside are resolved.

## Main definitions

* `Targeting.Toml.endLine?`, `Targeting.Toml.dropSpace` — blanks, comments and the ends of lines.
* `Targeting.Toml.splitString?` — the inside of a string and the text after it.
* `Targeting.Toml.unescape?` — what the inside of a string with escapes means.
* `Targeting.Toml.readString?` — a string of any kind.
-/

set_option autoImplicit false

namespace Targeting.Toml

/-! ## Blanks and comments -/

/-- The text without the mark of the byte order at its start. -/
def dropMark (text : List Char) : List Char :=
  match text with
  | '\ufeff' :: rest => rest
  | _ => text

/-- The text without the blanks at its start. -/
def dropBlank (text : List Char) : List Char := text.dropWhile isBlankInLine

/-- Whether a character may stand in a comment or string: no control character but the tab. -/
def isPlain (c : Char) : Bool := c = '\t' || (32 ≤ c.toNat && c.toNat ≠ 127)

/-- The text after the end of a line, in one of its two forms. -/
def newline? (text : List Char) : Option (List Char) :=
  match text with
  | '\n' :: rest => some rest
  | '\r' :: '\n' :: rest => some rest
  | _ => none

/-- The text without the end of a line at its start. -/
def dropNewline (text : List Char) : List Char := (newline? text).getD text

/-- The text without the blanks and the comment at its start. -/
def dropComment (text : List Char) : List Char :=
  match dropBlank text with
  | '#' :: rest => rest.dropWhile isPlain
  | rest => rest

/-- The text after the rest of a line that has no statement on it. -/
def endLine? (text : List Char) : Option (List Char) :=
  match dropComment text with
  | [] => some []
  | rest => newline? rest

/-- The text without the blanks, comments and ends of lines at its start, which is inside a comment
or not. -/
def dropSpace (comment : Bool) : List Char → List Char
  | [] => []
  | '\r' :: '\n' :: rest => dropSpace false rest
  | c :: rest =>
    if c = '\n' then dropSpace false rest
    else if c = '#' || isBlankInLine c || comment && isPlain c then
      dropSpace (comment || c = '#') rest
    else c :: rest

/-! ## Strings -/

/-- The quotes in front of the closing ones, and the text after those. One quote closes a string of
one line. Three close a block, and of up to five in a row those in front belong to the block. -/
def closing? (quote : Char) (block : Bool) (text : List Char) :
    Option (List Char × List Char) :=
  let run := (text.takeWhile (· = quote)).length
  let needed := if block then 3 else 1
  let used := min run (if block then 5 else 1)
  if run < needed then none else some (List.replicate (used - needed) quote, text.drop used)

/-- The inside of a string and the text after it. After a backslash no double quote closes. -/
def splitString? (quote : Char) (block : Bool) : List Char → Option (List Char × List Char)
  | [] => none
  | c :: rest =>
    match closing? quote block (c :: rest) with
    | some closed => some closed
    | none =>
      if c = '\\' && quote = '"' then
        match rest with
        | [] => none
        | d :: rest =>
          (splitString? quote block rest).map fun (inside, after) => (c :: d :: inside, after)
      else (splitString? quote block rest).map fun (inside, after) => (c :: inside, after)

/-- Whether characters may stand inside a block: plain ones and the ends of lines in both forms. -/
def areLines : List Char → Bool
  | [] => true
  | '\r' :: '\n' :: rest => areLines rest
  | c :: rest => (isPlain c || c = '\n') && areLines rest

/-- The character that a letter stands for after a backslash. -/
def escaped? (c : Char) : Option Char :=
  match c with
  | 'b' => some (Char.ofNat 8)
  | 't' => some '\t'
  | 'n' => some '\n'
  | 'f' => some (Char.ofNat 12)
  | 'r' => some '\r'
  | 'e' => some (Char.ofNat 27)
  | '"' => some '"'
  | '\\' => some '\\'
  | _ => none

/-- The number of hexadecimal digits in the code point after a backslash and a letter. -/
def codeLength? (c : Char) : Option Nat :=
  match c with
  | 'x' => some 2
  | 'u' => some 4
  | 'U' => some 8
  | _ => none

/-- Whether a character ends a line or is a part of its end. -/
def isLineEnd (c : Char) : Bool := c = '\n' || c = '\r'

/-- Where the reader of a string with escapes stands: between characters, after a backslash, in a
code point with digits missing, or in the blanks after a backslash, which hold the end of a line. -/
inductive EscapeState where
  | between
  | escape
  | code (missing value : Nat)
  | fold (ended : Bool)
deriving DecidableEq, Repr, Inhabited

namespace EscapeState

/-- Whether a string may end in a state. -/
def isFinal (state : EscapeState) : Bool := state = between || state = fold true

/-- A step over a character that stands for itself or opens an escape. -/
def enter (c : Char) : List Char × EscapeState := if c = '\\' then ([], escape) else ([c], between)

/-- The characters that are meant by one character inside a string, and the state after it. -/
def step? (state : EscapeState) (c : Char) : Option (List Char × EscapeState) :=
  match state with
  | between => some (enter c)
  | escape =>
    match codeLength? c, escaped? c with
    | some missing, _ => some ([], code missing 0)
    | none, some meant => some ([meant], between)
    | none, none =>
      if isBlankInLine c || isLineEnd c then some ([], fold (isLineEnd c)) else none
  | code missing value =>
    match Json.hexValue? c with
    | none => none
    | some digit =>
      let value := value * 16 + digit
      if 1 < missing then some ([], code (missing - 1) value)
      else if value.isValidChar then some ([Char.ofNat value], between)
      else none
  | fold ended =>
    if isBlankInLine c || isLineEnd c then some ([], fold (ended || isLineEnd c))
    else if ended then some (enter c)
    else none

end EscapeState

/-- What the inside of a string with escapes means, read on from a state. -/
def unescape? (state : EscapeState) : List Char → Option (List Char)
  | [] => if state.isFinal then some [] else none
  | c :: rest =>
    match state.step? c with
    | none => none
    | some (meant, next) => (unescape? next rest).map (meant ++ ·)

/-- Reads a string after its opening quotes. -/
def readQuoted? (quote : Char) (block : Bool) (text : List Char) : Option (String × List Char) :=
  match splitString? quote block text with
  | none => none
  | some (inside, rest) =>
    if !(if block then areLines inside else inside.all isPlain) then none
    else
      (if quote = '"' then unescape? .between inside else some inside).map fun meant =>
        (String.ofList meant, rest)

/-- Reads a string of any kind. The end of the line on which a block opens is no part of it. -/
def readString? (text : List Char) : Option (String × List Char) :=
  match text with
  | '"' :: '"' :: '"' :: rest => readQuoted? '"' true (dropNewline rest)
  | '\'' :: '\'' :: '\'' :: rest => readQuoted? '\'' true (dropNewline rest)
  | '"' :: rest => readQuoted? '"' false rest
  | '\'' :: rest => readQuoted? '\'' false rest
  | _ => none

end Targeting.Toml
