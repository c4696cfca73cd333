import Targeting.Settings.Tree

/-!
# Paths to settings

The key of a setting names the way to it: names with points between them, each with the places of
items in brackets after it, as in `audiences.shown[0]`. A key that does not read so is one name.

## Main definitions

* `Targeting.keyPath` — the path of a key.
-/

set_option autoImplicit false

namespace Targeting

/-- Whether a character is a blank inside a line. -/
def isBlankInLine (c : Char) : Bool := c = ' ' || c = '\t'

/-- Whether a character may stand in a name on a path. -/
def isKeyChar (c : Char) : Bool := c.isAlphanum || c = '_' || c = '-'

/-- The text without the blanks at its ends. -/
def trimInLine (text : List Char) : List Char :=
  ((text.dropWhile isBlankInLine).reverse.dropWhile isBlankInLine).reverse

/-- The place that decimal digits name, with a minus sign or none; it has 64 bits. -/
def place? (text : List Char) : Option Int :=
  (match text with
    | '-' :: digits => (natural? digits).map (withSign true)
    | digits => (natural? digits).map (withSign false)).filter fitsInt64

/-- The step of a place after its opening bracket. -/
def itemStep? (text : List Char) : Option Step :=
  match text.reverse with
  | ']' :: inside => (place? (trimInLine inside.reverse)).map .item
  | _ => none

/-- The steps of a name and the places after it. -/
def nameSteps? (text : List Char) : Option (List Step) :=
  match text.splitOn '[' with
  | [] => none
  | name :: places =>
    if name.isEmpty || !name.all isKeyChar then none
    else (places.mapM itemStep?).map (.key (String.ofList name) :: ·)

/-- The path of a key. -/
def keyPath (key : String) : List Step :=
  match (key.toList.splitOn '.').mapM nameSteps? with
  | some steps => steps.flatten
  | none => [.key key]

end Targeting
