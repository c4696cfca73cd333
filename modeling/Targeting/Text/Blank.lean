/-!
# Blank characters

The characters with the Unicode property `White_Space`, which separate the words of a rule, and
texts made of nothing else.

## Main definitions

* `Targeting.isBlankChar` — the property.
* `Targeting.isBlank` — a text without any other character; the empty text is blank.
-/

set_option autoImplicit false

namespace Targeting

/-- Whether a character has the Unicode property `White_Space`. -/
def isBlankChar (c : Char) : Bool :=
  let n := c.toNat
  (9 ≤ n && n ≤ 13) || n == 0x20 || n == 0x85 || n == 0xA0 || n == 0x1680 ||
    (0x2000 ≤ n && n ≤ 0x200A) || n == 0x2028 || n == 0x2029 || n == 0x202F || n == 0x205F ||
    n == 0x3000

/-- Whether a text has no character but blanks. -/
def isBlank (text : String) : Bool := text.toList.all isBlankChar

/-- The blanks that `Char.isWhitespace` knows are blanks. -/
theorem isBlankChar_of_isWhitespace {c : Char} (h : c.isWhitespace = true) :
    isBlankChar c = true := by
  simp only [Char.isWhitespace, Bool.or_eq_true, decide_eq_true_eq] at h
  rcases h with ((rfl | rfl) | rfl) | rfl <;> decide

end Targeting
