/-!
# Letter case

Words that are known in any case are compared after their ASCII letters have become small ones.

## Main definitions

* `Targeting.lowerCase` — a text in small letters.
-/

set_option autoImplicit false

namespace Targeting

/-- A text with its ASCII letters in lower case. -/
def lowerCase (text : String) : String := String.ofList (text.toList.map Char.toLower)

/-- The lower case goes character by character. -/
@[simp] theorem toList_lowerCase (text : String) :
    (lowerCase text).toList = text.toList.map Char.toLower := String.toList_ofList

end Targeting
