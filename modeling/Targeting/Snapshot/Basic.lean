import Targeting.Rule.Variable
import Targeting.Sorted.Dict
import Targeting.Value.Basic

/-!
# Snapshots

What is known about one visitor: attributes, the records of related objects, and the table of the
audiences' rules. A snapshot does not change while rules are evaluated in it.

## Main definitions

* `Targeting.Snapshot` — the snapshots; `rule?`, `record?` and `field?` look things up.
* `Targeting.FieldPolicy` — what becomes of a field that a record lacks.
-/

set_option autoImplicit false

namespace Targeting

/-- What a rule may say of a field that a record lacks: it is the empty text, or it is unknown. -/
inductive FieldPolicy where
  | lenient
  | strict
deriving DecidableEq, Repr, Inhabited

/-- What is known about one visitor. -/
structure Snapshot where
  profile : String := ""
  role : String := ""
  domain : String := ""
  /-- The audience that is being evaluated, where there is one. -/
  audience : String := ""
  permission : NameSet := ∅
  location : NameSet := ∅
  /-- The rule of each audience. -/
  rules : Dict String := ∅
  /-- The record of each object: its fields by their paths. -/
  data : Dict (Dict Value) := ∅
deriving DecidableEq, Inhabited

namespace Snapshot

/-- The rule of an audience. -/
def rule? (snapshot : Snapshot) (audience : String) : Option String := snapshot.rules.get? audience

/-- The record of an object. -/
def record? (snapshot : Snapshot) (object : String) : Option (Dict Value) :=
  snapshot.data.get? object

/-- The value of a field of an object's record. -/
def field? (snapshot : Snapshot) (path : FieldPath) : Option Value :=
  (snapshot.record? path.object).bind (·.get? path.field)

end Snapshot

end Targeting
