import Targeting.Snapshot.Draft
import Targeting.Navigation.Basic
import Targeting.Navigation.FlatRecord

/-!
# The snapshot of a navigation

What a navigation says of the visitor becomes the attributes and records of a snapshot, and its
rules become the table of rules.

## Main definitions

* `Targeting.Navigation.edits` — the steps that build the snapshot.
* `Targeting.Navigation.snapshot` — the snapshot of a navigation under a field policy.
-/

set_option autoImplicit false

namespace Targeting

/-- The names of a place, the largest area first, without those that are absent or empty. -/
def Place.names (place : Place) : List String :=
  ([place.country, place.state, place.city].filterMap id).filter fun name => !name.isEmpty

namespace Navigation

/-- The steps that put the records of an object into a snapshot. The object is there even if it has
no records, and records that are no objects add nothing. -/
def recordEdits (object : String) (records : List Json) : List Snapshot.Edit :=
  .record object :: records.map fun record =>
    .fields object (if record.isObject then (flatRecord "" ∅ record).entries else [])

/-- The steps that build the snapshot of a navigation. A rule that is absent is empty. -/
def edits (navigation : Navigation) (policy : FieldPolicy) : List Snapshot.Edit :=
  let visitor := navigation.visitor
  [.profile (visitor.profile.getD ""), .role (visitor.role.getD ""),
    .permissions visitor.permissions,
    .locations ((visitor.place.map Place.names).getD []), .policy policy] ++
  visitor.records.entries.flatMap (fun (object, records) => recordEdits object records) ++
  navigation.rules.map fun rule => .rule rule.audience (rule.rule.getD "")

/-- The snapshot of a navigation. -/
def snapshot (navigation : Navigation) (policy : FieldPolicy) : Snapshot :=
  Snapshot.ofEdits (navigation.edits policy)

end Navigation

end Targeting
