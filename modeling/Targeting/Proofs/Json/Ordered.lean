import Targeting.Json.Document
import Targeting.Proofs.Failure
import Targeting.Proofs.Sorted.Dict

/-!
# Values in order

The fields of an object stand in increasing order of their names. This holds of every value that is
made from a document, at every depth, whatever the order of the document was. A value in order is
the value of its own document, so nothing is lost when it is held as it was sent.

## Main definitions

* `Targeting.Json.IsOrdered` — whether the objects in a value have their fields in order.

## Main results

* `Targeting.Json.Document.toJson_ofJson` — a value in order is read as it is.
* `Targeting.Json.isOrdered_of_toJson` — the value of a document is in order.
-/

set_option autoImplicit false

namespace Targeting

namespace Json

/-! ## Values -/

mutual

/-- Whether the objects in a value have their fields in increasing order of the names. -/
def IsOrdered : Json → Prop
  | .null | .bool _ | .number _ | .string _ => True
  | .array items => AreOrdered items
  | .object fields => fields.Pairwise (fun a b => a.1 < b.1) ∧ HaveOrder fields

/-- Whether all values of a list are in order. -/
def AreOrdered : List Json → Prop
  | [] => True
  | item :: rest => item.IsOrdered ∧ AreOrdered rest

/-- Whether the values of all fields are in order. -/
def HaveOrder : List (String × Json) → Prop
  | [] => True
  | (_, value) :: rest => value.IsOrdered ∧ HaveOrder rest

end

/-- All values of a list are in order if each of them is. -/
lemma areOrdered_iff {items : List Json} :
    AreOrdered items ↔ ∀ item ∈ items, item.IsOrdered := by
  induction items with
  | nil => simp [AreOrdered]
  | cons item items ih => simp [AreOrdered, ih]

/-- The values of all fields are in order if each of them is. -/
lemma haveOrder_iff {fields : List (String × Json)} :
    HaveOrder fields ↔ ∀ field ∈ fields, field.2.IsOrdered := by
  induction fields with
  | nil => simp [HaveOrder]
  | cons field fields ih => simp [HaveOrder, ih]

/-- An object with fields in any order is in order if their values are. -/
lemma isOrdered_ofFields {fields : List (String × Json)}
    (h : ∀ field ∈ fields, field.2.IsOrdered) : (ofFields fields).IsOrdered := by
  rw [ofFields, IsOrdered, haveOrder_iff]
  exact ⟨Dict.sorted _, fun field hfield => h field (Dict.mem_of_mem_entries_ofList hfield)⟩

namespace Document

/-! ## Values of documents -/

mutual

/-- A value in order is read from its document as it is. -/
theorem toJson_ofJson : ∀ {value : Json}, value.IsOrdered → toJson (ofJson value) = .ok value
  | .null, _ | .bool _, _ | .number _, _ | .string _, _ => rfl
  | .array items, h => by
    rw [ofJson, toJson, toItems_ofItems h]
    rfl
  | .object fields, ⟨hsorted, hfields⟩ => by
    have hofFields : Json.ofFields fields = .object fields :=
      congrArg (fun dict : Dict Json => Json.object dict.entries) (Dict.ofList_entries ⟨_, hsorted⟩)
    rw [ofJson, toJson, toFields_ofFields hfields]
    exact congrArg Except.ok hofFields

/-- Values in order are read from their documents as they are. -/
theorem toItems_ofItems : ∀ {items : List Json}, AreOrdered items →
    toItems (ofItems items) = .ok items
  | [], _ => rfl
  | item :: rest, ⟨hitem, hrest⟩ => by
    rw [ofItems, toItems, toJson_ofJson hitem, toItems_ofItems hrest]
    rfl

/-- Fields with values in order are read from their documents as they are. -/
theorem toFields_ofFields : ∀ {fields : List (String × Json)}, HaveOrder fields →
    toFields (ofFields fields) = .ok fields
  | [], _ => rfl
  | (name, value) :: rest, ⟨hvalue, hrest⟩ => by
    rw [ofFields, toFields, toJson_ofJson hvalue, toFields_ofFields hrest]
    rfl

end

end Document

mutual

/-- The value of a document is in order. -/
theorem isOrdered_of_toJson : ∀ {document : Document} {value : Json},
    document.toJson = .ok value → value.IsOrdered
  | .null, _, h | .bool _, _, h | .number _, _, h | .string _, _, h => by
    obtain rfl := Except.ok.inj h
    trivial
  | .array items ending, _, h => by
    obtain ⟨values, hvalues, h⟩ := bind_eq_ok_iff.1 h
    obtain ⟨-, -, h⟩ := bind_eq_ok_iff.1 h
    obtain rfl := Except.ok.inj h
    exact areOrdered_iff.2 (isOrdered_of_toItems hvalues)
  | .object fields ending, _, h => by
    obtain ⟨values, hvalues, h⟩ := bind_eq_ok_iff.1 h
    obtain ⟨-, -, h⟩ := bind_eq_ok_iff.1 h
    obtain rfl := Except.ok.inj h
    exact isOrdered_ofFields (isOrdered_of_toFields hvalues)
  | .broken _ _, _, h | .beyond _, _, h => nomatch h

/-- The values of documents are in order. -/
theorem isOrdered_of_toItems : ∀ {documents : List Document} {items : List Json},
    Document.toItems documents = .ok items → ∀ item ∈ items, item.IsOrdered
  | [], _, h => by
    obtain rfl := Except.ok.inj h
    simp
  | document :: rest, _, h => by
    obtain ⟨item, hitem, h⟩ := bind_eq_ok_iff.1 h
    obtain ⟨items, hitems, h⟩ := bind_eq_ok_iff.1 h
    obtain rfl := Except.ok.inj h
    exact List.forall_mem_cons.2 ⟨isOrdered_of_toJson hitem, isOrdered_of_toItems hitems⟩

/-- The values of the fields of a document are in order. -/
theorem isOrdered_of_toFields : ∀ {documents : List (Option String × Document)}
    {fields : List (String × Json)},
    Document.toFields documents = .ok fields → ∀ field ∈ fields, field.2.IsOrdered
  | [], _, h => by
    obtain rfl := Except.ok.inj h
    simp
  | (none, _) :: _, _, h => nomatch h
  | (some name, document) :: rest, _, h => by
    obtain ⟨value, hvalue, h⟩ := bind_eq_ok_iff.1 h
    obtain ⟨fields, hfields, h⟩ := bind_eq_ok_iff.1 h
    obtain rfl := Except.ok.inj h
    exact List.forall_mem_cons.2 ⟨isOrdered_of_toJson hvalue, isOrdered_of_toFields hfields⟩

end

end Json

end Targeting
