import Mathlib.Data.List.Forall2
import Mathlib.Data.List.Pairwise
import Targeting.Json.Decode
import Targeting.Proofs.Failure
import Targeting.Proofs.Json.Ordered

/-!
# Values that are read back

A reader restores what was written if it reads the written value as the data that it was written
from. This is shown of the readers of plain data one by one, and of records once for all: the fields
of a record are written in the order in which it is read from an array, but an object holds them in
the order of their names, so they are put into the record in an order of their own.

The other way round, whatever is read from a document has a property if the plain data that is read
has it and each field of a record preserves it. Both shapes of a record, with fields absent or
unknown, come under this one statement.

## Main definitions

* `Targeting.Json.Decoder.Restores` — a value is read as certain data.
* `Targeting.Json.Member` — a field of a record as it is written.
* `Targeting.Json.Decoder.Yields` — all data that is read has a property.

## Main results

* `Targeting.Json.restores_record` — records are restored if their fields are.
* `Targeting.Json.yields_record` — records have what each of their fields preserves.
-/

set_option autoImplicit false

namespace Targeting.Json

/-! ## Plain data -/

/-- Whether a reader takes a value for certain data. -/
def Decoder.Restores {α : Type} (decode : Decoder α) (value : Json) (a : α) : Prop :=
  decode (.ofJson value) = .ok a

section Plain

variable {α : Type} {decode : Decoder α}

/-- A value is read as the data that it restores. -/
lemma Decoder.Restores.ofValue {value : Json} {a : α} (h : decode.Restores value a) :
    decode.ofValue value = .ok a := by
  rw [Decoder.ofValue, h]
  rfl

/-- Texts are restored. -/
lemma restores_text (s : String) : Decoder.Restores text (.string s) s := rfl

/-- Texts that may be missing are restored. -/
lemma restores_text? (s : Option String) : Decoder.Restores (optional text) (.ofText? s) s := by
  cases s <;> rfl

/-- Data that may be missing is restored if the data is, and is not written as null. -/
lemma restores_optional {encode : α → Json} (h : ∀ a, decode.Restores (encode a) a)
    (hnull : ∀ a, encode a ≠ .null) (a : Option α) :
    Decoder.Restores (optional decode) ((a.map encode).getD .null) a := by
  cases a with
  | none => rfl
  | some a =>
    have hvalue : optional decode (.ofJson (encode a)) =
        (decode (.ofJson (encode a))).map some := by
      have hnull := hnull a
      cases hencode : encode a with
      | null => exact absurd hencode hnull
      | _ => rfl
    exact hvalue.trans (by rw [h a]; rfl)

/-- Whole numbers between the bounds are restored. -/
lemma restores_whole {least greatest n : Int} (hleast : least ≤ n) (hgreatest : n ≤ greatest) :
    Decoder.Restores (whole least greatest) (.ofInt n) n :=
  if_pos ⟨hleast, hgreatest⟩

/-- Whole numbers of 64 bits are restored. -/
lemma restores_int64 (n : Int64) : Decoder.Restores int64 (.ofInt n.toInt) n := by
  have hwhole : Decoder.Restores (whole (-9223372036854775808) 9223372036854775807)
      (.ofInt n.toInt) n.toInt :=
    restores_whole n.le_toInt (Int.le_of_lt_add_one n.toInt_lt)
  rw [Decoder.Restores, int64, hwhole]
  exact congrArg Except.ok (Int64.ofInt_toInt n)

/-- Natural numbers of 32 bits are restored. -/
lemma restores_natural (n : UInt32) :
    Decoder.Restores (natural 32) (.ofInt n.toNat) n.toNat := by
  have hwhole : Decoder.Restores (whole 0 (Nat.pow 2 32 - 1 : Nat)) (.ofInt n.toNat) n.toNat :=
    restores_whole (Int.natCast_nonneg _) (Int.ofNat_le.2 (Nat.le_sub_one_of_lt n.toNat_lt))
  rw [Decoder.Restores, natural, hwhole]
  rfl

/-- A name is restored if it is read as what it names. -/
lemma restores_oneOf {named : String → Option α} {name : String} {a : α}
    (h : named name = some a) : Decoder.Restores (oneOf named) (.string name) a := by
  simp only [Decoder.Restores, Document.ofJson, oneOf, h]

/-- Lists are restored if their items are. -/
lemma restores_list {encode : α → Json} {items : List α}
    (h : ∀ a ∈ items, decode.Restores (encode a) a) :
    Decoder.Restores (list decode) (.array (items.map encode)) items := by
  have hitems : (Document.ofItems (items.map encode)).mapM decode = .ok items := by
    induction items with
    | nil => rfl
    | cons a items ih =>
      obtain ⟨ha, hrest⟩ := List.forall_mem_cons.1 h
      rw [List.map_cons, Document.ofItems, List.mapM_cons, ha, ih hrest]
      rfl
  rw [Decoder.Restores, Document.ofJson, list, hitems]
  rfl

/-- Maps are restored if their values are.

**Proof sketch.** The entries are read one by one, by induction on them, and a map is made from its
own entries again, by `Targeting.Dict.ofList_entries`. -/
lemma restores_dict {encode : α → Json} {values : Dict α}
    (h : ∀ entry ∈ values.entries, decode.Restores (encode entry.2) entry.2) :
    Decoder.Restores (dict decode) (.ofDict encode values) values := by
  have hentries : ∀ entries : List (String × α),
      (∀ entry ∈ entries, decode.Restores (encode entry.2) entry.2) →
      (Document.ofFields (entries.map fun entry => (entry.1, encode entry.2))).mapM
        (entry decode) = .ok entries := by
    intro entries h
    induction entries with
    | nil => rfl
    | cons first entries ih =>
      obtain ⟨hfirst, hrest⟩ := List.forall_mem_cons.1 h
      have hentry : entry decode (some first.1, .ofJson (encode first.2)) = .ok first := by
        rw [entry, hfirst]
        rfl
      rw [List.map_cons, Document.ofFields, List.mapM_cons, hentry, ih hrest]
      rfl
  have hdict : Dict.ofList values.entries = values := Dict.ofList_entries values
  have hread := hentries values.entries h
  rw [Decoder.Restores, ofDict, Document.ofJson, dict]
  refine bind_eq_ok_iff.2 ⟨values.entries, hread, ?_⟩
  exact congrArg Except.ok hdict

end Plain

/-! ## Records -/

/-- A field of a record as it is written: its name and its value, and how the field is put into a
record again. -/
structure Member (α : Type) where
  name : String
  value : Json
  put : α → α

namespace Member

variable {α : Type}

/-- The name and the value of a member. -/
def entry (member : Member α) : String × Json := (member.name, member.value)

/-- Whether a member is what a field reads: its value is stored as the member is put into a
record. -/
def IsReadBy (field : Field α) (member : Member α) : Prop :=
  member.name = field.name ∧ ∀ r, field.store (.ofJson member.value) r = .ok (member.put r)

/-- Whether it does not matter which of two members is put into a record first. -/
def Commutes (p q : Member α) : Prop := ∀ r, p.put (q.put r) = q.put (p.put r)

/-- A member is read by a field whose reader restores it. -/
lemma IsReadBy.of_restores {β : Type} {decode : Decoder β} {value : Json} {b : β}
    (h : decode.Restores value b) (name : String) (required : Bool) (set : β → α → α) :
    IsReadBy ⟨name, required, fun document r => do return set (← decode document) r⟩
      ⟨name, value, set b⟩ := by
  refine ⟨rfl, fun r => ?_⟩
  dsimp only
  rw [h]
  rfl

instance : Std.Symm (@Commutes α) := ⟨fun _ _ h r => (h r).symm⟩

end Member

section Records

variable {α : Type} {fields : List (Field α)} {members : List (Member α)} {initial a : α}

/-- A field is found by its name, if the names of the fields are different. -/
lemma find?_field {field : Field α} (hdistinct : (fields.map (·.name)).Nodup)
    (hmem : field ∈ fields) : fields.find? (·.name = field.name) = some field := by
  induction fields with
  | nil => cases hmem
  | cons first fields ih =>
    obtain ⟨hnotMem, hdistinct⟩ := List.nodup_cons.1 hdistinct
    rcases List.mem_cons.1 hmem with rfl | hmem
    · simp
    · have hne : first.name ≠ field.name := by
        rintro heq
        exact hnotMem (List.mem_map.2 ⟨field, hmem, heq.symm⟩)
      rw [List.find?_cons_of_neg (by simpa using hne), ih hdistinct hmem]

/-- Members that are read one by one have the names of the fields. -/
lemma Member.map_name (h : List.Forall₂ IsReadBy fields members) :
    members.map (·.name) = fields.map (·.name) := by
  induction h with
  | nil => rfl
  | cons hread _ ih => rw [List.map_cons, List.map_cons, hread.1, ih]

/-- Each of the members that are read one by one is read by some field. -/
lemma Member.exists_isReadBy (h : List.Forall₂ IsReadBy fields members) :
    ∀ member ∈ members, ∃ field ∈ fields, IsReadBy field member := by
  induction h with
  | nil => simp
  | cons hread _ ih =>
    refine List.forall_mem_cons.2 ⟨⟨_, List.mem_cons_self, hread⟩, fun member hmember => ?_⟩
    obtain ⟨field, hmem, hfield⟩ := ih member hmember
    exact ⟨field, List.mem_cons_of_mem _ hmem, hfield⟩

/-- An object holds its members in some order. -/
lemma Member.exists_perm (hdistinct : (members.map (·.name)).Nodup) :
    ∃ held : List (Member α), held.Perm members ∧
      Json.ofFields (members.map entry) = .object (held.map entry) := by
  have hkeys : ((members.map entry).map (·.1)).Nodup := by
    rw [List.map_map]
    exact hdistinct
  have hentry : List.Forall₂ (fun entry member => entry = Member.entry member)
      (members.map entry) members :=
    List.forall₂_map_left_iff.2 (List.forall₂_same.2 fun _ _ => rfl)
  obtain ⟨held, hheld, hperm⟩ :=
    List.perm_comp_forall₂ (Dict.perm_entries_ofList hkeys) hentry
  have heq : List.Forall₂ Eq (Dict.ofList (members.map entry)).entries (held.map entry) :=
    List.forall₂_map_right_iff.2 hheld
  rw [List.forall₂_eq_eq_eq] at heq
  exact ⟨held, hperm, congrArg Json.object heq⟩

/-- Members are stored one after the other, in whatever order they stand.

**Proof sketch.** Induction on the members. The field of the first one is found by its name, it was
not seen before, and its name is none of the others, so the rest is stored with one more name seen.
-/
lemma storeNamed_members {seen : List String} (hfields : (fields.map (·.name)).Nodup)
    (hread : ∀ member ∈ members, ∃ field ∈ fields, Member.IsReadBy field member)
    (hdistinct : (members.map (·.name)).Nodup) (hnew : ∀ member ∈ members, member.name ∉ seen)
    (r : α) :
    storeNamed fields seen r (Document.ofFields (members.map Member.entry)) =
      .ok ((members.map (·.name)).reverse ++ seen,
        members.foldl (fun r member => member.put r) r) := by
  induction members generalizing seen r with
  | nil => rfl
  | cons member members ih =>
    obtain ⟨⟨field, hmem, hname, hstore⟩, hread⟩ := List.forall_mem_cons.1 hread
    obtain ⟨hnotMem, hdistinct⟩ := List.nodup_cons.1 hdistinct
    obtain ⟨hmember, hnew⟩ := List.forall_mem_cons.1 hnew
    have hnames : ∀ other ∈ members, other.name ∉ member.name :: seen := by
      intro other hother
      refine List.not_mem_cons_of_ne_of_not_mem (fun heq => ?_) (hnew other hother)
      exact hnotMem (List.mem_map.2 ⟨other, hother, heq⟩)
    have hrest := ih hread hdistinct hnames (member.put r)
    have hfind : fields.find? (·.name = member.name) = some field :=
      hname ▸ find?_field hfields hmem
    rw [List.map_cons, Member.entry, Document.ofFields, storeNamed, hfind]
    simp only [if_neg hmember, hstore]
    simpa [bind, Except.bind] using hrest

/-- **Records are restored.** Let the fields of a record be written one by one, each as it is read,
and let it not matter in which order they are put into the record. Then the record is read back from
the object that they make up.

**Proof sketch.** The members are held in the order of their names, by
`Targeting.Json.Member.exists_perm`, and they are stored in this order, by
`Targeting.Json.storeNamed_members`. Since they commute, the record that results is the same as in
the order in which they are written. All fields are there, so none that is required is missing. -/
theorem restores_record (members : List (Member α))
    (hread : List.Forall₂ Member.IsReadBy fields members)
    (hfields : (fields.map (·.name)).Nodup) (hcommute : members.Pairwise Member.Commutes)
    (hput : members.foldl (fun r member => member.put r) initial = a) :
    Decoder.Restores (record fields initial) (.ofFields (members.map Member.entry)) a := by
  have hnames := Member.map_name hread
  have hdistinct : (members.map (·.name)).Nodup := hnames ▸ hfields
  obtain ⟨held, hperm, hobject⟩ := Member.exists_perm hdistinct
  have hpermNames := hperm.map (·.name)
  have hheld : (held.map (·.name)).Nodup := hpermNames.nodup_iff.2 hdistinct
  have hnew : ∀ member ∈ held, member.name ∉ ([] : List String) := fun _ _ => List.not_mem_nil
  have hstored := storeNamed_members hfields
    (fun member hmember => Member.exists_isReadBy hread member (hperm.subset hmember)) hheld hnew
    initial
  have hfolded : held.foldl (fun r member => member.put r) initial = a := by
    refine Eq.trans (hperm.foldl_eq' (fun p hp q hq r => ?_) initial) hput
    have hcommutes : Member.Commutes p q :=
      hcommute.forall_of_forall (fun _ _ _ => rfl) (hperm.subset hp) (hperm.subset hq)
    exact (hcommutes r).symm
  have hrequired : (fields.any fun field => field.required &&
      decide (field.name ∉ (held.map (·.name)).reverse ++ [])) = false := by
    refine List.any_eq_false.2 fun field hfield => ?_
    have hmem : field.name ∈ held.map (·.name) :=
      hpermNames.mem_iff.2 (hnames ▸ List.mem_map_of_mem hfield)
    simp [hmem]
  rw [Decoder.Restores, hobject, Document.ofJson, record, hstored, hfolded]
  simp only [bind, Except.bind, Ending.close]
  rw [hrequired]
  rfl

end Records

/-! ## What is read -/

/-- Whether all data that a reader takes from documents has a property. -/
def Decoder.Yields {α : Type} (decode : Decoder α) (P : α → Prop) : Prop :=
  ∀ document a, decode document = .ok a → P a

section Yields

variable {α : Type} {decode : Decoder α} {P : α → Prop}

/-- Nothing is said of what a reader yields. -/
lemma Decoder.Yields.trivial (decode : Decoder α) : decode.Yields fun _ => True :=
  fun _ _ _ => .intro

/-- Values are read as documents are. -/
lemma Decoder.Yields.ofValue (h : decode.Yields P) {value : Json} {a : α}
    (hvalue : decode.ofValue value = .ok a) : P a :=
  h _ _ (mapError_eq_ok_iff.1 hvalue)

/-- The results of steps have what each step yields. -/
lemma forall_of_mapM {β : Type} {read : β → Except Flaw α}
    (h : ∀ b a, read b = .ok a → P a) {items : List β} {results : List α}
    (hresults : items.mapM read = .ok results) : ∀ a ∈ results, P a := by
  induction items generalizing results with
  | nil =>
    obtain rfl := Except.ok.inj hresults
    simp
  | cons b items ih =>
    rw [List.mapM_cons] at hresults
    obtain ⟨a, ha, hresults⟩ := bind_eq_ok_iff.1 hresults
    obtain ⟨rest, hrest, hresults⟩ := bind_eq_ok_iff.1 hresults
    obtain rfl := Except.ok.inj hresults
    exact List.forall_mem_cons.2 ⟨h b a ha, ih hrest⟩

/-- The items of a list have what its items yield. -/
lemma yields_list (h : decode.Yields P) : Decoder.Yields (list decode) (∀ a ∈ ·, P a) := by
  intro document values hvalues
  cases document with
  | array items ending =>
    obtain ⟨results, hresults, hvalues⟩ := bind_eq_ok_iff.1 hvalues
    obtain ⟨-, -, hvalues⟩ := bind_eq_ok_iff.1 hvalues
    obtain rfl := Except.ok.inj hvalues
    exact forall_of_mapM h hresults
  | _ => cases hvalues

/-- The values of a map have what its values yield. -/
lemma yields_dict (h : decode.Yields P) :
    Decoder.Yields (dict decode) fun values => ∀ entry ∈ values.entries, P entry.2 := by
  intro document values hvalues
  cases document with
  | object fields ending =>
    obtain ⟨entries, hentries, hvalues⟩ := bind_eq_ok_iff.1 hvalues
    obtain ⟨-, -, hvalues⟩ := bind_eq_ok_iff.1 hvalues
    obtain rfl := Except.ok.inj hvalues
    have hread : ∀ field result, entry decode field = .ok result → P result.2 := by
      rintro ⟨_ | name, value⟩ result hresult
      · cases hresult
      · obtain ⟨a, ha, rfl⟩ := map_eq_ok_iff.1 hresult
        exact h _ _ ha
    intro entry hentry
    exact forall_of_mapM (P := fun result => P result.2) hread hentries entry
      (Dict.mem_of_mem_entries_ofList hentry)
  | _ => cases hvalues

variable {fields : List (Field α)}

/-- Whether a record still has a property after a field is stored. -/
def Field.Keeps (field : Field α) (P : α → Prop) : Prop :=
  ∀ document r r', P r → field.store document r = .ok r' → P r'

/-- A field keeps what every value does that its reader yields. -/
lemma Field.keeps_of_yields {β : Type} {decode : Decoder β} {Q : β → Prop} (h : decode.Yields Q)
    {name : String} {required : Bool} {set : β → α → α} (hset : ∀ b r, Q b → P r → P (set b r)) :
    Field.Keeps ⟨name, required, fun document r => do return set (← decode document) r⟩ P := by
  intro document r r' hr hstored
  obtain ⟨b, hb, hstored⟩ := bind_eq_ok_iff.1 hstored
  obtain rfl := Except.ok.inj hstored
  exact hset b r (h document b hb) hr

/-- Whether all fields of a record keep a property of it. -/
def Preserve (fields : List (Field α)) (P : α → Prop) : Prop := ∀ field ∈ fields, field.Keeps P

/-- What each field preserves holds of a record that is read from an object.

**Proof sketch.** Induction on the members. One without a field is skipped, and one with a field
preserves the property. -/
lemma Preserve.storeNamed (h : Preserve fields P) {members : List (Option String × Document)}
    {seen names : List String} {r r' : α} (hr : P r)
    (hresult : storeNamed fields seen r members = .ok (names, r')) : P r' := by
  induction members generalizing seen r with
  | nil =>
    obtain ⟨-, rfl⟩ := Prod.mk.inj (Except.ok.inj hresult)
    exact hr
  | cons member members ih =>
    obtain ⟨_ | name, value⟩ := member
    · cases hresult
    · rw [Json.storeNamed] at hresult
      cases hfind : fields.find? (·.name = name) with
      | none =>
        rw [hfind] at hresult
        obtain ⟨-, -, hresult⟩ := bind_eq_ok_iff.1 hresult
        exact ih hr hresult
      | some field =>
        rw [hfind] at hresult
        dsimp only at hresult
        split_ifs at hresult
        obtain ⟨stored, hstored, hresult⟩ := bind_eq_ok_iff.1 hresult
        exact ih (h field (List.mem_of_find?_eq_some hfind) value r stored hr hstored) hresult

/-- What each field preserves holds of a record that is read from an array.

**Proof sketch.** Induction on the fields, along with the items. Where the items end, the rest of
the fields are left as they are. -/
lemma Preserve.storeInOrder (h : Preserve fields P) {ending : Ending} {items : List Document}
    {r r' : α} (hr : P r) (hresult : storeInOrder ending fields r items = .ok r') : P r' := by
  induction fields generalizing items r with
  | nil =>
    cases items with
    | nil =>
      obtain ⟨-, -, hresult⟩ := bind_eq_ok_iff.1 hresult
      obtain rfl := Except.ok.inj hresult
      exact hr
    | cons => cases hresult
  | cons field fields ih =>
    cases items with
    | nil =>
      obtain ⟨-, -, hresult⟩ := bind_eq_ok_iff.1 hresult
      split_ifs at hresult
      obtain rfl := Except.ok.inj hresult
      exact hr
    | cons item items =>
      obtain ⟨hfield, hfields⟩ := List.forall_mem_cons.1 h
      obtain ⟨stored, hstored, hresult⟩ := bind_eq_ok_iff.1 hresult
      exact ih hfields (hfield item r stored hr hstored) hresult

/-- **Records keep what their fields preserve**, whether they are read from objects or from arrays,
with all fields there or some of them absent. -/
theorem yields_record {initial : α} (h : Preserve fields P) (hinitial : P initial) :
    Decoder.Yields (record fields initial) P := by
  intro document a ha
  cases document with
  | object members ending =>
    obtain ⟨⟨names, r⟩, hstored, ha⟩ := bind_eq_ok_iff.1 ha
    obtain ⟨-, -, ha⟩ := bind_eq_ok_iff.1 ha
    split_ifs at ha
    obtain rfl := Except.ok.inj ha
    exact h.storeNamed hinitial hstored
  | array items ending => exact h.storeInOrder hinitial ha
  | _ => cases ha

end Yields

end Targeting.Json
