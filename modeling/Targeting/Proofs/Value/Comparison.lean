import Mathlib.Tactic.Lemma
import Targeting.Value.Comparison

/-!
# Laws of comparison

The four comparison operators agree with each other. Single values, that is texts and truth values,
are equal if they are the same after a text that spells a truth value has become one; so equality is
an equivalence on them, and equal values start and end with each other. A set compared with a text
is asked about its items one by one: what one of them satisfies is true of every larger set.

The empty text is an exception: a set that has it equals it, but the operators for the start and the
end pass over empty items.

## Main definitions

* `Targeting.Value.Holds` — a comparison that is true.
* `Targeting.Value.IsSingle` — texts and truth values.
* `Targeting.Value.Comparable` — two values to which all comparisons apply.
* `Targeting.Operator.Fits` — what a comparison asks of an item of a set.

## Main results

* `Targeting.Value.compare?_notEqual` — inequality is the negation of equality on all values.
* `Targeting.Value.compare?_comm` — both take their operands in any order.
* `Targeting.Value.holds_equal_iff` — when single values are equal.
* `Targeting.Value.holds_set_iff` — a set is compared item by item.
* `Targeting.Value.comparisons_agree` — the laws together.
-/

set_option autoImplicit false

namespace Targeting

/-- A text starts with itself. -/
lemma startsWith_self (text : String) : startsWith text text = true :=
  List.isPrefixOf_iff_prefix.2 (List.prefix_refl text.toList)

/-- A text ends with itself. -/
lemma endsWith_self (text : String) : endsWith text text = true :=
  List.isSuffixOf_iff_suffix.2 (List.suffix_refl text.toList)

/-- What a comparison asks of an item of a set, where one item has to satisfy it. -/
def Operator.Fits (op : Operator) (item text : String) : Prop :=
  match op with
  | equal => item = text
  | startsWith => item ≠ "" ∧ Targeting.startsWith item text = true
  | endsWith => item ≠ "" ∧ Targeting.endsWith item text = true
  | notEqual | and | or => False

namespace Value

/-- Whether a comparison applies to two values and is true. -/
def Holds (op : Operator) (subject other : Value) : Prop := compare? op subject other = some true

instance (op : Operator) (subject other : Value) : Decidable (Holds op subject other) :=
  inferInstanceAs (Decidable (compare? op subject other = some true))

/-- Whether a value is a text or a truth value. -/
def IsSingle : Value → Prop
  | text _ | truth _ => True
  | set _ => False

/-- Whether every comparison applies to two values, and inequality is the negation of equality. -/
structure Comparable (subject other : Value) : Prop where
  applies : ∀ op : Operator, op.isComparison = true → (compare? op subject other).isSome = true
  notEqual : compare? .notEqual subject other = (compare? .equal subject other).map (!·)

/-- Inequality of two values is the negation of their equality, where they can be compared. -/
theorem compare?_notEqual (a b : Value) :
    compare? .notEqual a b = (compare? .equal a b).map (!·) := by
  have hscalar : ∀ a b : Scalar,
      Scalar.compare? .notEqual a b = (Scalar.compare? .equal a b).map (!·) := by
    intro a b
    simp [Scalar.compare?]
  cases a <;> cases b <;> simp [compare?, scalar?, hscalar]

/-- Equality and inequality take their operands in any order. -/
theorem compare?_comm {op : Operator} (hop : op = .equal ∨ op = .notEqual) (a b : Value) :
    compare? op a b = compare? op b a := by
  have hequal : compare? .equal a b = compare? .equal b a := by
    cases a <;> cases b <;> simp [compare?, scalar?, Scalar.compare?, eq_comm]
  rcases hop with rfl | rfl
  · exact hequal
  · rw [compare?_notEqual, compare?_notEqual, hequal]

/-- Every comparison of a value with a text applies. -/
lemma isSome_compare?_text {op : Operator} (hop : op.isComparison = true) (subject : Value)
    (s : String) : (compare? op subject (text s)).isSome = true := by
  cases op <;> first | cases subject <;> rfl | cases hop

/-! ## Single values -/

section Single

variable {a b : Value}

/-- Single values are compared as such. -/
lemma compare?_of_scalar? {x y : Scalar} (ha : a.scalar? = some x) (hb : b.scalar? = some y)
    (op : Operator) : compare? op a b = Scalar.compare? op x y := by
  have hvalues : compare? op a b =
      a.scalar?.bind fun x => b.scalar?.bind fun y => Scalar.compare? op x y := by
    cases a with
    | text | truth =>
      cases b with
      | text | truth => rfl
      | set items => cases hb
    | set items => cases ha
  rw [hvalues, ha, hb]
  rfl

/-- A text or truth value has a single value. -/
lemma IsSingle.exists_scalar (h : a.IsSingle) : ∃ x, a.scalar? = some x := by
  cases a with
  | text s => exact ⟨_, rfl⟩
  | truth b => exact ⟨_, rfl⟩
  | set items => exact absurd h id

/-- Single values are equal exactly when they are the same, a text counting as the truth value that
it spells. -/
theorem holds_equal_iff (ha : a.IsSingle) (hb : b.IsSingle) :
    Holds .equal a b ↔ a.scalar? = b.scalar? := by
  obtain ⟨x, hx⟩ := ha.exists_scalar
  obtain ⟨y, hy⟩ := hb.exists_scalar
  rw [Holds, compare?_of_scalar? hx hy, hx, hy]
  simp [Scalar.compare?]

/-- Single values that are equal start and end with each other. -/
lemma Holds.startsWith_endsWith (ha : a.IsSingle) (hb : b.IsSingle) (h : Holds .equal a b) :
    Holds .startsWith a b ∧ Holds .endsWith a b := by
  obtain ⟨x, hx⟩ := ha.exists_scalar
  have hy : b.scalar? = some x := ((holds_equal_iff ha hb).1 h).symm.trans hx
  constructor
  · rw [Holds, compare?_of_scalar? hx hy]
    exact congrArg some (startsWith_self x.toText)
  · rw [Holds, compare?_of_scalar? hx hy]
    exact congrArg some (endsWith_self x.toText)

/-- Equality is an equivalence on single values. -/
lemma equivalence_holds_equal :
    Equivalence fun a b : { value : Value // value.IsSingle } => Holds .equal a.1 b.1 where
  refl a := (holds_equal_iff a.2 a.2).2 rfl
  symm {a b} h := by
    have heq := (holds_equal_iff a.2 b.2).1 h
    exact (holds_equal_iff b.2 a.2).2 heq.symm
  trans {a b c} hab hbc := by
    have hfirst := (holds_equal_iff a.2 b.2).1 hab
    have hsecond := (holds_equal_iff b.2 c.2).1 hbc
    exact (holds_equal_iff a.2 c.2).2 (hfirst.trans hsecond)

/-- All comparisons apply to single values. -/
lemma IsSingle.comparable (ha : a.IsSingle) (hb : b.IsSingle) : Comparable a b := by
  obtain ⟨x, hx⟩ := ha.exists_scalar
  obtain ⟨y, hy⟩ := hb.exists_scalar
  refine ⟨fun op hop => ?_, compare?_notEqual a b⟩
  rw [compare?_of_scalar? hx hy]
  cases op with
  | equal | notEqual | startsWith | endsWith => rfl
  | and | or => cases hop

end Single

/-! ## Sets -/

section Sets

variable {items more : NameSet} {s : String} {op : Operator}

/-- A set is compared with a text item by item, but for inequality. -/
theorem holds_set_iff (hop : op ≠ .notEqual) :
    Holds op (set items) (text s) ↔ ∃ item ∈ items, op.Fits item s := by
  cases op with
  | notEqual => exact absurd rfl hop
  | and | or =>
    refine iff_of_false (fun h => nomatch h) ?_
    rintro ⟨item, -, hfits⟩
    exact hfits
  | equal =>
    change some (items.contains s) = some true ↔ _
    simp [Operator.Fits]
  | startsWith | endsWith =>
    change some (items.toList.any _) = some true ↔ _
    simp [Operator.Fits]

/-- What is true of a set is true of a larger one, but for inequality. -/
lemma Holds.mono (hop : op ≠ .notEqual) (hmore : ∀ item ∈ items, item ∈ more)
    (h : Holds op (set items) (text s)) : Holds op (set more) (text s) := by
  obtain ⟨item, hitem, hfits⟩ := (holds_set_iff hop).1 h
  exact (holds_set_iff hop).2 ⟨item, hmore item hitem, hfits⟩

/-- A set that has a text which is not empty has an item that starts and ends with it. -/
lemma Holds.set_startsWith_endsWith (hs : s ≠ "") (h : Holds .equal (set items) (text s)) :
    Holds .startsWith (set items) (text s) ∧ Holds .endsWith (set items) (text s) := by
  obtain ⟨item, hitem, rfl⟩ := (holds_set_iff (by decide)).1 h
  constructor
  · exact (holds_set_iff (by decide)).2 ⟨item, hitem, hs, startsWith_self item⟩
  · exact (holds_set_iff (by decide)).2 ⟨item, hitem, hs, endsWith_self item⟩

/-- The empty text is passed over: a set that has it equals it and has no item that starts with
it. -/
example : compare? .equal (set (.ofList [""])) (text "") = some true ∧
    compare? .startsWith (set (.ofList [""])) (text "") = some false := by decide

/-- All comparisons of a set with a text apply. -/
lemma comparable_set (items : NameSet) (s : String) : Comparable (set items) (text s) :=
  ⟨fun _ hop => isSome_compare?_text hop (set items) s, compare?_notEqual _ _⟩

end Sets

/-! ## The laws -/

/-- **The comparisons agree.** All of them apply to two single values and to a set and a text, and
inequality is the negation of equality. On single values equality is an equivalence, and equal
values start and end with each other. So does a set that has a text which is not empty. What is
true of a set, inequality apart, remains true if items are added.

**Proof sketch.** The laws are lemmas on their own: single values compare by their text forms, which
makes equality an equivalence, and a set compares with a text if one of its items does, which more
items do not change. Inequality is left out there, being the negation. -/
theorem comparisons_agree :
    (∀ a b : Value, a.IsSingle → b.IsSingle → Comparable a b ∧
        (Holds .equal a b → Holds .startsWith a b ∧ Holds .endsWith a b)) ∧
      (Equivalence fun a b : { value : Value // value.IsSingle } => Holds .equal a.1 b.1) ∧
      ∀ (items : NameSet) (s : String), Comparable (set items) (text s) ∧
        (s ≠ "" → Holds .equal (set items) (text s) →
          Holds .startsWith (set items) (text s) ∧ Holds .endsWith (set items) (text s)) ∧
        ∀ more : NameSet, (∀ item ∈ items, item ∈ more) →
          ∀ op ∈ [Operator.equal, .startsWith, .endsWith],
            Holds op (set items) (text s) → Holds op (set more) (text s) := by
  refine ⟨?_, equivalence_holds_equal, ?_⟩
  · intro a b ha hb
    exact ⟨ha.comparable hb, Holds.startsWith_endsWith ha hb⟩
  · intro items s
    refine ⟨comparable_set items s, Holds.set_startsWith_endsWith, ?_⟩
    intro more hmore op hop
    have hne : op ≠ .notEqual := by
      rintro rfl
      simp at hop
    exact Holds.mono hne hmore

/-- A text in capitals, the truth value that it spells, and the other one; and two sets of which one
has more items, and a text that is an item of this one only.

**Proof sketch.** Which of the comparisons are true and which are false is decided for one of each
kind. The theorem has the others from these: the beginning and the end of equal values, the other
direction, the inequality, and the set with one more item. -/
theorem comparisons_agree_capitals :
    (Holds .equal (text "TRUE") (truth true) ∧ Holds .startsWith (text "TRUE") (truth true) ∧
        Holds .equal (truth true) (text "TRUE")) ∧
      (compare? .equal (text "TRUE") (truth false) = some false ∧
        Holds .notEqual (text "TRUE") (truth false)) ∧
      (Holds .equal (set (.ofList ["", "Canada"])) (text "Canada") ∧
        Holds .endsWith (set (.ofList ["", "Canada"])) (text "Canada") ∧
        ¬ Holds .endsWith (set (.ofList ["", "Canada"])) (text "Peru")) ∧
      (∀ item ∈ NameSet.ofList ["", "Canada"], item ∈ NameSet.ofList ["", "Canada", "Peru"]) ∧
      Holds .endsWith (set (.ofList ["", "Canada", "Peru"])) (text "Canada") ∧
      Holds .endsWith (set (.ofList ["", "Canada", "Peru"])) (text "Peru") := by
  obtain ⟨hsingle, hequivalence, hsets⟩ := comparisons_agree
  have htext : (text "TRUE").IsSingle := trivial
  have htruth : ∀ b, (truth b).IsSingle := fun _ => trivial
  have hequal : Holds .equal (text "TRUE") (truth true) := by decide
  have hdistinct : compare? .equal (text "TRUE") (truth false) = some false := by decide
  have hnotEqual : Holds .notEqual (text "TRUE") (truth false) := by
    rw [Holds, (hsingle _ _ htext (htruth false)).1.notEqual, hdistinct]
    rfl
  have hset : Holds .equal (set (.ofList ["", "Canada"])) (text "Canada") := by decide
  have hmore : ∀ item ∈ NameSet.ofList ["", "Canada"],
      item ∈ NameSet.ofList ["", "Canada", "Peru"] := by simp
  obtain ⟨-, hends, hgrow⟩ := hsets (.ofList ["", "Canada"]) "Canada"
  have hfirst := hends (by decide) hset
  have hsymm : Holds .equal (truth true) (text "TRUE") :=
    hequivalence.symm (x := ⟨_, htext⟩) (y := ⟨_, htruth true⟩) hequal
  exact ⟨⟨hequal, ((hsingle _ _ htext (htruth true)).2 hequal).1, hsymm⟩, ⟨hdistinct, hnotEqual⟩,
    ⟨hset, hfirst.2, by decide⟩, hmore, hgrow _ hmore _ (by decide) hfirst.2, by decide⟩

end Value

end Targeting
