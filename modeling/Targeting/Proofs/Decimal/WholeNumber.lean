import Mathlib.Data.List.Basic
import Mathlib.Tactic.Lemma
import Targeting.Decimal.Digits

/-!
# The texts of whole numbers

A whole number is written in one way and read in many: with zeros in front, with a plus sign, and
zero with a minus sign. A text that is read and written again is the same text only if it has none
of these.

## Main definitions

* `Targeting.IsShortest` — the texts without them.

## Main results

* `Targeting.digitsOf_readDigits_iff` — digits that are read and written again.
* `Targeting.toString_integer?_iff` — whole numbers that are read and written again.
-/

set_option autoImplicit false

namespace Targeting

/-! ## Digits -/

/-- The decimal digits are the characters from 48 to 57. -/
lemma toNat_of_isDigit {c : Char} (h : c.isDigit = true) : 48 ≤ c.toNat ∧ c.toNat ≤ 57 := by
  simpa [Char.isDigit, UInt32.le_iff_toNat_le] using h

/-- A decimal digit is the digit of its value. -/
lemma digitsOf_digitValue {c : Char} (h : c.isDigit = true) : digitsOf (digitValue c) = [c] := by
  have hbounds := toNat_of_isDigit h
  rw [digitsOf, digitValue, Nat.toDigits_of_lt_base (by omega), List.singleton_inj,
    ← Char.toNat_inj, Nat.toNat_digitChar_of_lt_ten (by omega)]
  omega

/-- Digits that are read after a positive number are written after it. -/
lemma digitsOf_foldl {digits : List Char} (hdigits : ∀ c ∈ digits, c.isDigit = true) {n : Nat}
    (hn : 0 < n) :
    digitsOf (digits.foldl (fun n c => n * 10 + digitValue c) n) = digitsOf n ++ digits := by
  induction digits generalizing n with
  | nil => simp
  | cons c digits ih =>
    obtain ⟨hc, hrest⟩ := List.forall_mem_cons.1 hdigits
    have hvalue : digitValue c < 10 := by
      have hbounds := toNat_of_isDigit hc
      unfold digitValue
      omega
    have hnext : digitsOf (n * 10 + digitValue c) = digitsOf n ++ [c] := by
      rw [← digitsOf_digitValue hc, Nat.mul_comm]
      exact (Nat.toDigits_append_toDigits (by decide) hn hvalue).symm
    rw [List.foldl_cons, ih hrest (by omega), hnext, List.append_assoc, List.singleton_append]

/-- A positive number is written without a zero in front. -/
lemma head?_digitsOf_ne_zero {n : Nat} (hn : 0 < n) : (digitsOf n).head? ≠ some '0' := by
  induction n using Nat.strongRecOn with
  | ind n ih =>
    rw [digitsOf, Nat.toDigits_eq_if (by decide)]
    split
    · rename_i hless
      have hvalue := Nat.toNat_digitChar_of_lt_ten hless
      intro hzero
      rw [List.head?_cons, Option.some.injEq] at hzero
      rw [hzero, show '0'.toNat = 48 from rfl] at hvalue
      omega
    · rw [List.head?_append_of_ne_nil _ Nat.toDigits_ne_nil]
      exact ih (n / 10) (by omega) (by omega)

/-- **Digits that are read and written again** are the same if there is no zero in front of
another digit.

**Proof sketch.** The digits of a positive number do not begin with zero, so digits that come back
as they were have no zero in front. The other way round, digits that begin with a positive one are
written one after the other, by `Targeting.digitsOf_foldl`. -/
theorem digitsOf_readDigits_iff {digits : List Char} {n : Nat} (h : natural? digits = some n) :
    digitsOf n = digits ↔ digits = ['0'] ∨ digits.head? ≠ some '0' := by
  simp only [natural?, Option.ite_none_left_eq_some, Bool.or_eq_true, not_or, Bool.not_eq_true',
    Bool.not_eq_false, List.isEmpty_iff, List.all_eq_true, Option.some.injEq] at h
  obtain ⟨⟨hne, hdigits⟩, rfl⟩ := h
  constructor
  · intro hsame
    rcases Nat.eq_zero_or_pos (readDigits digits) with hzero | hpos
    · rw [hzero] at hsame
      exact .inl hsame.symm
    · rw [← hsame]
      exact .inr (head?_digitsOf_ne_zero hpos)
  · rintro (rfl | hhead)
    · decide
    · obtain ⟨c, rest, rfl⟩ := List.exists_cons_of_ne_nil hne
      obtain ⟨hc, hrest⟩ := List.forall_mem_cons.1 hdigits
      have hbounds := toNat_of_isDigit hc
      have hpos : 0 < digitValue c := by
        have hzero : c.toNat ≠ '0'.toNat := fun h => hhead (by rw [Char.toNat_inj.1 h]; rfl)
        rw [show '0'.toNat = 48 from rfl] at hzero
        unfold digitValue
        omega
      rw [readDigits, List.foldl_cons, Nat.zero_mul, Nat.zero_add, digitsOf_foldl hrest hpos,
        digitsOf_digitValue hc, List.singleton_append]

/-! ## Signs -/

/-- Whether a whole number is written with no more characters than it takes: with no plus sign, no
zero in front of another digit, and no sign in front of zero. -/
def IsShortest (text : List Char) : Prop :=
  text = ['0'] ∨ text.head? ≠ some '+' ∧ (splitSign text).2.head? ≠ some '0'

instance : DecidablePred IsShortest :=
  fun text => inferInstanceAs (Decidable (text = ['0'] ∨ _))

/-- A number with a plus sign or none is written with its digits. -/
lemma toString_withSign_false (n : Nat) :
    toString (withSign false n) = String.ofList (digitsOf n) :=
  Nat.toString_eq_ofList_toDigits

/-- A number below zero is written with a minus sign and the digits of its amount. -/
lemma toString_withSign_true {n : Nat} (hn : 0 < n) :
    toString (withSign true n) = String.ofList ('-' :: digitsOf n) := by
  cases n with
  | zero => omega
  | succ n =>
    change "-" ++ toString (n + 1) = _
    rw [Nat.toString_eq_ofList_toDigits]
    exact String.ofList_append.symm

/-- A text starts with a plus sign, with a minus sign or with no sign. -/
lemma splitSign_cases (text : List Char) :
    (∃ digits, text = '+' :: digits ∧ splitSign text = (false, digits)) ∨
      (∃ digits, text = '-' :: digits ∧ splitSign text = (true, digits)) ∨
      text.head? ≠ some '+' ∧ splitSign text = (false, text) := by
  unfold splitSign
  split
  · exact .inl ⟨_, rfl, rfl⟩
  · exact .inr (.inl ⟨_, rfl, rfl⟩)
  · rename_i hplus _
    refine .inr (.inr ⟨fun hhead => ?_, rfl⟩)
    obtain ⟨rest, rfl⟩ := List.head?_eq_some_iff.1 hhead
    exact hplus rest rfl

/-- A whole number is a sign and a natural number. -/
lemma integer?_eq_some_iff {text : List Char} {n : Int} :
    integer? text = some n ↔
      ∃ m, natural? (splitSign text).2 = some m ∧ withSign (splitSign text).1 m = n :=
  Option.map_eq_some_iff

/-- **A whole number that is read and written again** has the same text exactly if that was the
shortest one.

**Proof sketch.** By cases on the sign. A plus sign is never written. After a minus sign the number
is written with its sign unless it is zero, and without a sign it is written as its digits; in both
cases the digits come back by `Targeting.digitsOf_readDigits_iff`. -/
theorem toString_integer?_iff {text : List Char} {n : Int} (h : integer? text = some n) :
    toString n = String.ofList text ↔ IsShortest text := by
  obtain ⟨m, hm, rfl⟩ := integer?_eq_some_iff.1 h
  have hdigits := digitsOf_readDigits_iff hm
  rcases splitSign_cases text with ⟨digits, rfl, hsplit⟩ | ⟨digits, rfl, hsplit⟩ | ⟨hplus, hsplit⟩
  · -- a plus sign is not written
    rw [hsplit, toString_withSign_false, String.ofList_inj]
    refine iff_of_false (fun hsame => ?_) (by simp [IsShortest])
    have hplus : '+' ∈ digitsOf m := hsame ▸ List.mem_cons_self
    exact absurd (Nat.isDigit_of_mem_toDigits (by decide) (by decide) hplus) (by decide)
  · rw [hsplit] at hdigits hm ⊢
    have hshortest : IsShortest ('-' :: digits) ↔ digits.head? ≠ some '0' := by
      simp [IsShortest, hsplit]
    rw [hshortest]
    rcases Nat.eq_zero_or_pos m with rfl | hpos
    · -- zero has no sign
      refine iff_of_false (fun hsame => ?_) (fun hhead => ?_)
      · have hminus : ['0'] = '-' :: digits := String.ofList_inj.1 hsame
        simp at hminus
      · have hzero : ['0'] = digits := hdigits.2 (.inr hhead)
        exact hhead (hzero ▸ rfl)
    · have hne : digits ≠ ['0'] := by
        rintro rfl
        exact Nat.ne_of_gt hpos (Option.some.inj hm).symm
      rw [toString_withSign_true hpos, String.ofList_inj, List.cons.injEq, hdigits]
      simp [hne]
  · -- without a sign the number is written as its digits
    rw [hsplit] at hdigits ⊢
    rw [toString_withSign_false, String.ofList_inj, hdigits, IsShortest, hsplit]
    simp only [hplus, ne_eq, not_false_eq_true, true_and]

end Targeting
