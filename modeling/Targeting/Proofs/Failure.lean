import Mathlib.Data.List.Forall2
import Mathlib.Tactic.Lemma
import Targeting.Rule.Fault

/-!
# Computations that can fail

How a computation in steps succeeds or fails: a sequence of two steps succeeds exactly when both do,
and fails with the error of the first step that does. Two computations are compared by what the one
makes of the other: results that correspond, the same error, or an error that the second one alone
may have.

## Main definitions

* `Targeting.FailsOnlyWith` — all errors of a computation have a property.
* `Targeting.Ensures` — so do its results.
* `Targeting.Follows` — a computation does as another one does, or has an error that is excused.
* `Targeting.Matches` — two computations have results that correspond, or errors that do.

## Main results

* `Targeting.bind_eq_ok_iff`, `Targeting.bind_eq_error_iff` — the outcomes of two steps in sequence.
* `Targeting.Ensures.bind`, `Targeting.Ensures.foldlM` — what steps in sequence ensure.
* `Targeting.Follows.bind` — two steps in sequence follow two others if each step follows the other.
* `Targeting.Matches.bind`, `Targeting.Matches.foldlM` — steps in sequence match if each step does.
-/

set_option autoImplicit false

namespace Targeting

universe u v w

variable {ε : Type u} {α β α' β' : Type v}

/-- Two steps in sequence succeed exactly when the first one does and the second one on its
result. -/
lemma bind_eq_ok_iff {x : Except ε α} {f : α → Except ε β} {b : β} :
    x >>= f = .ok b ↔ ∃ a, x = .ok a ∧ f a = .ok b := by
  cases x <;> simp [bind, Except.bind]

/-- Two steps in sequence fail exactly when the first one does or the second one on its result. -/
lemma bind_eq_error_iff {x : Except ε α} {f : α → Except ε β} {error : ε} :
    x >>= f = .error error ↔ x = .error error ∨ ∃ a, x = .ok a ∧ f a = .error error := by
  cases x <;> simp [bind, Except.bind]

/-- A mapped step succeeds exactly when the step does. -/
lemma map_eq_ok_iff {x : Except ε α} {f : α → β} {b : β} :
    x.map f = .ok b ↔ ∃ a, x = .ok a ∧ f a = b := by
  cases x <;> simp [Except.map]

/-- A mapped step fails exactly when the step does. -/
lemma map_eq_error_iff {x : Except ε α} {f : α → β} {error : ε} :
    x.map f = .error error ↔ x = .error error := by
  cases x <;> simp [Except.map]

/-- A step succeeds whatever becomes of its errors. -/
lemma mapError_eq_ok_iff {ε' : Type u} {x : Except ε α} {f : ε → ε'} {a : α} :
    x.mapError f = .ok a ↔ x = .ok a := by
  cases x with
  | error error => exact iff_of_false (fun h => nomatch h) (fun h => nomatch h)
  | ok b =>
    constructor
    · intro h
      rw [Except.ok.inj h]
    · intro h
      rw [Except.ok.inj h]
      rfl

/-- A step with mapped errors fails exactly when the step does. -/
lemma mapError_eq_error_iff {ε' : Type u} {x : Except ε α} {f : ε → ε'} {error : ε'} :
    x.mapError f = .error error ↔ ∃ e, x = .error e ∧ f e = error := by
  cases x with
  | ok a => exact iff_of_false (fun h => nomatch h) (fun ⟨_, h, _⟩ => nomatch h)
  | error e =>
    constructor
    · intro h
      exact ⟨e, rfl, Except.error.inj h⟩
    · rintro ⟨_, ⟨⟩, rfl⟩
      rfl

/-- What a mapped step results in. -/
lemma toOption_map (x : Except ε α) (f : α → β) : (x.map f).toOption = x.toOption.map f := by
  cases x <;> rfl

/-- A computation has a result exactly when it has none of its errors. -/
lemma isSome_toOption_iff {x : Except ε α} : x.toOption.isSome = true ↔ x.isOk = true := by
  cases x <;> rfl

/-- The result of a computation whose errors are left out. -/
lemma toOption_eq_some_iff {x : Except ε α} {a : α} : x.toOption = some a ↔ x = .ok a := by
  cases x <;> simp [Except.toOption]

/-- A sequence of steps fails exactly when one of them does, after all those in front of it have
succeeded.

**Proof sketch.** Induction on the items. Either the first step fails, and nothing is in front of
it, or it succeeds and a later one fails from where it left. -/
lemma foldlM_eq_error_iff {γ : Type w} {f : α → γ → Except ε α} {items : List γ} {a : α}
    {error : ε} :
    items.foldlM f a = .error error ↔ ∃ before item behind a', items = before ++ item :: behind ∧
      before.foldlM f a = .ok a' ∧ f a' item = .error error := by
  induction items generalizing a with
  | nil =>
    refine iff_of_false (fun h => nomatch h) ?_
    rintro ⟨before, item, behind, -, hitems, -⟩
    exact List.append_ne_nil_of_right_ne_nil before (List.cons_ne_nil item behind) hitems.symm
  | cons item items ih =>
    rw [List.foldlM_cons, bind_eq_error_iff]
    constructor
    · rintro (hitem | ⟨next, hnext, hitems⟩)
      · exact ⟨[], item, items, a, rfl, rfl, hitem⟩
      · obtain ⟨before, failing, behind, a', rfl, hbefore, hfails⟩ := ih.1 hitems
        refine ⟨item :: before, failing, behind, a', rfl, ?_, hfails⟩
        rw [List.foldlM_cons]
        exact bind_eq_ok_iff.2 ⟨next, hnext, hbefore⟩
    · rintro ⟨before, failing, behind, a', hitems, hbefore, hfails⟩
      cases before with
      | nil =>
        obtain ⟨rfl, rfl⟩ := List.cons.inj hitems
        obtain rfl : a = a' := Except.ok.inj hbefore
        exact .inl hfails
      | cons first before =>
        obtain ⟨rfl, rfl⟩ := List.cons.inj hitems
        rw [List.foldlM_cons] at hbefore
        obtain ⟨next, hnext, hbefore⟩ := bind_eq_ok_iff.1 hbefore
        exact .inr ⟨next, hnext, ih.2 ⟨before, failing, behind, a', rfl, hbefore, hfails⟩⟩

/-! ## The errors of a computation -/

/-- Whether all errors of a computation have a property. -/
def FailsOnlyWith (P : ε → Prop) (x : Except ε α) : Prop := ∀ error, x = .error error → P error

namespace FailsOnlyWith

variable {P : ε → Prop}

/-- A result is no error. -/
lemma ok (a : α) : FailsOnlyWith P (.ok a) := fun _ h => nomatch h

/-- An error with the property is the only one. -/
lemma error {error : ε} (h : P error) : FailsOnlyWith P (.error error : Except ε α) := by
  rintro _ ⟨⟩
  exact h

/-- Two steps in sequence have only errors that one of them has. -/
lemma bind {x : Except ε α} {f : α → Except ε β} (h : FailsOnlyWith P x)
    (hf : ∀ a, FailsOnlyWith P (f a)) : FailsOnlyWith P (x >>= f) := by
  intro error herror
  rcases bind_eq_error_iff.1 herror with hx | ⟨a, -, ha⟩
  · exact h error hx
  · exact hf a error ha

/-- A sequence of steps has only errors that one of them has. -/
lemma foldlM {γ : Type w} {f : α → γ → Except ε α} (h : ∀ a item, FailsOnlyWith P (f a item))
    (items : List γ) (a : α) : FailsOnlyWith P (items.foldlM f a) := by
  induction items generalizing a with
  | nil => exact .ok a
  | cons item items ih =>
    rw [List.foldlM_cons]
    exact (h a item).bind ih

end FailsOnlyWith

/-! ## The results of a computation -/

/-- Whether a computation has a result with a property, or an error with another one. -/
inductive Ensures (P : ε → Prop) (Q : α → Prop) : Except ε α → Prop
  | ok {a : α} : Q a → Ensures P Q (.ok a)
  | error {error : ε} : P error → Ensures P Q (.error error)

namespace Ensures

variable {P : ε → Prop} {Q : α → Prop} {R : β → Prop}

/-- The errors of a computation are as ensured. -/
lemma failsOnlyWith {x : Except ε α} (h : Ensures P Q x) : FailsOnlyWith P x := by
  rintro error rfl
  cases h with
  | error herror => exact herror

/-- The result of a computation is as ensured. -/
lemma of_eq_ok {x : Except ε α} {a : α} (h : Ensures P Q x) (hx : x = .ok a) : Q a := by
  subst hx
  cases h with
  | ok ha => exact ha

/-- Two steps in sequence ensure what the second one does on results of the first one. -/
lemma bind {x : Except ε α} {f : α → Except ε β} (h : Ensures P Q x)
    (hf : ∀ a, Q a → Ensures P R (f a)) : Ensures P R (x >>= f) := by
  cases h with
  | ok ha => exact hf _ ha
  | error herror => exact .error herror

/-- A sequence of steps ensures what each of them preserves. -/
lemma foldlM {γ : Type w} {f : α → γ → Except ε α} {items : List γ}
    (h : ∀ item ∈ items, ∀ a, Q a → Ensures P Q (f a item)) {a : α} (ha : Q a) :
    Ensures P Q (items.foldlM f a) := by
  induction items generalizing a with
  | nil => exact .ok ha
  | cons item items ih =>
    obtain ⟨hitem, hitems⟩ := List.forall_mem_cons.1 h
    rw [List.foldlM_cons]
    exact (hitem a ha).bind fun _ hnext => ih hitems hnext

end Ensures

/-! ## One computation after the other -/

/-- Whether the second computation follows the first one: both have results, which correspond, or
both have the same error, or the second one has an error that is excused, whatever the first one
does. -/
inductive Follows (excused : ε → Prop) (R : α → α' → Prop) : Except ε α → Except ε α' → Prop
  | ok {a : α} {a' : α'} : R a a' → Follows excused R (.ok a) (.ok a')
  | error (error : ε) : Follows excused R (.error error) (.error error)
  | excused {x : Except ε α} {error : ε} : excused error → Follows excused R x (.error error)

namespace Follows

variable {excused : ε → Prop} {R : α → α' → Prop} {S : β → β' → Prop}

/-- Two steps in sequence follow two others if the first step does, and the second step does on
results of the first one that correspond. -/
lemma bind_of_eq_ok {x : Except ε α} {x' : Except ε α'} {f : α → Except ε β}
    {f' : α' → Except ε β'} (h : Follows excused R x x')
    (hf : ∀ a a', x = .ok a → x' = .ok a' → R a a' → Follows excused S (f a) (f' a')) :
    Follows excused S (x >>= f) (x' >>= f') := by
  cases h with
  | ok hR => exact hf _ _ rfl rfl hR
  | error error => exact .error error
  | excused herror => exact .excused herror

/-- Two steps in sequence follow two others if the first step does, and the second step does on
results that correspond. -/
lemma bind {x : Except ε α} {x' : Except ε α'} {f : α → Except ε β} {f' : α' → Except ε β'}
    (h : Follows excused R x x') (hf : ∀ a a', R a a' → Follows excused S (f a) (f' a')) :
    Follows excused S (x >>= f) (x' >>= f') :=
  h.bind_of_eq_ok fun a a' _ _ => hf a a'

/-- A mapped result follows another one if results that correspond are mapped to such. -/
lemma map {x : Except ε α} {x' : Except ε α'} {f : α → β} {f' : α' → β'}
    (h : Follows excused R x x') (hf : ∀ a a', R a a' → S (f a) (f' a')) :
    Follows excused S (x.map f) (x'.map f') := by
  cases h with
  | ok hR => exact .ok (hf _ _ hR)
  | error error => exact .error error
  | excused herror => exact .excused herror

/-- A computation follows another one in a weaker sense. -/
lemma mono {R' : α → α' → Prop} {x : Except ε α} {x' : Except ε α'} (h : Follows excused R x x')
    (hR : ∀ a a', R a a' → R' a a') : Follows excused R' x x' := by
  cases h with
  | ok h => exact .ok (hR _ _ h)
  | error error => exact .error error
  | excused herror => exact .excused herror

/-- Computations with mapped errors follow one another if errors that are excused are mapped to
such. -/
lemma mapError {ε' : Type u} {excused' : ε' → Prop} {x : Except ε α} {x' : Except ε α'}
    {f : ε → ε'} (h : Follows excused R x x') (hf : ∀ error, excused error → excused' (f error)) :
    Follows excused' R (x.mapError f) (x'.mapError f) := by
  cases h with
  | ok hR => exact .ok hR
  | error error => exact .error (f error)
  | excused herror => exact .excused (hf _ herror)

/-- A computation follows itself if all results correspond to themselves. -/
lemma refl {R : α → α → Prop} (h : ∀ a, R a a) (x : Except ε α) : Follows excused R x x := by
  cases x with
  | ok a => exact .ok (h a)
  | error error => exact .error error

/-- Where the second computation has a result, so has the first one. -/
lemma exists_left {x : Except ε α} {a' : α'} (h : Follows excused R x (.ok a')) :
    ∃ a, x = .ok a ∧ R a a' := by
  cases h with
  | ok hR => exact ⟨_, rfl, hR⟩

/-- Where the first computation has a result, so has the second one, or its error is excused. -/
lemma exists_right {x' : Except ε α'} {a : α} (h : Follows excused R (.ok a) x') :
    (∃ a', x' = .ok a' ∧ R a a') ∨ ∃ error, x' = .error error ∧ excused error := by
  cases h with
  | ok hR => exact .inl ⟨_, rfl, hR⟩
  | excused herror => exact .inr ⟨_, rfl, herror⟩

/-- A computation that follows another one with equal results does the same, or its error is
excused. -/
lemma eq_or_excused {x x' : Except ε α} (h : Follows excused Eq x x') :
    x' = x ∨ ∃ error, x' = .error error ∧ excused error := by
  cases h with
  | ok hR => exact .inl (hR ▸ rfl)
  | error error => exact .inl rfl
  | excused herror => exact .inr ⟨_, rfl, herror⟩

/-- Where the second computation has a result, the first one has the same if results that correspond
are equal. -/
lemma eq_ok {x x' : Except ε α} {a : α} (h : Follows excused Eq x x') (hx' : x' = .ok a) :
    x = .ok a := by
  rw [hx'] at h
  obtain ⟨_, hx, rfl⟩ := h.exists_left
  exact hx

/-- A computation that follows another one with equal results and no excuse does the same. -/
lemma eq {x x' : Except ε α} (h : Follows (fun _ => False) Eq x x') : x' = x := by
  rcases h.eq_or_excused with heq | ⟨_, _, hfalse⟩
  · exact heq
  · exact hfalse.elim

end Follows

/-! ## Two computations alike -/

/-- Whether two computations match: both have results, which correspond, or both have errors, which
correspond too. -/
inductive Matches (E : ε → ε → Prop) (R : α → α' → Prop) : Except ε α → Except ε α' → Prop
  | ok {a : α} {a' : α'} : R a a' → Matches E R (.ok a) (.ok a')
  | error {e e' : ε} : E e e' → Matches E R (.error e) (.error e')

namespace Matches

variable {E : ε → ε → Prop} {R : α → α' → Prop} {S : β → β' → Prop}

/-- Two steps in sequence match two others if the first steps match, and the second ones do on
results of the first ones that correspond. -/
lemma bind_of_eq_ok {x : Except ε α} {x' : Except ε α'} {f : α → Except ε β}
    {f' : α' → Except ε β'} (h : Matches E R x x')
    (hf : ∀ a a', x = .ok a → x' = .ok a' → R a a' → Matches E S (f a) (f' a')) :
    Matches E S (x >>= f) (x' >>= f') := by
  cases h with
  | ok hR => exact hf _ _ rfl rfl hR
  | error hE => exact .error hE

/-- Two steps in sequence match two others if the first steps match, and the second ones do on
results that correspond. -/
lemma bind {x : Except ε α} {x' : Except ε α'} {f : α → Except ε β} {f' : α' → Except ε β'}
    (h : Matches E R x x') (hf : ∀ a a', R a a' → Matches E S (f a) (f' a')) :
    Matches E S (x >>= f) (x' >>= f') :=
  h.bind_of_eq_ok fun a a' _ _ => hf a a'

/-- Mapped results match if results that correspond are mapped to such. -/
lemma map {x : Except ε α} {x' : Except ε α'} {f : α → β} {f' : α' → β'} (h : Matches E R x x')
    (hf : ∀ a a', R a a' → S (f a) (f' a')) : Matches E S (x.map f) (x'.map f') := by
  cases h with
  | ok hR => exact .ok (hf _ _ hR)
  | error hE => exact .error hE

/-- Computations with mapped errors match if errors that correspond are mapped to such. -/
lemma mapError {ε' : Type u} {E' : ε' → ε' → Prop} {x : Except ε α} {x' : Except ε α'}
    {f f' : ε → ε'} (h : Matches E R x x') (hf : ∀ e e', E e e' → E' (f e) (f' e')) :
    Matches E' R (x.mapError f) (x'.mapError f') := by
  cases h with
  | ok hR => exact .ok hR
  | error hE => exact .error (hf _ _ hE)

/-- A computation that matches a successful one in its result has the same one. -/
lemma eq_ok {E : ε → ε → Prop} {x x' : Except ε α} {a : α} (h : Matches E Eq x x')
    (hx : x = .ok a) : x' = .ok a := by
  subst hx
  cases h with
  | ok hR => rw [hR]

/-- Sequences of steps match if each step preserves what corresponds. -/
lemma foldlM {γ γ' : Type w} {f : α → γ → Except ε α} {f' : α' → γ' → Except ε α'}
    {T : γ → γ' → Prop} {items : List γ} {items' : List γ'}
    (h : ∀ {a a' item item'}, R a a' → T item item' → Matches E R (f a item) (f' a' item'))
    (hitems : List.Forall₂ T items items') {a : α} {a' : α'} (ha : R a a') :
    Matches E R (items.foldlM f a) (items'.foldlM f' a') := by
  induction hitems generalizing a a' with
  | nil => exact .ok ha
  | cons hitem _ ih =>
    rw [List.foldlM_cons, List.foldlM_cons]
    exact (h ha hitem).bind fun _ _ hnext => ih hnext

end Matches

end Targeting
