import Mathlib.Tactic.Lemma
import Mathlib.Tactic.SplitIfs
import Targeting.Component.Visibility

/-!
# Inquiries

Verdicts look at audiences one after the other, and which one comes next depends on the answers so
far. So each operation on verdicts is an inquiry: a tree of questions whether an audience holds,
with a result at each leaf. Under given settings the tree is the same for every judge, in every
state of it and whatever is remembered.

What one look at an audience keeps, a whole inquiry keeps. In particular nothing that is remembered
is forgotten, so the answers that an inquiry has had can be read off the memory at any time later,
and its result is the one that these answers lead to.

## Main definitions

* `Targeting.Inquiry` — the inquiries, with what they come to by given answers (`under`) and by
  verdicts (`run`).
* `Targeting.Inquiry.first`, `allowsAudience`, `allows`, `visibleOn`, `shown` — the operations.
* `Targeting.Verdicts.Extends` — whether verdicts remember all that others do.
* `Targeting.Verdicts.AgreesWith` — whether all that is remembered are the given answers.
* `Targeting.Inquiry.Remembered` — whether an outcome is that of an inquiry, as it is remembered.

## Main results

* `Targeting.Verdicts.firstHolding_eq_run`, `allowsAudience_eq_run`, `allows_eq_run`,
  `Targeting.Catalogue.visibleOn_eq_run`, `shown_eq_run` — each operation runs its inquiry.
* `Targeting.Inquiry.run_induction` — what a look at an audience keeps, an inquiry keeps.
* `Targeting.Inquiry.run_remembered` — the result of an inquiry is the one that the memory at any
  time later leads to.
-/

set_option autoImplicit false

namespace Targeting

/-- An inquiry: a result, or a question whether an audience holds and what is inquired then. -/
inductive Inquiry (α : Type) where
  | result (value : α)
  | holds (audience : String) (next : Bool → Inquiry α)

namespace Inquiry

variable {σ α β : Type}

/-- What an inquiry comes to by given answers. -/
def under (answers : String → Bool) : Inquiry α → α
  | result value => value
  | holds audience next => (next (answers audience)).under answers

/-- What an inquiry comes to by verdicts, and the verdicts after it. -/
def run : Inquiry α → Verdicts σ → α × Verdicts σ
  | result value, verdicts => (value, verdicts)
  | holds audience next, verdicts =>
    let (answer, verdicts) := verdicts.holds audience
    (next answer).run verdicts

/-- The inquiry that goes on after the result of another one. -/
def bind : Inquiry α → (α → Inquiry β) → Inquiry β
  | result value, rest => rest value
  | holds audience next, rest => holds audience fun answer => (next answer).bind rest

/-- The inquiry with another result for each result. -/
def map (f : α → β) (inquiry : Inquiry α) : Inquiry β := inquiry.bind fun value => result (f value)

/-- An inquiry that goes on is made by the verdicts that its first part leaves. -/
lemma run_bind (inquiry : Inquiry α) (rest : α → Inquiry β) (verdicts : Verdicts σ) :
    (inquiry.bind rest).run verdicts =
      (rest (inquiry.run verdicts).1).run (inquiry.run verdicts).2 := by
  induction inquiry generalizing verdicts with
  | result value => rfl
  | holds audience next ih => exact ih _ _

/-- By given answers an inquiry that goes on comes to what its rest comes to. -/
lemma under_bind (answers : String → Bool) (inquiry : Inquiry α) (rest : α → Inquiry β) :
    (inquiry.bind rest).under answers = (rest (inquiry.under answers)).under answers := by
  induction inquiry with
  | result value => rfl
  | holds audience next ih => exact ih _

/-- An inquiry with other results asks the same. -/
lemma run_map (f : α → β) (inquiry : Inquiry α) (verdicts : Verdicts σ) :
    (inquiry.map f).run verdicts = (inquiry.run verdicts).map f id :=
  inquiry.run_bind _ verdicts

end Inquiry

/-! ## The operations as inquiries -/

/-- Whether a component's page audience allows it on a page: the page has no audience or that one,
or the component's is open. -/
def EngineSettings.allowsPage (settings : EngineSettings) (page componentPage : Option String) :
    Bool :=
  page.all fun name => name.isEmpty || componentPage = some name || settings.isOpen componentPage

namespace Inquiry

/-- The search for the first of several audiences that holds. -/
def first : List String → Inquiry (Option String)
  | [] => result none
  | audience :: rest =>
    holds audience fun answer => if answer then result (some audience) else first rest

/-- Whether a component's own audience allows it. -/
def allowsAudience (settings : EngineSettings) (audience : Option String) : Inquiry Bool :=
  if settings.isOpen audience then result true else audience.elim (result true) (holds · result)

/-- Whether the two audiences of a component allow it on a page. -/
def allows (settings : EngineSettings) (page componentPage audience : Option String) :
    Inquiry Bool :=
  if settings.builderMode then result true
  else if settings.allowsPage page componentPage then allowsAudience settings audience
  else result false

/-- Which of the components with the given names are allowed on a page. -/
def visibleOn (settings : EngineSettings) (catalogue : Catalogue) (page : Option String) :
    List String → Inquiry (List String)
  | [] => result []
  | name :: rest =>
    match catalogue.get? name with
    | none => visibleOn settings catalogue page rest
    | some component =>
      (allows settings page component.pageAudience component.audience).bind fun visible =>
        (visibleOn settings catalogue page rest).bind fun others =>
          result (if visible then component.id :: others else others)

/-- Which of the components with the given names are shown, with the audience that was chosen for
the page. -/
def shown (settings : EngineSettings) (chosen : Option String) (catalogue : Catalogue)
    (names : List String) : Inquiry (List String) :=
  if settings.builderMode then result (names.filter fun name => (catalogue.get? name).isSome)
  else chosen.elim (result []) fun page => visibleOn settings catalogue (some page) names

end Inquiry

/-! ## What a look at an audience keeps -/

namespace Verdicts

variable {σ : Type}

/-- Whether verdicts are like others, except that they may remember more, that the page's audience
may be another one and that the judge may have been asked since. -/
structure Extends (later earlier : Verdicts σ) : Prop where
  snapshot : later.snapshot = earlier.snapshot
  settings : later.settings = earlier.settings
  judge : later.judge = earlier.judge
  known : ∀ audience answer,
    earlier.known.get? audience = some answer → later.known.get? audience = some answer

/-- Whether all that verdicts remember are the given answers. -/
def AgreesWith (verdicts : Verdicts σ) (answers : String → Bool) : Prop :=
  ∀ audience answer, verdicts.known.get? audience = some answer → answer = answers audience

namespace Extends

variable {verdicts later last : Verdicts σ}

lemma refl (verdicts : Verdicts σ) : verdicts.Extends verdicts := ⟨rfl, rfl, rfl, fun _ _ h => h⟩

lemma trans (h : last.Extends later) (h' : later.Extends verdicts) : last.Extends verdicts where
  snapshot := h.snapshot.trans h'.snapshot
  settings := h.settings.trans h'.settings
  judge := h.judge.trans h'.judge
  known audience answer hknown := h.known audience answer (h'.known audience answer hknown)

/-- Answers that are all that is remembered later are all that is remembered. -/
lemma agreesWith (h : later.Extends verdicts) {answers : String → Bool}
    (hagrees : later.AgreesWith answers) : verdicts.AgreesWith answers :=
  fun audience answer hknown => hagrees audience answer (h.known audience answer hknown)

end Extends

/-- Some answers are all that verdicts remember. -/
lemma exists_agreesWith (verdicts : Verdicts σ) : ∃ answers, verdicts.AgreesWith answers :=
  ⟨fun audience => (verdicts.known.get? audience).getD false,
    fun audience answer hknown => by simp [hknown]⟩

/-- An audience that is remembered is not looked at again. -/
lemma holds_of_known {verdicts : Verdicts σ} {audience : String} {answer : Bool}
    (h : verdicts.known.get? audience = some answer) :
    verdicts.holds audience = (answer, verdicts) := by
  rw [holds, h]

/-- Asking the judge leaves the memory, the page's audience and what the verdicts are about. -/
lemma ask_extends (verdicts : Verdicts σ) (audience : String) :
    (verdicts.ask audience).2.Extends verdicts ∧ (verdicts.ask audience).2.page = verdicts.page ∧
      (verdicts.ask audience).2.known = verdicts.known := by
  unfold ask
  split
  · exact ⟨.refl verdicts, rfl, rfl⟩
  · exact ⟨⟨rfl, rfl, rfl, fun _ _ h => h⟩, rfl, rfl⟩

/-- A look at an audience adds at most its answer to the memory. -/
lemma holds_extends (verdicts : Verdicts σ) (audience : String) :
    (verdicts.holds audience).2.Extends verdicts ∧
      (verdicts.holds audience).2.page = verdicts.page := by
  unfold holds
  split
  · exact ⟨.refl verdicts, rfl⟩
  · next hunknown =>
    obtain ⟨hextends, hpage, hknown⟩ := verdicts.ask_extends audience
    refine ⟨⟨hextends.snapshot, hextends.settings, hextends.judge, ?_⟩, hpage⟩
    intro other answer hother
    have hne : other ≠ audience := by
      rintro rfl
      rw [hunknown] at hother
      cases hother
    rw [Dict.get?_insert, if_neg hne, hknown]
    exact hother

/-- An audience that was looked at is remembered by its answer. -/
lemma known_holds (verdicts : Verdicts σ) (audience : String) :
    (verdicts.holds audience).2.known.get? audience = some (verdicts.holds audience).1 := by
  unfold holds
  split
  · assumption
  · rw [Dict.get?_insert, if_pos rfl]

end Verdicts

/-! ## What an inquiry keeps -/

namespace Inquiry

variable {σ α : Type}

/-- What every look at an audience keeps is kept by an inquiry. -/
lemma run_induction (invariant : Verdicts σ → Prop)
    (hholds : ∀ verdicts audience, invariant verdicts → invariant (verdicts.holds audience).2)
    (inquiry : Inquiry α) {verdicts : Verdicts σ} (h : invariant verdicts) :
    invariant (inquiry.run verdicts).2 := by
  induction inquiry generalizing verdicts with
  | result value => exact h
  | holds audience next ih => exact ih _ (hholds verdicts audience h)

/-- An inquiry forgets nothing, and leaves the page's audience. -/
lemma run_extends (inquiry : Inquiry α) (verdicts : Verdicts σ) :
    (inquiry.run verdicts).2.Extends verdicts ∧ (inquiry.run verdicts).2.page = verdicts.page := by
  refine run_induction (fun later => later.Extends verdicts ∧ later.page = verdicts.page) ?_
    inquiry ⟨.refl verdicts, rfl⟩
  rintro later audience ⟨hextends, hpage⟩
  obtain ⟨hlast, hsame⟩ := later.holds_extends audience
  exact ⟨hlast.trans hextends, hsame.trans hpage⟩

/-- Whether an outcome is that of an inquiry made by verdicts, as it is remembered: nothing is
forgotten, the page's audience stays, and the result is what the inquiry comes to by any answers
that are all that is remembered. -/
structure Remembered (inquiry : Inquiry α) (verdicts : Verdicts σ) (outcome : α × Verdicts σ) :
    Prop where
  kept : outcome.2.Extends verdicts
  page : outcome.2.page = verdicts.page
  result : ∀ answers, outcome.2.AgreesWith answers → outcome.1 = inquiry.under answers

/-- **The memory tells what was answered.** An inquiry is remembered by the verdicts that it leaves.

**Proof sketch.** Induction on the inquiry: the answer to its first question is remembered, and no
later question makes the verdicts forget it. -/
theorem run_remembered (inquiry : Inquiry α) (verdicts : Verdicts σ) :
    inquiry.Remembered verdicts (inquiry.run verdicts) := by
  obtain ⟨hextends, hpage⟩ := inquiry.run_extends verdicts
  refine ⟨hextends, hpage, fun answers hagrees => ?_⟩
  clear hextends hpage
  induction inquiry generalizing verdicts with
  | result value => rfl
  | holds audience next ih =>
    obtain ⟨hextends, -⟩ :=
      (next (verdicts.holds audience).1).run_extends (verdicts.holds audience).2
    have hanswer := hextends.agreesWith hagrees audience _ (verdicts.known_holds audience)
    rw [under, ← hanswer]
    exact ih _ _ hagrees

end Inquiry

/-! ## The operations run their inquiries -/

namespace Verdicts

variable {σ : Type}

lemma firstHolding_eq_run (verdicts : Verdicts σ) (audiences : List String) :
    verdicts.firstHolding audiences = (Inquiry.first audiences).run verdicts := by
  induction audiences generalizing verdicts with
  | nil => rfl
  | cons audience rest ih =>
    rw [firstHolding, Inquiry.first, Inquiry.run]
    dsimp only
    split_ifs
    · rfl
    · exact ih _

lemma allowsAudience_eq_run (verdicts : Verdicts σ) (audience : Option String) :
    verdicts.allowsAudience audience =
      (Inquiry.allowsAudience verdicts.settings audience).run verdicts := by
  unfold allowsAudience Inquiry.allowsAudience
  split_ifs
  · rfl
  · cases audience <;> rfl

lemma allowsPage_eq (verdicts : Verdicts σ) (page componentPage : Option String) :
    verdicts.allowsPage page componentPage = verdicts.settings.allowsPage page componentPage := by
  cases page <;> rfl

lemma allows_eq_run (verdicts : Verdicts σ) (page componentPage audience : Option String) :
    verdicts.allows page componentPage audience =
      (Inquiry.allows verdicts.settings page componentPage audience).run verdicts := by
  unfold allows Inquiry.allows
  rw [allowsPage_eq]
  split_ifs
  · rfl
  · exact verdicts.allowsAudience_eq_run audience
  · rfl

end Verdicts

namespace Catalogue

variable {σ : Type}

lemma visibleOn_eq_run (catalogue : Catalogue) (page : Option String) (names : List String)
    (verdicts : Verdicts σ) :
    catalogue.visibleOn page names verdicts =
      (Inquiry.visibleOn verdicts.settings catalogue page names).run verdicts := by
  induction names generalizing verdicts with
  | nil => rfl
  | cons name rest ih =>
    rw [visibleOn, Inquiry.visibleOn]
    cases catalogue.get? name with
    | none => exact ih verdicts
    | some component =>
      dsimp only
      rw [ih, verdicts.allows_eq_run, Inquiry.run_bind, Inquiry.run_bind,
        ((Inquiry.allows ..).run_extends verdicts).1.settings]
      rfl

lemma shown_eq_run (catalogue : Catalogue) (names : List String) (verdicts : Verdicts σ) :
    catalogue.shown names verdicts =
      (Inquiry.shown verdicts.settings verdicts.page catalogue names).run verdicts := by
  unfold shown Inquiry.shown
  split_ifs
  · rfl
  · cases verdicts.page with
    | none => rfl
    | some page => exact catalogue.visibleOn_eq_run (some page) names verdicts

/-- Which components are shown is remembered by the verdicts afterwards. -/
lemma shown_remembered (catalogue : Catalogue) (names : List String) (verdicts : Verdicts σ) :
    (Inquiry.shown verdicts.settings verdicts.page catalogue names).Remembered verdicts
      (catalogue.shown names verdicts) := by
  rw [shown_eq_run]
  exact Inquiry.run_remembered _ verdicts

end Catalogue

end Targeting
