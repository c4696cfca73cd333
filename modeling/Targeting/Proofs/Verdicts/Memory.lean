import Mathlib.Tactic.Lemma
import Mathlib.Tactic.SplitIfs
import Targeting.Verdicts

/-!
# The memory of verdicts

Verdicts remember which audiences they have looked at. If the judge always judges an audience with
its rule alike, the memory cannot be noticed: each question has the answer that it would have as the
first one, because every remembered result is the one that a new look at the audience would give.

## Main definitions

* `Targeting.Grounds` — what verdicts rest on; `holds`, `page` and `allows` are the answers without
  a memory.
* `Targeting.Verdicts.RestsOn` — whether all that is remembered follows from the grounds.
* `Targeting.Grounds.Answered` — whether a question has the right answer and nothing else changes.
* `Targeting.Verdicts.Question`, `Targeting.Verdicts.Answer` — questions and their answers.

## Main results

* `Targeting.Verdicts.RestsOn.holds`, `RestsOn.choosePage`, `RestsOn.allows` — what each operation
  answers and keeps.
* `Targeting.Verdicts.answers_eq_fresh` — no question is answered differently for those before it.
-/

set_option autoImplicit false

namespace Targeting

/-- What verdicts rest on: a snapshot, settings, and how each audience with its rule is judged,
always in the same way. -/
structure Grounds where
  snapshot : Snapshot
  settings : EngineSettings
  judge : String → String → Except RuleError Bool

/-! ## Answers without a memory -/

namespace Grounds

/-- Whether an audience holds: it has a rule, the rule is not blank, and the judgement of it is
favourable. -/
def holds (grounds : Grounds) (audience : String) : Bool :=
  match grounds.snapshot.rule? audience with
  | none => false
  | some rule => !isBlank rule && Verdicts.isFavourable (grounds.judge audience rule)

/-- The page's audience among several candidates: the first by priority that holds. -/
def page (grounds : Grounds) (candidates : List Candidate) : Option String :=
  ((rank candidates).map (·.audience)).find? grounds.holds

/-- Whether a component's own audience allows it. -/
def allowsAudience (grounds : Grounds) (audience : Option String) : Bool :=
  grounds.settings.isOpen audience || audience.any grounds.holds

/-- Whether a component's page audience allows it on a page. -/
def allowsPage (grounds : Grounds) (page componentPage : Option String) : Bool :=
  page.all fun name =>
    name.isEmpty || componentPage = some name || grounds.settings.isOpen componentPage

/-- Whether the two audiences of a component allow it on a page. -/
def allows (grounds : Grounds) (page componentPage audience : Option String) : Bool :=
  grounds.settings.builderMode ||
    grounds.allowsPage page componentPage && grounds.allowsAudience audience

end Grounds

namespace Verdicts

variable {σ : Type}

/-! ## What is remembered -/

/-- Whether verdicts rest on grounds: they have the same snapshot and settings, their judge judges
alike in every state, and each remembered result is whether the audience holds. -/
structure RestsOn (verdicts : Verdicts σ) (grounds : Grounds) : Prop where
  snapshot : verdicts.snapshot = grounds.snapshot
  settings : verdicts.settings = grounds.settings
  judge : ∀ audience rule state,
    (verdicts.judge audience rule state).1 = grounds.judge audience rule
  known : ∀ audience result,
    verdicts.known.get? audience = some result → result = grounds.holds audience

end Verdicts

/-- Whether a question has the given answer, after which the verdicts rest on the same grounds and
the page's audience is the given one. -/
structure Grounds.Answered {σ α : Type} (grounds : Grounds) (answer : α) (page : Option String)
    (outcome : α × Verdicts σ) : Prop where
  answer : outcome.1 = answer
  restsOn : outcome.2.RestsOn grounds
  page : outcome.2.page = page

namespace Verdicts

variable {σ : Type}

namespace RestsOn

variable {verdicts : Verdicts σ} {grounds : Grounds}

/-- The judge is asked for what the grounds say. -/
lemma ask (h : verdicts.RestsOn grounds) (audience : String) :
    grounds.Answered (grounds.holds audience) verdicts.page (verdicts.ask audience) := by
  have hrule : verdicts.ruleFor? audience =
      (grounds.snapshot.rule? audience).filter fun rule => !isBlank rule := by
    rw [ruleFor?, h.snapshot]
  unfold Verdicts.ask Grounds.holds
  rw [hrule]
  cases grounds.snapshot.rule? audience with
  | none => exact ⟨rfl, h, rfl⟩
  | some rule =>
    cases hblank : isBlank rule with
    | true =>
      rw [Option.filter_some_neg (by simp [hblank])]
      exact ⟨by simp [hblank], h, rfl⟩
    | false =>
      rw [Option.filter_some_pos (by simp [hblank])]
      refine ⟨?_, ⟨h.snapshot, h.settings, h.judge, h.known⟩, rfl⟩
      show isFavourable (verdicts.judge audience rule verdicts.state).1 = _
      simp [h.judge, hblank]

/-- What an audience is remembered by is whether it holds, and this is what is remembered. -/
lemma holds (h : verdicts.RestsOn grounds) (audience : String) :
    grounds.Answered (grounds.holds audience) verdicts.page (verdicts.holds audience) := by
  unfold Verdicts.holds
  split
  · next result hresult => exact ⟨h.known audience result hresult, h, rfl⟩
  · obtain ⟨hanswer, hrests, hpage⟩ := h.ask audience
    refine ⟨hanswer, ⟨hrests.snapshot, hrests.settings, hrests.judge, ?_⟩, hpage⟩
    intro other result hresult
    rw [Dict.get?_insert] at hresult
    split_ifs at hresult with hother
    · rw [hother, ← hanswer]
      exact (Option.some.inj hresult).symm
    · exact hrests.known other result hresult

/-- The first of several audiences that holds is found, however much of it is remembered.

**Proof sketch.** Induction on the audiences. The first one is looked at, which is answered by the
grounds and leaves verdicts that rest on them. If it does not hold, the others are looked at from
there. -/
lemma firstHolding (h : verdicts.RestsOn grounds) (audiences : List String) :
    grounds.Answered (audiences.find? grounds.holds) verdicts.page
      (verdicts.firstHolding audiences) := by
  induction audiences generalizing verdicts with
  | nil => exact ⟨rfl, h, rfl⟩
  | cons audience rest ih =>
    have hfirst := h.holds audience
    rw [Verdicts.firstHolding, List.find?_cons]
    generalize verdicts.holds audience = outcome at hfirst ⊢
    obtain ⟨result, after⟩ := outcome
    obtain ⟨hanswer, hrests, hpage⟩ := hfirst
    obtain rfl : result = grounds.holds audience := hanswer
    cases grounds.holds audience with
    | true => exact ⟨rfl, hrests, hpage⟩
    | false =>
      obtain ⟨hanswer, hrests, hlast⟩ := ih hrests
      exact ⟨hanswer, hrests, hlast.trans hpage⟩

/-- The page's audience is chosen by the grounds, and replaces an earlier one. -/
lemma choosePage (h : verdicts.RestsOn grounds) (candidates : List Candidate) :
    grounds.Answered (grounds.page candidates) (grounds.page candidates)
      (verdicts.choosePage candidates) := by
  obtain ⟨hanswer, hrests, -⟩ := h.firstHolding ((rank candidates).map (·.audience))
  exact ⟨hanswer, ⟨hrests.snapshot, hrests.settings, hrests.judge, hrests.known⟩, hanswer⟩

/-- A component's own audience allows it by the grounds. -/
lemma allowsAudience (h : verdicts.RestsOn grounds) (audience : Option String) :
    grounds.Answered (grounds.allowsAudience audience) verdicts.page
      (verdicts.allowsAudience audience) := by
  unfold Verdicts.allowsAudience Grounds.allowsAudience
  rw [h.settings]
  cases hopen : grounds.settings.isOpen audience with
  | true => exact ⟨rfl, h, rfl⟩
  | false =>
    cases audience with
    | none => cases hopen
    | some name => exact h.holds name

/-- A component's page audience allows it on a page by the grounds. -/
lemma allowsPage (h : verdicts.RestsOn grounds) (page componentPage : Option String) :
    verdicts.allowsPage page componentPage = grounds.allowsPage page componentPage := by
  cases page with
  | none => rfl
  | some name => rw [Verdicts.allowsPage, h.settings]; rfl

/-- The two audiences of a component allow it on a page by the grounds. -/
lemma allows (h : verdicts.RestsOn grounds) (page componentPage audience : Option String) :
    grounds.Answered (grounds.allows page componentPage audience) verdicts.page
      (verdicts.allows page componentPage audience) := by
  unfold Verdicts.allows Grounds.allows
  rw [h.settings, h.allowsPage]
  cases grounds.settings.builderMode with
  | true => exact ⟨rfl, h, rfl⟩
  | false =>
    cases grounds.allowsPage page componentPage with
    | true => exact h.allowsAudience audience
    | false => exact ⟨rfl, h, rfl⟩

end RestsOn

/-! ## Questions -/

/-- No verdicts yet, with a judge in a state. -/
def fresh (snapshot : Snapshot) (settings : EngineSettings) (judge : Judge σ) (state : σ) :
    Verdicts σ :=
  { snapshot, settings, judge, state }

/-- Verdicts that remember nothing rest on what their judge says in any state, if it always judges
alike. -/
lemma fresh_restsOn {judge : Judge σ} {answer : String → String → Except RuleError Bool}
    (hjudge : ∀ audience rule state, (judge audience rule state).1 = answer audience rule)
    (snapshot : Snapshot) (settings : EngineSettings) (state : σ) :
    (fresh snapshot settings judge state).RestsOn ⟨snapshot, settings, answer⟩ :=
  ⟨rfl, rfl, hjudge, fun _ _ h => nomatch h⟩

/-- A question to verdicts. -/
inductive Question where
  | choosePage (candidates : List Candidate)
  | allowsAudience (audience : Option String)
  | allowsPage (page componentPage : Option String)
  | allows (page componentPage audience : Option String)

/-- The answer to a question: a page's audience, or whether something is allowed. -/
inductive Answer where
  | page (audience : Option String)
  | allowed (result : Bool)
deriving DecidableEq, Inhabited

/-- The choice of a page's audience that an answer is. -/
def Answer.choice? : Answer → Option (Option String)
  | page audience => some audience
  | allowed _ => none

/-- The answer to a question, and the verdicts after it. -/
def answer (verdicts : Verdicts σ) : Question → Answer × Verdicts σ
  | .choosePage candidates => (verdicts.choosePage candidates).map .page id
  | .allowsAudience audience => (verdicts.allowsAudience audience).map .allowed id
  | .allowsPage page componentPage => (.allowed (verdicts.allowsPage page componentPage), verdicts)
  | .allows page componentPage audience =>
    (verdicts.allows page componentPage audience).map .allowed id

/-- The answers to questions one after the other, and the verdicts after them. -/
def answers (verdicts : Verdicts σ) : List Question → List Answer × Verdicts σ
  | [] => ([], verdicts)
  | question :: rest =>
    let (first, verdicts) := verdicts.answer question
    let (others, verdicts) := verdicts.answers rest
    (first :: others, verdicts)

end Verdicts

namespace Grounds

/-- The answer to a question without a memory. -/
def answer (grounds : Grounds) : Verdicts.Question → Verdicts.Answer
  | .choosePage candidates => .page (grounds.page candidates)
  | .allowsAudience audience => .allowed (grounds.allowsAudience audience)
  | .allowsPage page componentPage => .allowed (grounds.allowsPage page componentPage)
  | .allows page componentPage audience => .allowed (grounds.allows page componentPage audience)

end Grounds

namespace Verdicts

variable {σ : Type} {verdicts : Verdicts σ} {grounds : Grounds}

/-- A question is answered by the grounds, and the page's audience is its answer if that is a
choice, else the one before. -/
lemma RestsOn.answer (h : verdicts.RestsOn grounds) (question : Question) :
    grounds.Answered (grounds.answer question)
      ((grounds.answer question).choice?.getD verdicts.page) (verdicts.answer question) := by
  cases question with
  | choosePage candidates =>
    obtain ⟨hanswer, hrests, hpage⟩ := h.choosePage candidates
    exact ⟨congrArg Answer.page hanswer, hrests, hpage⟩
  | allowsAudience audience =>
    obtain ⟨hanswer, hrests, hpage⟩ := h.allowsAudience audience
    exact ⟨congrArg Answer.allowed hanswer, hrests, hpage⟩
  | allowsPage page componentPage =>
    exact ⟨congrArg Answer.allowed (h.allowsPage page componentPage), h, rfl⟩
  | allows page componentPage audience =>
    obtain ⟨hanswer, hrests, hpage⟩ := h.allows page componentPage audience
    exact ⟨congrArg Answer.allowed hanswer, hrests, hpage⟩

/-- Questions are answered by the grounds, each for itself, and the page's audience is that of the
last choice. -/
theorem RestsOn.answers (h : verdicts.RestsOn grounds) (questions : List Question) :
    grounds.Answered (questions.map grounds.answer)
      (((questions.map grounds.answer).filterMap Answer.choice?).getLast?.getD verdicts.page)
      (verdicts.answers questions) := by
  induction questions generalizing verdicts with
  | nil => exact ⟨rfl, h, rfl⟩
  | cons question rest ih =>
    obtain ⟨hfirst, hrests, hpage⟩ := h.answer question
    obtain ⟨hothers, hrests, hlast⟩ := ih hrests
    refine ⟨List.cons_eq_cons.2 ⟨hfirst, hothers⟩, hrests, ?_⟩
    refine hlast.trans ?_
    rw [hpage, List.map_cons, List.filterMap_cons]
    cases (grounds.answer question).choice? with
    | none => rfl
    | some choice => rw [List.getLast?_cons]; rfl

/-- **The memory cannot be noticed.** If the judge judges alike in every state, then each of several
questions has the answer that it has as the only one, and after all of them the page's audience is
the answer to the last choice of it, none before the first.

**Proof sketch.** A judge that judges alike in every state has grounds, on which fresh verdicts
rest, by `Targeting.Verdicts.fresh_restsOn`. So after any questions each answer is that of the
grounds, as it is from the start, and only choices change the page. -/
theorem answers_eq_fresh (snapshot : Snapshot) (settings : EngineSettings) (judge : Judge σ)
    (hjudge : ∀ audience rule state state',
      (judge audience rule state).1 = (judge audience rule state').1)
    (state state' : σ) (questions : List Question) :
    ((fresh snapshot settings judge state).answers questions).1 =
        questions.map (fun question => ((fresh snapshot settings judge state').answer question).1) ∧
      ((fresh snapshot settings judge state).answers questions).2.page =
        (((fresh snapshot settings judge state).answers questions).1.filterMap
          Answer.choice?).getLast?.getD none := by
  have hconstant : ∀ audience rule other,
      (judge audience rule other).1 = (judge audience rule state).1 :=
    fun audience rule other => hjudge audience rule other state
  have hrests := fresh_restsOn hconstant snapshot settings
  obtain ⟨hanswers, -, hpage⟩ := (hrests state).answers questions
  constructor
  · rw [hanswers]
    exact List.map_congr_left fun question _ => ((hrests state').answer question).answer.symm
  · rw [hpage, hanswers]
    rfl

/-- A judge that counts how often it is asked, and questions of which some are about what is
remembered: a rule that fails, a blank one, a missing one and one that holds.

**Proof sketch.** The judge answers alike in every state, though it counts. By the theorem the
answers are those of fresh verdicts, which are computed, and the page is the last one that was
chosen. -/
theorem answers_eq_fresh_counting :
    let judge : Judge Nat := fun _ rule count =>
      (if rule = "x" then .ok true else .error ⟨.emptyExpression, 1⟩, count + 1)
    let verdicts := fresh { rules := .ofList [("a", "y"), ("b", " "), ("c", "x")] } {} judge 0
    let questions : List Question :=
      [.allowsAudience (some "a"), .choosePage [⟨"a", 1⟩, ⟨"b", 2⟩, ⟨"d", 3⟩, ⟨"c", 4⟩],
        .allows (some "c") none (some "a"), .allowsAudience (some "c")]
    (∀ audience rule state state',
      (judge audience rule state).1 = (judge audience rule state').1) ∧
      (verdicts.answers questions).1 =
        [.allowed false, .page (some "c"), .allowed false, .allowed true] ∧
      (verdicts.answers questions).2.page = some "c" := by
  intro judge verdicts questions
  have hjudge : ∀ audience rule state state',
      (judge audience rule state).1 = (judge audience rule state').1 := fun _ _ _ _ => rfl
  obtain ⟨hanswers, hpage⟩ := answers_eq_fresh _ {} judge hjudge 0 7 questions
  refine ⟨hjudge, hanswers.trans ?_, hpage.trans ?_⟩
  · unfold questions judge
    decide +kernel
  · rw [hanswers]
    unfold questions judge
    decide +kernel

end Verdicts

end Targeting
