import Targeting.Navigation.Basic
import Targeting.Settings.Engine

/-!
# Verdicts on audiences

The verdicts on one snapshot say which audience is the page's and what the audiences of a component
allow. Each audience is judged once, and whether it holds is remembered. An audience that has no
rule, a blank rule or a rule that fails does not hold.

The judge is a parameter with a state of its own, so that it may change its mind later or keep a
record of what it was asked.

## Main definitions

* `Targeting.Judge` — how audiences are judged.
* `Targeting.Verdicts` — the verdicts so far; `Targeting.Verdicts.ofEngine` has the engine as judge.
* `Targeting.Verdicts.holds` — whether an audience holds.
* `Targeting.Verdicts.choosePage` — the page's audience.
* `Targeting.Verdicts.allows` — whether the audiences of a component allow it on a page.
-/

set_option autoImplicit false

namespace Targeting

/-- How an audience with its rule is judged, in a state that the judgement may change. -/
abbrev Judge (σ : Type) := String → String → σ → Except RuleError Bool × σ

/-- The verdicts on one snapshot so far. -/
structure Verdicts (σ : Type) where
  snapshot : Snapshot
  settings : EngineSettings
  judge : Judge σ
  /-- The state of the judge. -/
  state : σ
  /-- Whether each audience that was looked at holds. -/
  known : Dict Bool := ∅
  /-- The page's audience, if one was found. -/
  page : Option String := none
  /-- How often the judge was asked. -/
  asked : Nat := 0

namespace Verdicts

variable {σ : Type}

/-- No verdicts yet, with the engine as judge. -/
def ofEngine (snapshot : Snapshot) (settings : EngineSettings) : Verdicts Unit where
  snapshot := snapshot
  settings := settings
  judge := fun audience rule state =>
    (settings.engine.outcomeFor snapshot audience rule, state)
  state := ()

/-! ## Audiences -/

/-- The rule of an audience, unless it is blank. -/
def ruleFor? (verdicts : Verdicts σ) (audience : String) : Option String :=
  (verdicts.snapshot.rule? audience).filter fun rule => !isBlank rule

/-- Whether a judgement means that the audience holds: an error counts as false. -/
def isFavourable : Except RuleError Bool → Bool
  | .ok holds => holds
  | .error _ => false

/-- Asks the judge about an audience, unless it has no rule to judge. -/
def ask (verdicts : Verdicts σ) (audience : String) : Bool × Verdicts σ :=
  match verdicts.ruleFor? audience with
  | none => (false, verdicts)
  | some rule =>
    let (judgement, state) := verdicts.judge audience rule verdicts.state
    (isFavourable judgement, { verdicts with state, asked := verdicts.asked + 1 })

/-- Whether an audience holds: as it is known, or else as the judge says from now on. -/
def holds (verdicts : Verdicts σ) (audience : String) : Bool × Verdicts σ :=
  match verdicts.known.get? audience with
  | some result => (result, verdicts)
  | none =>
    let (result, verdicts) := verdicts.ask audience
    (result, { verdicts with known := verdicts.known.insert audience result })

/-- The first of several audiences that holds; those after it are not looked at. -/
def firstHolding (verdicts : Verdicts σ) : List String → Option String × Verdicts σ
  | [] => (none, verdicts)
  | audience :: rest =>
    let (result, verdicts) := verdicts.holds audience
    if result then (some audience, verdicts) else verdicts.firstHolding rest

/-- Chooses the page's audience: the first candidate by priority that holds. -/
def choosePage (verdicts : Verdicts σ) (candidates : List Candidate) :
    Option String × Verdicts σ :=
  let (page, verdicts) := verdicts.firstHolding ((rank candidates).map (·.audience))
  (page, { verdicts with page })

/-! ## Components -/

/-- Whether a component's own audience allows it: the audience is open, or it holds. -/
def allowsAudience (verdicts : Verdicts σ) (audience : Option String) :
    Bool × Verdicts σ :=
  if verdicts.settings.isOpen audience then (true, verdicts)
  else
    match audience with
    | none => (true, verdicts)
    | some name => verdicts.holds name

/-- Whether a component's page audience allows it on a page: the page has no audience or that one,
or the component's is open. -/
def allowsPage (verdicts : Verdicts σ) (page componentPage : Option String) : Bool :=
  match page with
  | none => true
  | some name =>
    name.isEmpty || componentPage = some name || verdicts.settings.isOpen componentPage

/-- Whether the two audiences of a component allow it on a page. While pages are edited everything
is allowed; the component's own audience is looked at only where its page audience allows it. -/
def allows (verdicts : Verdicts σ) (page componentPage audience : Option String) :
    Bool × Verdicts σ :=
  if verdicts.settings.builderMode then (true, verdicts)
  else if verdicts.allowsPage page componentPage then verdicts.allowsAudience audience
  else (false, verdicts)

end Verdicts

/-! ## Default settings -/

namespace Snapshot

/-- The outcome of a rule under default settings. -/
def outcome (snapshot : Snapshot) (rule : String) : Except RuleError Bool :=
  ({} : EngineSettings).engine.outcome snapshot rule

/-- The page's audience under default settings. -/
def pageAudience (snapshot : Snapshot) (candidates : List Candidate) : Option String :=
  ((Verdicts.ofEngine snapshot {}).choosePage candidates).1

/-- Whether the two audiences of a component allow it on a page under default settings. -/
def allows (snapshot : Snapshot) (page componentPage audience : Option String) : Bool :=
  ((Verdicts.ofEngine snapshot {}).allows page componentPage audience).1

end Snapshot

end Targeting
