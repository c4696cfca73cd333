import Targeting.Proofs.Evaluation.Reference
import Targeting.Proofs.Evaluation.Tree
import Targeting.Proofs.Rule.WellFormed
import Targeting.Proofs.Rule.Words

/-!
# Outlines of rules

The *outline* of a rule is a tree of its lexemes: where they stand is left out, and the words in it
are not looked up yet. The truth of an outline is that of any rule that spells it. So what becomes
of a rule that is put together from others is seen from how their outlines are put together.

## Main definitions

* `Targeting.Outline` — the trees, with `lexemes` and `FitsAt` as those of expressions.
* `Targeting.Scene`, `Targeting.Outline.truth?` — what the truth of an outline depends on, and the
  truth.
* `Targeting.Outline.Resolves` — the expressions that have an outline.
* `Targeting.HasTruth` — what lexemes come to that stand for an expression of a level.
* `Targeting.IsComparison` — a text that is a single comparison.

## Main results

* `Targeting.Outline.resolve` — lexemes of an outline are the tokens of an expression, or one of its
  words names nothing.
* `Targeting.Outline.Resolves.evaluate` — an expression comes to what its outline does.
* `Targeting.Engine.outcome_of_hasTruth` — a rule comes to what its lexemes do.
* `Targeting.HasTruth.connect`, `Targeting.HasTruth.group` — lexemes put together.
* `Targeting.IsComparison.hasTruth` — a single comparison next to connectives.
-/

set_option autoImplicit false

namespace Targeting

/-! ## Outlines -/

/-- An expression whose operands are words and quoted texts, without columns. -/
inductive Outline where
  | word (text : String)
  | quoted (text : String)
  | group (inner : Outline)
  | binary (op : Operator) (left right : Outline)
deriving DecidableEq, Repr, Inhabited

/-- What the truth of an outline depends on: the snapshot, the policy on fields, and what a
reference to each audience comes to. -/
structure Scene where
  snapshot : Snapshot
  policy : FieldPolicy
  refer? : String → Option Bool

/-- A truth value is a condition by itself. -/
@[simp] lemma Operand.truth?_truth (b : Bool) : (literal (.truth b)).truth? = some b := rfl

/-- What an operator comes to on two operands as they are written. -/
def Scene.operate? (scene : Scene) (op : Operator) (left right : Operand) : Option Bool :=
  match op.reference? (Operand.orient left right).1 (Operand.orient left right).2 with
  | some name => scene.refer? name
  | none => op.result? (Operand.orient left right).1 (Operand.orient left right).2

namespace Outline

/-- The lexemes of an outline in the order in which they are written. -/
def lexemes : Outline → List Lexeme
  | word w => [.word w]
  | quoted s => [.quoted s]
  | group inner => .opening :: (inner.lexemes ++ [.closing])
  | binary op left right => left.lexemes ++ .operator op :: right.lexemes

/-- Whether an outline can stand at a level, like an expression. -/
def FitsAt : Nat → Outline → Prop
  | _, word _ | _, quoted _ => True
  | _, group inner => inner.FitsAt 1
  | level, binary op left right =>
    level ≤ op.precedence ∧ left.FitsAt op.precedence ∧ right.FitsAt (op.precedence + 1)

/-- The operand that an outline comes to; none if a word names nothing or an operator fails. -/
def value? (scene : Scene) : Outline → Option Operand
  | word w =>
    ((Token.ofWord scene.snapshot scene.policy w).toOption.bind Token.atom?).map
      (·.operand scene.snapshot)
  | quoted s => some (.literal (.text s))
  | group inner => inner.value? scene
  | binary op left right => do
    let result ← scene.operate? op (← left.value? scene) (← right.value? scene)
    return .literal (.truth result)

/-- What an outline comes to as a condition. -/
def truth? (scene : Scene) (outline : Outline) : Option Bool :=
  (outline.value? scene).bind Operand.truth?

/-! ## Expressions with an outline -/

/-- The expressions that have an outline: its words name their operands, and everything has some
column. -/
inductive Resolves (snapshot : Snapshot) (policy : FieldPolicy) : Outline → Expression → Prop
  | word {w : String} {a : Atom} (column : Nat) : Token.ofWord snapshot policy w = .ok a.token →
      Resolves snapshot policy (.word w) (.atom a column)
  | quoted (s : String) (column : Nat) :
      Resolves snapshot policy (.quoted s) (.atom (.text s) column)
  | group {inner : Outline} {e : Expression} (opening closing : Nat) :
      Resolves snapshot policy inner e →
        Resolves snapshot policy (.group inner) (.group opening e closing)
  | binary {left right : Outline} {l r : Expression} (op : Operator) (column : Nat) :
      Resolves snapshot policy left l → Resolves snapshot policy right r →
        Resolves snapshot policy (.binary op left right) (.binary op column l r)

/-- An expression can stand exactly where its outline can. -/
lemma Resolves.fitsAt_iff {snapshot : Snapshot} {policy : FieldPolicy} {o : Outline}
    {e : Expression} (h : Resolves snapshot policy o e) {level : Nat} :
    e.FitsAt level ↔ o.FitsAt level := by
  induction h generalizing level with
  | word | quoted => exact Iff.rfl
  | group opening closing _ ih => exact ih
  | binary op column _ _ ihl ihr => exact and_congr Iff.rfl (and_congr ihl ihr)

end Outline

namespace Outline

/-- The lexemes of an outline are the tokens of an expression that has the outline; or one of the
words names nothing, and then the outline comes to nothing.

**Proof sketch.** Induction on the outline. The lexemes of an operator between two outlines are
divided where the operator stands. -/
theorem resolve (scene : Scene) (o : Outline) {located : List (Located Lexeme)}
    (h : located.map (·.value) = o.lexemes) :
    (∃ e, Resolves scene.snapshot scene.policy o e ∧
        Token.ofLexemes scene.snapshot scene.policy located = .ok e.tokens) ∨
      (∃ error, Token.ofLexemes scene.snapshot scene.policy located = .error error) ∧
        o.value? scene = none := by
  induction o generalizing located with
  | word w =>
    obtain ⟨⟨value, column⟩, rfl, rfl⟩ := List.map_eq_singleton_iff.1 h
    cases hword : Token.ofWord scene.snapshot scene.policy w with
    | error fault =>
      refine .inr ⟨⟨⟨fault, column⟩, ?_⟩, ?_⟩
      · simp [Token.ofLexemes, Token.ofLexeme, hword]
      · simp [value?, hword, Except.toOption]
    | ok token =>
      obtain ⟨a, rfl⟩ := Token.exists_atom_of_ofWord hword
      refine .inl ⟨.atom a column, .word column hword, ?_⟩
      simp only [Token.ofLexemes, Token.ofLexeme, hword]
      rfl
  | quoted s =>
    obtain ⟨⟨value, column⟩, rfl, rfl⟩ := List.map_eq_singleton_iff.1 h
    exact .inl ⟨.atom (.text s) column, .quoted s column, rfl⟩
  | group inner ih =>
    obtain ⟨⟨_, opening⟩, others, rfl, rfl, hothers⟩ := List.map_eq_cons_iff.1 h
    -- the lexemes inside the group are those between the first and the last
    obtain ⟨within, last, rfl, hwithin, hlast⟩ := List.map_eq_append_iff.1 hothers
    obtain ⟨⟨_, closing⟩, rfl, rfl⟩ := List.map_eq_singleton_iff.1 hlast
    have htokens := Token.ofLexemes_append scene.snapshot scene.policy within
      [⟨.closing, closing⟩]
    rcases ih hwithin with ⟨e, he, hinner⟩ | ⟨⟨error, hinner⟩, hvalue⟩
    · refine .inl ⟨.group opening e closing, .group opening closing he, ?_⟩
      rw [hinner] at htokens
      simp only [Token.ofLexemes, Token.ofLexeme, htokens]
      rfl
    · refine .inr ⟨⟨error, ?_⟩, hvalue⟩
      rw [hinner] at htokens
      simp only [Token.ofLexemes, Token.ofLexeme, htokens]
      rfl
  | binary op left right ihl ihr =>
    obtain ⟨front, behind, rfl, hfront, hbehind⟩ := List.map_eq_append_iff.1 h
    obtain ⟨⟨_, column⟩, back, rfl, rfl, hback⟩ := List.map_eq_cons_iff.1 hbehind
    have htokens := Token.ofLexemes_append scene.snapshot scene.policy front
      (⟨.operator op, column⟩ :: back)
    -- an error of the left operand is the first one, whatever the right operand has
    rcases ihl hfront with ⟨l, hl, hleft⟩ | ⟨⟨error, hleft⟩, hvalue⟩
    · rw [hleft] at htokens
      rcases ihr hback with ⟨r, hr, hright⟩ | ⟨⟨error, hright⟩, hvalue⟩
      · refine .inl ⟨.binary op column l r, .binary op column hl hr, ?_⟩
        simp only [htokens, Token.ofLexemes, Token.ofLexeme, hright]
        rfl
      · refine .inr ⟨⟨error, ?_⟩, ?_⟩
        · simp only [htokens, Token.ofLexemes, Token.ofLexeme, hright]
          rfl
        · rw [value?, hvalue]
          cases left.value? scene <;> rfl
    · refine .inr ⟨⟨error, ?_⟩, ?_⟩
      · rw [htokens, hleft]
        rfl
      · rw [value?, hvalue]
        rfl

end Outline

/-! ## Evaluation -/

/-- Whether surroundings are those of a scene, in which a reference comes to the same wherever it
stands. -/
structure Scene.Underlies (scene : Scene) (around : Surroundings) : Prop where
  snapshot : around.snapshot = scene.snapshot
  refer : ∀ name column, (around.refer name column).toOption.map (·.1) = scene.refer? name

section Evaluation

variable {scene : Scene} {around : Surroundings}

/-- An operator comes to the same at every column. -/
lemma Scene.Underlies.operate (h : scene.Underlies around) (op : Operator) (left right : Operand)
    (column : Nat) :
    (around.operate op left right column).toOption.map (·.1) = scene.operate? op left right := by
  rw [Surroundings.operate, Scene.operate?]
  simp only [Surroundings.combine?_eq]
  cases op.reference? (Operand.orient left right).1 (Operand.orient left right).2 with
  | some name =>
    dsimp only
    rw [← h.refer name column]
    cases around.refer name column <;> rfl
  | none =>
    cases op.result? (Operand.orient left right).1 (Operand.orient left right).2 <;> rfl

namespace Outline

/-- An expression comes to what its outline does.

**Proof sketch.** Induction on the expression along its outline. -/
theorem Resolves.evaluate (h : scene.Underlies around) {o : Outline} {e : Expression}
    (he : Resolves scene.snapshot scene.policy o e) :
    (e.evaluate around).toOption.map (·.1) = o.value? scene := by
  induction he with
  | word column hword =>
    rw [value?, hword, ← h.snapshot]
    simp [Expression.evaluate, Except.toOption]
  | quoted s column => rfl
  | group opening closing _ ih => exact ih
  | @binary left right l r op column _ _ ihl ihr =>
    rw [value?, ← ihl, ← ihr, Expression.evaluate]
    cases l.evaluate around with
    | error error => rfl
    | ok leftValue =>
      cases r.evaluate around with
      | error error => rfl
      | ok rightValue =>
        obtain ⟨lv, lt⟩ := leftValue
        obtain ⟨rv, rt⟩ := rightValue
        have hop := congrArg (fun v => v.map fun result => Operand.literal (.truth result))
          (h.operate op lv rv column)
        refine Eq.trans ?_ (hop.trans (Option.map_eq_bind ..))
        dsimp only [bind, Except.bind]
        cases around.operate op lv rv column <;> rfl

/-- A tree comes to what its outline does as a condition. -/
lemma Resolves.outcome (h : scene.Underlies around) {o : Outline} {e : Expression}
    (he : Resolves scene.snapshot scene.policy o e) :
    (e.outcome around).toOption.map (·.1) = o.truth? scene := by
  rw [truth?, ← he.evaluate h, Expression.outcome]
  cases e.evaluate around with
  | error error => rfl
  | ok value =>
    obtain ⟨operand, trace⟩ := value
    dsimp only [bind, Except.bind, Except.toOption, Option.map, Option.bind]
    cases operand.truth? <;> rfl

end Outline

end Evaluation

namespace Engine

/-- The scene of a rule on a trail. -/
def scene (engine : Engine) (snapshot : Snapshot) (trail : Trail) : Scene :=
  ⟨snapshot, engine.policy, fun name =>
    (engine.refer snapshot false trail name 0).toOption.map (·.1)⟩

/-- The scene of a rule underlies its evaluation: at whatever column a reference is refused, it is
refused. -/
lemma scene_underlies (engine : Engine) (snapshot : Snapshot) (trail : Trail) :
    (engine.scene snapshot trail).Underlies (engine.aroundTree snapshot false trail) := by
  refine ⟨rfl, fun name column => ?_⟩
  rw [aroundTree, ← refer_eq_follow, scene]
  dsimp only
  rw [refer_eq, refer_eq]
  split_ifs
  · rfl
  · rfl
  · cases snapshot.rule? name <;> rfl

/-- A rule that spells an outline comes to what the outline does.

**Proof sketch.** The lexemes of the rule are those of the outline, so they are resolved as
`Targeting.Outline.resolve` says. With tokens there is a tree, whose outcome is that of the outline;
without them the rule has no tree, and the outline no value. -/
theorem outcomeOn_of_outline (engine : Engine) (snapshot : Snapshot) (trail : Trail) {rule : String}
    {o : Outline} (hfits : o.FitsAt 1) (hspells : Spells rule.toList o.lexemes) :
    (engine.outcomeOn snapshot false trail rule).toOption.map (·.1) =
      o.truth? (engine.scene snapshot trail) := by
  obtain ⟨located, hlexemes, hvalues⟩ := spells_iff.1 hspells
  rw [outcomeOn_eq_bind]
  rcases o.resolve (engine.scene snapshot trail) hvalues with
    ⟨e, he, htokens⟩ | ⟨⟨error, htokens⟩, hvalue⟩
  · have hderives : Derives .disjunction e.tokens e :=
      Expression.FitsAt.derives (he.fitsAt_iff.2 hfits)
    have hrule : Expression.ofRule snapshot engine.policy rule = .ok e :=
      Expression.ofRule_eq_ok_iff.2 ⟨e.tokens, bind_eq_ok_iff.2 ⟨located, hlexemes, htokens⟩,
        e.checkTokens_tokens, hderives⟩
    rw [hrule]
    exact he.outcome (engine.scene_underlies snapshot trail)
  · have htokens : tokensOf snapshot engine.policy rule = .error error :=
      bind_eq_error_iff.2 (.inr ⟨located, hlexemes, htokens⟩)
    have hrule : Expression.ofRule snapshot engine.policy rule = .error error := by
      rw [Expression.ofRule, htokens]
      rfl
    rw [hrule, Outline.truth?, hvalue]
    rfl

end Engine

/-- A rule that spells an outline has a program as soon as it has tokens. -/
lemma Outline.exists_program (o : Outline) {snapshot : Snapshot} {policy : FieldPolicy}
    {rule : String} {tokens : List (Located Token)} (hspells : Spells rule.toList o.lexemes)
    (htokens : tokensOf snapshot policy rule = .ok tokens) :
    ∃ program, Program.ofRule snapshot policy rule = .ok program := by
  obtain ⟨located, hlocated, hvalues⟩ := spells_iff.1 hspells
  obtain ⟨located', hlocated', hlexemes⟩ := bind_eq_ok_iff.1 htokens
  obtain rfl := Except.ok.inj (hlocated.symm.trans hlocated')
  have hcheck : checkTokens tokens = .ok () := by
    rcases o.resolve ⟨snapshot, policy, fun _ => none⟩ hvalues with ⟨e, -, he⟩ | ⟨⟨error, he⟩, -⟩
    · obtain rfl := Except.ok.inj (hlexemes.symm.trans he)
      exact e.checkTokens_tokens
    · cases hlexemes.symm.trans he
  exact ⟨_, bind_eq_ok_iff.2 ⟨tokens, htokens, bind_eq_ok_iff.2 ⟨(), hcheck, rfl⟩⟩⟩

/-! ## Lexemes put together -/

/-- Whether lexemes are those of an expression of a level that comes to a truth value, or to
none. -/
def HasTruth (scene : Scene) (level : Nat) (lexemes : List Lexeme) (truth : Option Bool) : Prop :=
  ∃ o : Outline, o.FitsAt level ∧ o.lexemes = lexemes ∧ o.truth? scene = truth

/-- How an operator connects two truth values, if it is no comparison. -/
def Operator.connect? : Operator → Option (Bool → Bool → Bool)
  | and => some (· && ·)
  | or => some (· || ·)
  | _ => none

/-- A connective comes to what it makes of the truth of its operands, both of which it needs. -/
lemma Scene.operate?_of_connect? {op : Operator} {f : Bool → Bool → Bool}
    (h : op.connect? = some f) (scene : Scene) (left right : Operand) :
    scene.operate? op left right = left.truth?.bind fun l => right.truth?.map fun r => f l r := by
  have horient : Operand.orient left right = (left, right) ∨
      Operand.orient left right = (right, left) := by
    unfold Operand.orient
    split_ifs <;> simp
  cases op with
  | and | or =>
    obtain rfl := Option.some.inj h
    rcases horient with horient | horient <;>
      cases hl : left.truth? <;> cases hr : right.truth? <;>
        simp [operate?, Operator.reference?, Operator.isComparison, Operator.precedence,
          Operator.result?, horient, hl, hr, Bool.and_comm, Bool.or_comm]
  | _ => cases h

namespace HasTruth

variable {scene : Scene} {lexemes others : List Lexeme} {v w : Option Bool}

/-- Lexemes of a level are of each lower one. -/
lemma mono {level lower : Nat} (h : HasTruth scene level lexemes v) (hle : lower ≤ level) :
    HasTruth scene lower lexemes v := by
  obtain ⟨o, hfits, hlexemes, htruth⟩ := h
  refine ⟨o, ?_, hlexemes, htruth⟩
  cases o with
  | word | quoted => trivial
  | group inner => exact hfits
  | binary op left right => exact ⟨hle.trans hfits.1, hfits.2⟩

/-- Parentheses do not change what lexemes come to. -/
lemma group (h : HasTruth scene 1 lexemes v) (level : Nat) :
    HasTruth scene level (.opening :: (lexemes ++ [.closing])) v := by
  obtain ⟨o, hfits, rfl, htruth⟩ := h
  exact ⟨.group o, hfits, rfl, htruth⟩

/-- A connective between lexemes of its level and lexemes of a higher one.

**Proof sketch.** The outline is the node of the connective over both outlines. It has a value if
both have one, and `Targeting.Scene.operate?_of_connect?` says which, since a connective looks at
the truth of its operands only. -/
lemma connect {op : Operator} {f : Bool → Bool → Bool} (hop : op.connect? = some f)
    (h : HasTruth scene op.precedence lexemes v)
    (hothers : HasTruth scene (op.precedence + 1) others w) :
    HasTruth scene op.precedence (lexemes ++ .operator op :: others)
      (v.bind fun l => w.map fun r => f l r) := by
  obtain ⟨o, hfits, rfl, rfl⟩ := h
  obtain ⟨o', hfits', rfl, rfl⟩ := hothers
  refine ⟨.binary op o o', ⟨le_rfl, hfits, hfits'⟩, rfl, ?_⟩
  rw [Outline.truth?, Outline.truth?, Outline.truth?, Outline.value?]
  cases o.value? scene with
  | none => rfl
  | some l =>
    cases o'.value? scene with
    | none => cases hl : l.truth? <;> simp [hl]
    | some r =>
      change ((scene.operate? op l r).bind fun result =>
        some (Operand.literal (.truth result))).bind Operand.truth? = _
      rw [Scene.operate?_of_connect? hop]
      cases hl : l.truth? <;> cases hr : r.truth? <;> simp [hl, hr]

/-- Lexemes that a connective joins to others, one after the other from the left. -/
lemma chain {α : Type} {op : Operator} {f : Bool → Bool → Bool} (hop : op.connect? = some f)
    {spelled : α → List Lexeme} {truth : α → Option Bool} {items : List α}
    (h : HasTruth scene op.precedence lexemes v)
    (hitems : ∀ a ∈ items, HasTruth scene (op.precedence + 1) (spelled a) (truth a)) :
    HasTruth scene op.precedence (lexemes ++ items.flatMap fun a => .operator op :: spelled a)
      (items.foldl (fun v a => v.bind fun l => (truth a).map fun r => f l r) v) := by
  induction items generalizing lexemes v with
  | nil => simpa using h
  | cons a items ih =>
    obtain ⟨ha, hothers⟩ := List.forall_mem_cons.1 hitems
    have hchain := ih (h.connect hop ha) hothers
    simpa [List.append_assoc] using hchain

end HasTruth

/-- A rule comes to what its lexemes do. -/
theorem Engine.outcome_of_hasTruth (engine : Engine) (snapshot : Snapshot) {rule : String}
    {lexemes : List Lexeme} {truth : Option Bool} (hspells : Spells rule.toList lexemes)
    (h : HasTruth (engine.scene snapshot (.root snapshot.audience)) 1 lexemes truth) :
    (engine.outcome snapshot rule).toOption = truth := by
  obtain ⟨o, hfits, rfl, rfl⟩ := h
  rw [outcome, outcomeFor, toOption_map, outcomeOn_of_outline engine snapshot _ hfits hspells]

/-! ## Single comparisons -/

/-- Whether an outline is one operand, in parentheses or not. -/
def Outline.IsOperand : Outline → Prop
  | word _ | quoted _ => True
  | group inner => inner.IsOperand
  | binary _ _ _ => False

/-- An operand can stand at every level. -/
lemma Outline.IsOperand.fitsAt {o : Outline} (h : o.IsOperand) (level : Nat) : o.FitsAt level := by
  induction o generalizing level with
  | word | quoted => trivial
  | group inner ih => exact ih h 1
  | binary => exact absurd h id

/-- Whether a text is a single comparison: one of the four operators that compare, between two
operands. -/
def IsComparison (text : String) : Prop :=
  ∃ (op : Operator) (left right : Outline), op.isComparison = true ∧ left.IsOperand ∧
    right.IsOperand ∧ Spells text.toList (Outline.binary op left right).lexemes

/-- A single comparison has the lexemes of an expression that may stand next to any connective, and
that comes to what the comparison comes to as a rule. -/
theorem IsComparison.hasTruth {text : String} (h : IsComparison text) (engine : Engine)
    (snapshot : Snapshot) :
    Spells text.toList (lexemesIn text) ∧
      HasTruth (engine.scene snapshot (.root snapshot.audience)) 3 (lexemesIn text)
        (engine.outcome snapshot text).toOption := by
  obtain ⟨op, left, right, hop, hleft, hright, hspells⟩ := h
  have hlevel : op.precedence = 3 := eq_of_beq hop
  have htruth : HasTruth (engine.scene snapshot (.root snapshot.audience)) 3
      (Outline.binary op left right).lexemes
      ((Outline.binary op left right).truth? (engine.scene snapshot (.root snapshot.audience))) :=
    ⟨.binary op left right, ⟨hlevel.ge, hleft.fitsAt _, hright.fitsAt _⟩, rfl, rfl⟩
  rw [hspells.lexemesIn_eq,
    engine.outcome_of_hasTruth snapshot hspells (htruth.mono (by decide : 1 ≤ 3))]
  exact ⟨hspells, htruth⟩

end Targeting
