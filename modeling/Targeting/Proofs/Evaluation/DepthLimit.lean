import Mathlib.Data.Nat.Find
import Mathlib.Order.Bounds.Defs
import Targeting.Proofs.Evaluation.ReferenceGraph

/-!
# The limit of the depth

How deep the references of a rule nest is the length of the longest way from one audience to the
next that begins at the rule. Since all references of a rule are followed, a rule that has an
outcome under some limit has it under exactly those limits that its references do not nest beyond,
and the limit is the only thing that stops it under the others. No audience is entered twice, so
references never nest deeper than there are registered audiences.

## Main definitions

* `Targeting.Snapshot.Leads` — a way from a rule along the references.
* `Targeting.Trail.Fits` — a trail that is at most as deep as there are registered audiences on it.
* `Targeting.Engine.IsThreshold` — the least limit under which a rule has an outcome.

## Main results

* `Targeting.Engine.refer_eq_ok_depth` — a reference with a result is nowhere beyond the limit.
* `Targeting.Engine.refer_depthExceeded` — a reference that is stopped leads beyond the limit.
* `Targeting.Engine.outcome_depthLimit` — the limit is an exact threshold.
-/

set_option autoImplicit false

namespace Targeting

/-! ## Ways along the references -/

/-- Whether a list of audiences is a way from a rule along the references: the rule refers to the
first of them, and each one to the next. -/
structure Snapshot.Leads (snapshot : Snapshot) (policy : FieldPolicy) (rule : String)
    (names : List String) : Prop where
  head : ∀ name ∈ names.head?, snapshot.RuleRefers policy rule name
  chain : names.IsChain (snapshot.Refers policy)

/-- Whether a trail is at most as deep as there are registered audiences on it. -/
def Trail.Fits (snapshot : Snapshot) (trail : Trail) : Prop :=
  trail.depth + (snapshot.unvisited trail.chain).length ≤ snapshot.rules.size

/-- The trail of an audience for itself has no references on it. -/
lemma Trail.root_fits (snapshot : Snapshot) (audience : String) :
    (Trail.root audience).Fits snapshot := by
  have hle := List.length_filter_le (· ∉ (Trail.root audience).chain) snapshot.rules.keys
  rw [Dict.keys, List.length_map] at hle
  exact (Nat.zero_add _).le.trans hle

/-- A trail that enters a registered audience from outside has one more reference and one audience
less outside. -/
lemma Trail.Fits.enter {snapshot : Snapshot} {trail : Trail} {name rule : String}
    (h : trail.Fits snapshot) (hrule : snapshot.rule? name = some rule)
    (houtside : name ∉ trail.chain) : (trail.enter name).Fits snapshot := by
  have hfewer := Snapshot.length_unvisited_cons_lt hrule houtside
  unfold Fits at h ⊢
  change trail.depth + 1 + (snapshot.unvisited (name :: trail.chain)).length ≤ _
  omega

namespace Engine

variable {engine : Engine} {snapshot : Snapshot} {traced : Bool} {trail : Trail} {rule : String}

/-! ## References and the limit -/

/-- A reference with a result is nowhere beyond the limit, along whichever way it leads.

**Proof sketch.** Induction along the references that are open. All references of the audience have
results inside the reference, so the next audience on the way has one there. -/
theorem refer_eq_ok_depth {name : String} {column : Nat} {result : Bool × Trace}
    (h : engine.refer snapshot traced trail name column = .ok result) {names : List String}
    (hnames : (name :: names).IsChain (snapshot.Refers engine.policy)) :
    trail.depth + (name :: names).length ≤ engine.depthLimit := by
  fun_induction refer engine snapshot traced trail name column generalizing result names with
  | case1 | case2 | case3 => cases h
  | case4 trail name column hcyclic hdepth rule hrule ih =>
    have houtcome : engine.outcomeOn snapshot traced (trail.enter name) rule = .ok result := h
    cases names with
    | nil => exact Nat.lt_of_not_le hdepth
    | cons next names =>
      obtain ⟨hnext, hchain⟩ := List.isChain_cons_cons.1 hnames
      obtain ⟨place, inner, hinner⟩ := exists_refer_of_outcomeOn hrule houtcome hnext
      have hle := ih next place hinner hchain
      change trail.depth + 1 + (next :: names).length ≤ engine.depthLimit at hle
      rw [List.length_cons]
      omega

/-- A reference that the limit stops leads just beyond the limit, and the limit is below the number
of registered audiences or equal to it.

**Proof sketch.** Induction along the references that are open. The reference that is stopped is
the last one on the way; the trail there is as deep as the limit, and it fits. -/
theorem refer_depthExceeded {name : String} {column limit place : Nat}
    (h : engine.refer snapshot traced trail name column = .error ⟨.depthExceeded limit, place⟩)
    (hfits : trail.Fits snapshot) (hdepth : trail.depth ≤ engine.depthLimit) :
    engine.depthLimit ≤ snapshot.rules.size ∧
      ∃ names, (name :: names).IsChain (snapshot.Refers engine.policy) ∧
        trail.depth + names.length = engine.depthLimit := by
  fun_induction refer engine snapshot traced trail name column with
  | case1 | case3 => cases h
  | case2 trail name column hcyclic hstop =>
    have heq : trail.depth = engine.depthLimit := hdepth.antisymm hstop
    exact ⟨heq ▸ (Nat.le_add_right _ _).trans hfits, [], .singleton name, heq⟩
  | case4 trail name column hcyclic hopen rule hrule ih =>
    have houtcome : engine.outcomeOn snapshot traced (trail.enter name) rule =
        .error ⟨.depthExceeded limit, place⟩ := h
    obtain ⟨next, inner, hnext, hinner⟩ := exists_refer_of_outcomeOn_eq_error hrule houtcome rfl
    obtain ⟨hsize, names, hchain, hlength⟩ :=
      ih next inner hinner (hfits.enter hrule hcyclic) (Nat.lt_of_not_le hopen)
    refine ⟨hsize, next :: names, List.isChain_cons_cons.2 ⟨hnext, hchain⟩, ?_⟩
    change trail.depth + 1 + names.length = engine.depthLimit at hlength
    rw [List.length_cons]
    omega

/-! ## Rules and the limit -/

/-- A rule with an outcome leads nowhere beyond the limit. -/
lemma length_le_of_outcomeOn {audience : String} {result : Bool × Trace} {names : List String}
    (h : engine.outcomeOn snapshot traced (.root audience) rule = .ok result)
    (hnames : snapshot.Leads engine.policy rule names) : names.length ≤ engine.depthLimit := by
  cases names with
  | nil => exact Nat.zero_le _
  | cons name names =>
    obtain ⟨column, inner, hinner⟩ := exists_refer_of_ruleRefers h (hnames.head name rfl)
    exact (Nat.zero_add _).symm.le.trans (refer_eq_ok_depth hinner hnames.chain)

/-- A rule that the limit stops leads just beyond the limit, and the limit is at most the number of
registered audiences. -/
lemma exists_leads_of_outcomeOn {audience : String} {limit column : Nat}
    (h : engine.outcomeOn snapshot traced (.root audience) rule =
      .error ⟨.depthExceeded limit, column⟩) :
    engine.depthLimit ≤ snapshot.rules.size ∧
      ∃ names, snapshot.Leads engine.policy rule names ∧
        names.length = engine.depthLimit + 1 := by
  obtain ⟨name, place, hname, hrefer⟩ := exists_ruleRefers_of_outcomeOn_eq_error h rfl
  obtain ⟨hsize, names, hchain, hlength⟩ :=
    refer_depthExceeded hrefer (Trail.root_fits snapshot audience) (Nat.zero_le _)
  refine ⟨hsize, name :: names, ⟨?_, hchain⟩, ?_⟩
  · rintro _ ⟨⟩
    exact hname
  · rw [List.length_cons, ← hlength, Trail.root, Nat.zero_add]

/-! ## Two limits -/

/-- The engine with another limit. -/
abbrev withLimit (engine : Engine) (limit : Nat) : Engine := { engine with depthLimit := limit }

/-- Under a lower limit an engine does alike, unless the limit stops it. -/
lemma alike_of_le (engine : Engine) (snapshot : Snapshot) {limit limit' : Nat}
    (hle : limit' ≤ limit) :
    Alike (· = .depthExceeded limit') Eq (engine.withLimit limit) (engine.withLimit limit')
      snapshot snapshot := by
  refine ⟨fun _ => rfl, ?_⟩
  rintro trail _ rfl name
  by_cases hcyclic : name ∈ trail.chain
  · rw [entry_of_mem _ hcyclic, entry_of_mem _ hcyclic]
    exact .error _
  rcases Nat.lt_or_ge trail.depth limit' with hdepth | hdepth
  · rw [entry_of_lt _ hcyclic (hdepth.trans_le hle), entry_of_lt _ hcyclic hdepth]
    exact .refl (fun rule => ⟨⟨rfl, .refl (fun _ => rfl) _⟩, rfl⟩) _
  · rw [entry_of_le (engine.withLimit limit') hcyclic hdepth]
    exact .excused rfl

/-- As many references as there are registered audiences are as good as more, unless one leads to
an audience that is not registered: on a trail with all of them there is none left to enter.

**Proof sketch.** A reference that is cyclic is refused under both limits. One that is not, and
leads to a registered audience, is entered under both: the audience is registered and not on the
trail, which fits, so the trail is less deep than there are audiences. An audience that is not
registered is the excuse. -/
lemma alike_size (engine : Engine) (snapshot : Snapshot) {limit : Nat}
    (hlt : snapshot.rules.size < limit) :
    Alike (fun fault => ∃ name, fault = .unknownAudience name)
      (fun trail trail' => trail = trail' ∧ trail.Fits snapshot)
      (engine.withLimit snapshot.rules.size) (engine.withLimit limit) snapshot snapshot := by
  refine ⟨fun _ => rfl, ?_⟩
  rintro trail _ ⟨rfl, hfits⟩ name
  by_cases hcyclic : name ∈ trail.chain
  · rw [entry_of_mem _ hcyclic, entry_of_mem _ hcyclic]
    exact .error _
  have hdepth : trail.depth ≤ snapshot.rules.size := (Nat.le_add_right _ _).trans hfits
  rw [entry_of_lt (engine.withLimit limit) hcyclic (hdepth.trans_lt hlt)]
  cases hrule : snapshot.rule? name with
  | none =>
    rw [Snapshot.findRule, hrule]
    exact .excused ⟨name, rfl⟩
  | some rule =>
    -- the audience is one that is not on the trail, so the trail is not as deep as it can be
    have hfewer := Snapshot.length_unvisited_cons_lt hrule hcyclic
    have hopen : trail.depth < snapshot.rules.size := by
      unfold Trail.Fits at hfits
      omega
    rw [entry_of_lt (engine.withLimit snapshot.rules.size) hcyclic hopen,
      Snapshot.findRule_eq_ok_iff.2 hrule]
    exact .ok ⟨⟨rfl, .refl (fun _ => rfl) _⟩, rfl, hfits.enter hrule hcyclic⟩

/-- Under a lower limit a rule comes to the same, unless the limit stops it. -/
lemma outcome_of_le (engine : Engine) (snapshot : Snapshot) (rule : String) {limit limit' : Nat}
    (hle : limit' ≤ limit) :
    Follows (·.fault = .depthExceeded limit') Eq ((engine.withLimit limit).outcome snapshot rule)
      ((engine.withLimit limit').outcome snapshot rule) :=
  (engine.alike_of_le snapshot hle).outcome rfl (fun _ => rfl) (.refl (fun _ => rfl) _)

/-- A rule with an outcome under a limit beyond the number of registered audiences has it under this
number as the limit. -/
lemma outcome_size {limit : Nat} {result : Bool} (hlt : snapshot.rules.size < limit)
    (h : (engine.withLimit limit).outcome snapshot rule = .ok result) :
    (engine.withLimit snapshot.rules.size).outcome snapshot rule = .ok result := by
  have hfollows := (engine.alike_size snapshot hlt).outcome rfl
    (fun audience => ⟨rfl, Trail.root_fits snapshot audience⟩)
    (.refl (fun _ => rfl) (Program.ofRule snapshot engine.policy rule))
  exact hfollows.eq_ok h

/-- Whether a limit is the least one under which a rule has an outcome: it has this outcome under
every limit from there on, and is stopped by every limit below. -/
def IsThreshold (engine : Engine) (snapshot : Snapshot) (rule : String) (result : Bool)
    (height : Nat) : Prop :=
  ∀ limit,
    (height ≤ limit → (engine.withLimit limit).outcome snapshot rule = .ok result) ∧
    (limit < height → ∃ column, (engine.withLimit limit).outcome snapshot rule =
      .error ⟨.depthExceeded limit, column⟩)

/-- A rule with an outcome under some limit has a threshold: the least of these limits. -/
lemma exists_isThreshold {result : Bool} (h : engine.outcome snapshot rule = .ok result) :
    ∃ height, engine.IsThreshold snapshot rule result height := by
  classical
  have hexists : ∃ limit, (engine.withLimit limit).outcome snapshot rule = .ok result :=
    ⟨engine.depthLimit, h⟩
  refine ⟨Nat.find hexists, fun limit => ⟨fun hle => ?_, fun hlt => ?_⟩⟩
  · exact (engine.outcome_of_le snapshot rule hle).eq_ok (Nat.find_spec hexists)
  · have hfollows := engine.outcome_of_le snapshot rule hlt.le
    rw [Nat.find_spec hexists] at hfollows
    rcases hfollows.eq_or_excused with hok | ⟨⟨_, column⟩, hlimit, rfl⟩
    · exact absurd hok (Nat.find_min hexists hlt)
    · exact ⟨column, hlimit⟩

/-- A threshold is at most the number of registered audiences. -/
lemma IsThreshold.le_size {result : Bool} {height : Nat}
    (h : engine.IsThreshold snapshot rule result height) : height ≤ snapshot.rules.size := by
  by_contra hlt
  obtain ⟨column, hstopped⟩ := (h snapshot.rules.size).2 (Nat.lt_of_not_le hlt)
  rw [outcome_size (Nat.lt_of_not_le hlt) ((h height).1 le_rfl)] at hstopped
  cases hstopped

/-- A threshold is the length of the longest way along the references. -/
lemma IsThreshold.isGreatest {result : Bool} {height : Nat}
    (h : engine.IsThreshold snapshot rule result height) :
    IsGreatest {n | ∃ names, snapshot.Leads engine.policy rule names ∧ names.length = n}
      height := by
  constructor
  · cases height with
    | zero => exact ⟨[], ⟨nofun, .nil⟩, rfl⟩
    | succ limit =>
      -- the limit just below stops the rule, so some way is longer than this limit
      obtain ⟨column, hstopped⟩ := (h limit).2 limit.lt_succ_self
      exact (exists_leads_of_outcomeOn (map_eq_error_iff.1 hstopped)).2
  · rintro _ ⟨names, hnames, rfl⟩
    obtain ⟨_, houtcome, -⟩ := map_eq_ok_iff.1 ((h height).1 le_rfl)
    exact length_le_of_outcomeOn houtcome hnames

/-- **The limit is an exact threshold.** If a rule has an outcome under some limit, then its
references nest to a height, which is at most the number of registered audiences; it has this
outcome under every limit from the height on, and is stopped by every limit below. A limit beyond
the number of registered audiences stops no rule and no report.

**Proof sketch.** The height is the threshold of `Targeting.Engine.exists_isThreshold`. A rule or a
report that is stopped has a chain of references as long as the limit, by
`Targeting.Engine.exists_leads_of_outcomeOn`, and no chain has more audiences than are registered.
-/
theorem outcome_depthLimit (engine : Engine) (snapshot : Snapshot) (rule : String) :
    (∀ result, engine.outcome snapshot rule = .ok result → ∃ height ≤ snapshot.rules.size,
      IsGreatest {n | ∃ names, snapshot.Leads engine.policy rule names ∧ names.length = n} height ∧
      ∀ limit,
        (height ≤ limit → (engine.withLimit limit).outcome snapshot rule = .ok result) ∧
        (limit < height → ∃ column, (engine.withLimit limit).outcome snapshot rule =
          .error ⟨.depthExceeded limit, column⟩)) ∧
    ∀ limit, snapshot.rules.size < limit → ∀ other column,
      (engine.withLimit limit).outcome snapshot rule ≠ .error ⟨.depthExceeded other, column⟩ ∧
      ∀ audience, (engine.withLimit limit).report snapshot audience ≠
        .error (.rule ⟨.depthExceeded other, column⟩) := by
  constructor
  · intro result hresult
    obtain ⟨height, hheight⟩ := exists_isThreshold hresult
    exact ⟨height, hheight.le_size, hheight.isGreatest, hheight⟩
  · intro limit hlt other column
    constructor
    · intro h
      exact hlt.not_ge (exists_leads_of_outcomeOn (map_eq_error_iff.1 h)).1
    · intro audience h
      obtain ⟨_, -, -, houtcome⟩ := report_eq_error_iff.1 h
      exact hlt.not_ge (exists_leads_of_outcomeOn houtcome).1

/-- A rule with references of different heights: the longest way has two audiences.

**Proof sketch.** The outcomes under the limits 1, 2 and 16 are computed. The height of the theorem
is at most 2, since a lower limit than the height stops the rule, and at least 2, since the rule is
stopped by the limit 1. -/
theorem outcome_depthLimit_two :
    let snapshot : Snapshot :=
      { domain := "x"
        rules := .ofList
          [("a", "Domain == 'x' && Audience == 'b'"), ("b", "Domain != 'y'"),
            ("c", "Audience == 'c'")] }
    let rule := "Audience == 'b' && 'a' == Audience"
    Engine.outcome {} snapshot rule = .ok true ∧
      IsGreatest {n | ∃ names, snapshot.Leads .lenient rule names ∧ names.length = n} 2 := by
  intro snapshot rule
  have hok : ∀ limit ∈ [2, 16],
      (Engine.withLimit {} limit).outcome snapshot rule = .ok true := by
    unfold snapshot rule
    decide +kernel
  have hstopped : (Engine.withLimit {} 1).outcome snapshot rule =
      .error ⟨.depthExceeded 1, 27⟩ := by
    unfold snapshot rule
    decide +kernel
  have hdefault : Engine.outcome {} snapshot rule = .ok true := hok 16 (by simp)
  obtain ⟨height, -, hgreatest, hlimit⟩ :=
    (outcome_depthLimit {} snapshot rule).1 true hdefault
  have hle : height ≤ 2 := by
    by_contra hlt
    obtain ⟨column, herror⟩ := (hlimit 2).2 (Nat.lt_of_not_le hlt)
    rw [hok 2 (by simp)] at herror
    cases herror
  have hge : 2 ≤ height := by
    by_contra hlt
    have hone := (hlimit 1).1 (Nat.le_of_lt_succ (Nat.lt_of_not_le hlt))
    rw [hstopped] at hone
    cases hone
  exact ⟨hdefault, hle.antisymm hge ▸ hgreatest⟩

end Engine

end Targeting
