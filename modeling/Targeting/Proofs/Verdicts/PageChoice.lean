import Targeting.Proofs.Sorted.StableSort
import Targeting.Proofs.Verdicts.Memory

/-!
# The choice of the page's audience

The candidates for the page's audience are tried by their priorities, and those with one priority in
the order in which they are given. The first one that holds is chosen, and no other is looked at
behind it. So a candidate that does not hold takes no part, wherever it stands, and it is all the
same whether the candidates are put in this order before.

The judge is followed call by call: which audiences it is asked about, and with which rules.

## Main definitions

* `Targeting.TriedBefore` — the order in which candidates are tried, by priority and index.
* `Targeting.Grounds.Reaches` — the candidates that are tried.
* `Targeting.Verdicts.Asks` — the calls of the judge between two verdicts.

## Main results

* `Targeting.Grounds.page_eq_some_iff`, `Targeting.Grounds.page_eq_none_iff` — the candidate that is
  chosen.
* `Targeting.Verdicts.RestsOn.firstHolding_asks` — the judge is asked about candidates that are
  tried, and about no others.
* `Targeting.Verdicts.choosePage_scans` — the choice after any other questions.
-/

set_option autoImplicit false

namespace Targeting

/-! ## The order of the candidates -/

/-- Whether the one of two candidates with their indices is tried before the other: its priority is
smaller, or the same and its index is smaller. -/
def TriedBefore (a b : Candidate × Nat) : Prop :=
  a.1.priority < b.1.priority ∨ a.1.priority = b.1.priority ∧ a.2 < b.2

/-- No two candidates are tried before one another. -/
lemma TriedBefore.asymm {a b : Candidate × Nat} (h : TriedBefore a b) : ¬ TriedBefore b a := by
  unfold TriedBefore at *
  simp only [Int64.lt_iff_toInt_lt, ← Int64.toInt_inj] at *
  omega

/-- The candidates with their indices, in the order in which they are tried. -/
def scan (candidates : List Candidate) : List (Candidate × Nat) :=
  sortByKey (·.1.priority.toInt) candidates.zipIdx

/-- The candidates are tried in the order in which they are ranked. -/
lemma map_fst_scan (candidates : List Candidate) :
    (scan candidates).map (·.1) = rank candidates := by
  rw [scan, ← sortByKey_map (fun c : Candidate => c.priority.toInt), List.zipIdx_map_fst, rank]

/-- Each candidate is tried, with its index. -/
lemma mem_scan_iff {candidates : List Candidate} {i : Nat} {c : Candidate} :
    (c, i) ∈ scan candidates ↔ candidates[i]? = some c := by
  rw [scan, (sortByKey_perm _ _).mem_iff, List.mem_zipIdx_iff_getElem?]

/-- The candidates are tried in the order of priorities and indices. -/
lemma scan_pairwise (candidates : List Candidate) : (scan candidates).Pairwise TriedBefore := by
  have hindices : candidates.zipIdx.Pairwise fun a b => a.2 < b.2 := by
    apply List.pairwise_map.1
    rw [List.zipIdx_map_snd]
    exact List.pairwise_lt_range'
  refine (sortByKey_pairwise_of hindices).imp fun {a b} h => ?_
  rwa [TriedBefore, Int64.lt_iff_toInt_lt, ← Int64.toInt_inj]

/-- Where the candidates are split at one of them, those in front are those tried before it. -/
lemma mem_left_iff_of_scan {candidates : List Candidate} {earlier later : List (Candidate × Nat)}
    {entry other : Candidate × Nat} (h : scan candidates = earlier ++ entry :: later) :
    other ∈ earlier ↔ other ∈ scan candidates ∧ TriedBefore other entry := by
  have hpairwise := scan_pairwise candidates
  rw [h, List.pairwise_append] at hpairwise
  obtain ⟨-, hlater, hearlier⟩ := hpairwise
  rw [h]
  constructor
  · intro hother
    exact ⟨List.mem_append_left _ hother, hearlier other hother entry (List.mem_cons_self ..)⟩
  · rintro ⟨hother, hbefore⟩
    rcases List.mem_append.1 hother with hother | hother
    · exact hother
    · rcases List.mem_cons.1 hother with rfl | hother
      · exact absurd hbefore hbefore.asymm
      · exact absurd hbefore (List.rel_of_pairwise_cons hlater hother).asymm

/-! ## The candidate that holds -/

namespace Grounds

variable {grounds : Grounds} {candidates : List Candidate}

/-- Whether a candidate at an index is tried: no candidate that is tried before it holds. -/
structure Reaches (grounds : Grounds) (candidates : List Candidate) (i : Nat) (c : Candidate) :
    Prop where
  entry : candidates[i]? = some c
  before : ∀ j d, candidates[j]? = some d → TriedBefore (d, j) (c, i) →
    grounds.holds d.audience = false

/-- The candidates that are tried are those that have only such in front of them as do not hold. -/
lemma reaches_iff {i : Nat} {c : Candidate} :
    grounds.Reaches candidates i c ↔ ∃ earlier later,
      scan candidates = earlier ++ (c, i) :: later ∧
        ∀ entry ∈ earlier, grounds.holds entry.1.audience = false := by
  constructor
  · rintro ⟨hentry, hbefore⟩
    obtain ⟨earlier, later, hscan⟩ := List.append_of_mem (mem_scan_iff.2 hentry)
    refine ⟨earlier, later, hscan, fun entry hmem => ?_⟩
    obtain ⟨hentry, htried⟩ := (mem_left_iff_of_scan hscan).1 hmem
    exact hbefore entry.2 entry.1 (mem_scan_iff.1 hentry) htried
  · rintro ⟨earlier, later, hscan, hearlier⟩
    refine ⟨mem_scan_iff.1 (by simp [hscan]), fun j d hd htried => ?_⟩
    exact hearlier _ ((mem_left_iff_of_scan hscan).2 ⟨mem_scan_iff.2 hd, htried⟩)

/-- The page's audience is that of the first candidate in order that holds. -/
lemma page_eq_map_find? (grounds : Grounds) (candidates : List Candidate) :
    grounds.page candidates =
      ((scan candidates).find? fun entry => grounds.holds entry.1.audience).map
        (·.1.audience) := by
  rw [page, ← map_fst_scan, List.map_map, List.find?_map]
  rfl

/-- An audience is chosen exactly when it is that of a candidate that is tried and holds. -/
theorem page_eq_some_iff {audience : String} :
    grounds.page candidates = some audience ↔
      ∃ i c, grounds.Reaches candidates i c ∧ c.audience = audience ∧
        grounds.holds audience = true := by
  rw [page_eq_map_find?, Option.map_eq_some_iff]
  constructor
  · rintro ⟨⟨c, i⟩, hfind, rfl⟩
    obtain ⟨hholds, earlier, later, hscan, hearlier⟩ := List.find?_eq_some_iff_append.1 hfind
    have hreaches := reaches_iff.2 ⟨earlier, later, hscan, by simpa using hearlier⟩
    exact ⟨i, c, hreaches, rfl, hholds⟩
  · rintro ⟨i, c, hreaches, rfl, hholds⟩
    obtain ⟨earlier, later, hscan, hearlier⟩ := reaches_iff.1 hreaches
    refine ⟨(c, i), List.find?_eq_some_iff_append.2 ⟨hholds, earlier, later, hscan, ?_⟩, rfl⟩
    simpa using hearlier

/-- No audience is chosen exactly when no candidate holds. -/
theorem page_eq_none_iff :
    grounds.page candidates = none ↔ ∀ c ∈ candidates, grounds.holds c.audience = false := by
  rw [page, List.find?_eq_none]
  simp only [List.mem_map, rank, (sortByKey_perm _ candidates).mem_iff]
  simp

/-- The choice depends only on the candidates that hold, in their order. -/
theorem page_congr {others : List Candidate}
    (h : (others.filter fun c => grounds.holds c.audience) =
      candidates.filter fun c => grounds.holds c.audience) :
    grounds.page others = grounds.page candidates := by
  have hfilter : ∀ l : List Candidate, grounds.page l =
      (rank (l.filter fun c => grounds.holds c.audience)).head?.map (·.audience) := by
    intro l
    rw [page, List.find?_map, ← List.head?_filter, rank, rank, ← filter_sortByKey_of]
    rfl
  rw [hfilter, hfilter, h]

end Grounds

/-! ## The calls of the judge -/

namespace Verdicts

variable {σ : Type}

/-- Whether verdicts come from others by calls of the judge: it is asked about audiences with their
rules, which are not blank, one after the other and no more often. -/
structure Asks (verdicts : Verdicts σ) (calls : List (String × String)) (after : Verdicts σ) :
    Prop where
  rule : ∀ call ∈ calls, verdicts.ruleFor? call.1 = some call.2
  state : after.state =
    calls.foldl (fun state call => (verdicts.judge call.1 call.2 state).2) verdicts.state
  asked : after.asked = verdicts.asked + calls.length
  snapshot : after.snapshot = verdicts.snapshot
  judge : after.judge = verdicts.judge

namespace Asks

variable {verdicts after last : Verdicts σ} {calls more : List (String × String)}

/-- Without a call nothing is asked. -/
lemma refl (verdicts : Verdicts σ) : verdicts.Asks [] verdicts :=
  ⟨by simp, rfl, rfl, rfl, rfl⟩

/-- Calls are made one after the other. -/
lemma trans (h : verdicts.Asks calls after) (hmore : after.Asks more last) :
    verdicts.Asks (calls ++ more) last := by
  have hrule : ∀ audience, after.ruleFor? audience = verdicts.ruleFor? audience := by
    intro audience
    rw [ruleFor?, ruleFor?, h.snapshot]
  refine ⟨?_, ?_, ?_, hmore.snapshot.trans h.snapshot, hmore.judge.trans h.judge⟩
  · refine List.forall_mem_append.2 ⟨h.rule, fun call hcall => ?_⟩
    rw [← hrule]
    exact hmore.rule call hcall
  · rw [hmore.state, h.judge, h.state, List.foldl_append]
  · rw [hmore.asked, h.asked, List.length_append, Nat.add_assoc]

end Asks

/-- A new look at an audience takes at most one call, which is about this audience. -/
lemma ask_asks (verdicts : Verdicts σ) (audience : String) :
    ∃ calls, verdicts.Asks calls (verdicts.ask audience).2 ∧ ∀ call ∈ calls, call.1 = audience := by
  unfold ask
  split
  · exact ⟨[], .refl verdicts, by simp⟩
  · next rule hrule =>
    exact ⟨[(audience, rule)], ⟨by simpa using hrule, rfl, rfl, rfl, rfl⟩, by simp⟩

/-- Whether an audience holds takes at most one call, which is about this audience. -/
lemma holds_asks (verdicts : Verdicts σ) (audience : String) :
    ∃ calls, verdicts.Asks calls (verdicts.holds audience).2 ∧
      ∀ call ∈ calls, call.1 = audience := by
  unfold Verdicts.holds
  split
  · exact ⟨[], .refl verdicts, by simp⟩
  · obtain ⟨calls, ⟨hrule, hstate, hasked, hsnapshot, hjudge⟩, habout⟩ := verdicts.ask_asks audience
    exact ⟨calls, ⟨hrule, hstate, hasked, hsnapshot, hjudge⟩, habout⟩

namespace RestsOn

variable {verdicts : Verdicts σ} {grounds : Grounds}

/-- The judge is asked only about such audiences as have none in front of them that holds.

**Proof sketch.** Induction on the audiences. If the first one holds, then the search ends with it;
otherwise the calls about the others follow, and the first one does not hold. -/
lemma firstHolding_asks (h : verdicts.RestsOn grounds) (audiences : List String) :
    ∃ calls, verdicts.Asks calls (verdicts.firstHolding audiences).2 ∧
      ∀ call ∈ calls, ∃ earlier later, audiences = earlier ++ call.1 :: later ∧
        ∀ audience ∈ earlier, grounds.holds audience = false := by
  induction audiences generalizing verdicts with
  | nil => exact ⟨[], .refl verdicts, by simp⟩
  | cons audience rest ih =>
    obtain ⟨calls, hcalls, habout⟩ := verdicts.holds_asks audience
    obtain ⟨hanswer, hrests, -⟩ := h.holds audience
    have hfirst : ∀ call ∈ calls, ∃ earlier later, audience :: rest = earlier ++ call.1 :: later ∧
        ∀ audience ∈ earlier, grounds.holds audience = false := by
      intro call hcall
      rw [habout call hcall]
      exact ⟨[], rest, rfl, by simp⟩
    rw [Verdicts.firstHolding]
    generalize verdicts.holds audience = outcome at hcalls hanswer hrests ⊢
    obtain ⟨result, after⟩ := outcome
    cases result with
    | true => exact ⟨calls, hcalls, hfirst⟩
    | false =>
      obtain ⟨more, hmore, hothers⟩ := ih hrests
      refine ⟨calls ++ more, hcalls.trans hmore, List.forall_mem_append.2 ⟨hfirst, ?_⟩⟩
      intro call hcall
      obtain ⟨earlier, later, rfl, hearlier⟩ := hothers call hcall
      exact ⟨audience :: earlier, later, rfl, List.forall_mem_cons.2 ⟨hanswer.symm, hearlier⟩⟩

/-- The judge is asked only about candidates that are tried. -/
lemma choosePage_asks (h : verdicts.RestsOn grounds) (candidates : List Candidate) :
    ∃ calls, verdicts.Asks calls (verdicts.choosePage candidates).2 ∧
      ∀ call ∈ calls, ∃ i c, grounds.Reaches candidates i c ∧ c.audience = call.1 := by
  obtain ⟨calls, hcalls, hreached⟩ := h.firstHolding_asks ((rank candidates).map (·.audience))
  refine ⟨calls, ⟨hcalls.rule, hcalls.state, hcalls.asked, hcalls.snapshot, hcalls.judge⟩, ?_⟩
  intro call hcall
  obtain ⟨earlier, later, hsplit, hearlier⟩ := hreached call hcall
  rw [← map_fst_scan, List.map_map] at hsplit
  obtain ⟨left, right, hscan, rfl, hright⟩ := List.map_eq_append_iff.1 hsplit
  obtain ⟨⟨c, i⟩, right, rfl, haudience, -⟩ := List.map_eq_cons_iff.1 hright
  refine ⟨i, c, Grounds.reaches_iff.2 ⟨left, right, hscan, fun entry hentry => ?_⟩, haudience⟩
  exact hearlier _ (List.mem_map_of_mem hentry)

end RestsOn

/-- Candidates that are ranked already are tried in the same order. -/
lemma choosePage_ranked (verdicts : Verdicts σ) (navigation : Navigation) :
    verdicts.choosePage navigation.ranked = verdicts.choosePage navigation.candidates := by
  rw [choosePage, choosePage, Navigation.ranked]
  simp only [rank, sortByKey_sortByKey]

/-- **The order of the candidates decides.** If the judge judges alike in every state, then after
any questions the page's audience is that of the candidate that holds and that is not behind another
one that holds, by priority and then by index; and there is none exactly when no candidate holds. So
only the candidates that hold count, and ranking them before makes no difference. The judge is asked
only about candidates that are not behind one that holds.

**Proof sketch.** After any questions the verdicts rest on the grounds, so the choice is
`Targeting.Grounds.page`, of which the first three parts are properties. The candidates of a
navigation are ranked by the same order, by `Targeting.Verdicts.choosePage_ranked`, and the calls
are those of the first search for one that holds. -/
theorem choosePage_scans {grounds : Grounds} {judge : Judge σ}
    (hjudge : ∀ audience rule state, (judge audience rule state).1 = grounds.judge audience rule)
    (state : σ) (questions : List Question) (candidates : List Candidate) :
    let verdicts :=
      ((fresh grounds.snapshot grounds.settings judge state).answers questions).2
    (∀ audience, (verdicts.choosePage candidates).1 = some audience ↔
      ∃ i c, grounds.Reaches candidates i c ∧ c.audience = audience ∧
        grounds.holds audience = true) ∧
    ((verdicts.choosePage candidates).1 = none ↔
      ∀ c ∈ candidates, grounds.holds c.audience = false) ∧
    (∀ others : List Candidate,
      (others.filter fun c => grounds.holds c.audience) =
          (candidates.filter fun c => grounds.holds c.audience) →
        (verdicts.choosePage others).1 = (verdicts.choosePage candidates).1) ∧
    (∀ navigation : Navigation, navigation.candidates = candidates →
      verdicts.choosePage navigation.ranked = verdicts.choosePage candidates) ∧
    ∃ calls, verdicts.Asks calls (verdicts.choosePage candidates).2 ∧
      ∀ call ∈ calls, ∃ i c, grounds.Reaches candidates i c ∧ c.audience = call.1 := by
  intro verdicts
  have hrests : verdicts.RestsOn grounds :=
    ((fresh_restsOn hjudge grounds.snapshot grounds.settings state).answers questions).restsOn
  have hpage : ∀ l, (verdicts.choosePage l).1 = grounds.page l :=
    fun l => (hrests.choosePage l).answer
  refine ⟨fun audience => ?_, ?_, fun others hothers => ?_, ?_, hrests.choosePage_asks candidates⟩
  · rw [hpage, Grounds.page_eq_some_iff]
  · rw [hpage, Grounds.page_eq_none_iff]
  · rw [hpage, hpage, Grounds.page_congr hothers]
  · rintro navigation rfl
    exact verdicts.choosePage_ranked navigation

/-- A judge that keeps a record of what it is asked, and candidates of which two have the same
priority as the one that is chosen: in front of this one are an audience whose rule fails and one
without a rule, behind it one that holds, twice, and one with a blank rule.

**Proof sketch.** The page and the record of the judge are computed. The theorem names a candidate
that is reached and holds. -/
theorem choosePage_scans_ties :
    let grounds : Grounds :=
      { snapshot := { rules := .ofList [("a", "y"), ("b", " "), ("c", "x"), ("d", "x")] }
        settings := {}
        judge := fun _ rule => if rule = "x" then .ok true else .error ⟨.emptyExpression, 1⟩ }
    let judge : Judge (List String) := fun audience rule record =>
      (grounds.judge audience rule, record ++ [audience])
    let candidates : List Candidate :=
      [⟨"d", 2⟩, ⟨"e", 0⟩, ⟨"c", 1⟩, ⟨"a", -1⟩, ⟨"d", 1⟩, ⟨"b", 1⟩]
    let verdicts := ((fresh grounds.snapshot grounds.settings judge []).answers
      [.allowsAudience (some "b")]).2
    (∀ audience rule record, (judge audience rule record).1 = grounds.judge audience rule) ∧
      (verdicts.choosePage candidates).1 = some "c" ∧
      (verdicts.choosePage candidates).2.state = ["a", "c"] ∧
      ∃ i c, grounds.Reaches candidates i c ∧ c.audience = "c" ∧ grounds.holds "c" = true := by
  intro grounds judge candidates verdicts
  have hjudge : ∀ audience rule record,
      (judge audience rule record).1 = grounds.judge audience rule := fun _ _ _ => rfl
  have hpage : (verdicts.choosePage candidates).1 = some "c" := by
    unfold verdicts candidates judge grounds
    decide +kernel
  have hstate : (verdicts.choosePage candidates).2.state = ["a", "c"] := by
    unfold verdicts candidates judge grounds
    decide +kernel
  obtain ⟨hsome, -⟩ := choosePage_scans hjudge [] [.allowsAudience (some "b")] candidates
  exact ⟨hjudge, hpage, hstate, (hsome "c").1 hpage⟩

end Verdicts

end Targeting
