import Mathlib.Data.List.Nodup
import Targeting.Proofs.Verdicts.Inquiry
import Targeting.Proofs.Verdicts.Memory

/-!
# The record of a judge

A judge may change its mind: what it answers can depend on its state. Verdicts do not show this,
since no audience is heard twice. A judge that writes down its hearings has at most one on each
audience, about the audience's own rule, and the same requests before a judge that repeats what is
written down have the same replies.

The record and the memory are tied by an invariant: what is remembered of an audience is its
hearing, or that it has no rule to judge. One look at an audience keeps the invariant, so an inquiry
does, and so do requests one after the other.

## Main definitions

* `Targeting.Hearing` — what a judge was asked and what it answered.
* `Targeting.Judge.recorded`, `Targeting.Judge.repeating` — the judges that keep and repeat a
  record.
* `Targeting.Request`, `Targeting.Reply` — questions about audiences and components, with their
  replies.
* `Targeting.Verdicts.HasRecord` — what is remembered is what was heard.

## Main results

* `Targeting.Verdicts.HasRecord.holds`, `HasRecord.replies` — what a look at an audience keeps, and
  what requests keep.
* `Targeting.Verdicts.replies_recorded` — a judge answers alike while it keeps a record.
* `Targeting.Verdicts.replies_heard_once` — each audience is heard at most once, and the replies
  depend on its only hearing.
-/

set_option autoImplicit false

namespace Targeting

/-- What a judge was asked, and what it answered. -/
structure Hearing where
  audience : String
  rule : String
  judgement : Except RuleError Bool

namespace Judge

variable {σ : Type}

/-- The judge that writes down its hearings. -/
def recorded (judge : Judge σ) : Judge (σ × List Hearing) := fun audience rule (state, record) =>
  let (judgement, state) := judge audience rule state
  (judgement, state, record ++ [⟨audience, rule, judgement⟩])

/-- The judge that repeats the first hearing of each audience in a record. -/
def repeating (record : List Hearing) : Judge Unit := fun audience _ state =>
  (((record.find? (·.audience = audience)).map (·.judgement)).getD (.ok false), state)

end Judge

/-! ## Requests -/

/-- A request about audiences or about components: a question to verdicts, which of the components
with some names a page allows, which of all components are shown, and which are when one is
registered at a trigger. -/
inductive Request where
  | ask (question : Verdicts.Question)
  | visibleOn (catalogue : Catalogue) (page : Option String) (names : List String)
  | allShown (catalogue : Catalogue)
  | insertOn (catalogue : Catalogue) (trigger : Trigger) (component : Component)

/-- The reply to a request: an answer, or the names of components. -/
inductive Reply where
  | answer (given : Verdicts.Answer)
  | names (names : List String)
deriving DecidableEq

/-- The choice of a page's audience that a reply is. -/
def Reply.choice? : Reply → Option (Option String)
  | .answer given => given.choice?
  | .names _ => none

namespace Verdicts

variable {σ : Type}

/-- The reply to a request, and the verdicts after it. -/
def reply (verdicts : Verdicts σ) : Request → Reply × Verdicts σ
  | .ask question => (verdicts.answer question).map .answer id
  | .visibleOn catalogue page names => (catalogue.visibleOn page names verdicts).map .names id
  | .allShown catalogue => (catalogue.allShown verdicts).map .names id
  | .insertOn catalogue trigger component =>
    let (names, _, verdicts) := catalogue.insertOn trigger component verdicts
    (.names names, verdicts)

/-- The replies to requests one after the other, and the verdicts after them. -/
def replies (verdicts : Verdicts σ) : List Request → List Reply × Verdicts σ
  | [] => ([], verdicts)
  | request :: rest =>
    let (first, verdicts) := verdicts.reply request
    let (others, verdicts) := verdicts.replies rest
    (first :: others, verdicts)

end Verdicts

/-! ## Requests as inquiries -/

namespace Request

/-- The inquiry that a request makes, with the audience that was chosen for the page. -/
def inquiry (settings : EngineSettings) (chosen : Option String) : Request → Inquiry Reply
  | ask (.choosePage candidates) =>
    (Inquiry.first ((rank candidates).map (·.audience))).map fun page => .answer (.page page)
  | ask (.allowsAudience audience) =>
    (Inquiry.allowsAudience settings audience).map fun result => .answer (.allowed result)
  | ask (.allowsPage page componentPage) =>
    .result (.answer (.allowed (settings.allowsPage page componentPage)))
  | ask (.allows page componentPage audience) =>
    (Inquiry.allows settings page componentPage audience).map fun result =>
      .answer (.allowed result)
  | visibleOn catalogue page names => (Inquiry.visibleOn settings catalogue page names).map .names
  | allShown catalogue => (Inquiry.shown settings chosen catalogue catalogue.names).map .names
  | insertOn catalogue trigger component =>
    if component.trigger = trigger then
      (Inquiry.shown settings chosen (catalogue.insert component) [component.id]).map .names
    else .result (.names [])

/-- What requests come to by given answers, after some audience was chosen for the page. -/
def repliesUnder (settings : EngineSettings) (answers : String → Bool) :
    Option String → List Request → List Reply
  | _, [] => []
  | chosen, request :: rest =>
    let reply := (request.inquiry settings chosen).under answers
    reply :: repliesUnder settings answers (reply.choice?.getD chosen) rest

end Request

namespace Verdicts

variable {σ : Type}

/-- A reply that is no choice leaves the page's audience. -/
lemma run_map_of_choice?_eq_none {α : Type} {f : α → Reply} (hf : ∀ value, (f value).choice? = none)
    (inquiry : Inquiry α) (verdicts : Verdicts σ) :
    (inquiry.run verdicts).map f id =
      let (reply, later) := (inquiry.map f).run verdicts
      (reply, { later with page := reply.choice?.getD verdicts.page }) := by
  rw [Inquiry.run_map]
  dsimp only [Prod.map]
  rw [hf, Option.getD_none, ← (inquiry.run_extends verdicts).2]
  rfl

/-- A request makes its inquiry; then the page's audience is the reply if that is a choice, else the
one before.

**Proof sketch.** By cases on the request. Each of them is its inquiry run on the verdicts. Only the
choice of a page replies with one, and for all others
`Targeting.Verdicts.run_map_of_choice?_eq_none` says that the page stays. -/
lemma reply_eq_run (verdicts : Verdicts σ) (request : Request) :
    verdicts.reply request =
      let (reply, later) := (request.inquiry verdicts.settings verdicts.page).run verdicts
      (reply, { later with page := reply.choice?.getD verdicts.page }) := by
  cases request with
  | ask question =>
    cases question with
    | choosePage candidates =>
      rw [reply, answer, choosePage, firstHolding_eq_run, Request.inquiry, Inquiry.run_map]
      rfl
    | allowsAudience audience =>
      rw [reply, answer, allowsAudience_eq_run]
      exact run_map_of_choice?_eq_none (f := fun result => .answer (.allowed result))
        (fun _ => rfl) _ verdicts
    | allowsPage page componentPage =>
      rw [reply, answer, allowsPage_eq]
      rfl
    | allows page componentPage audience =>
      rw [reply, answer, allows_eq_run]
      exact run_map_of_choice?_eq_none (f := fun result => .answer (.allowed result))
        (fun _ => rfl) _ verdicts
  | visibleOn catalogue page names =>
    rw [reply, Catalogue.visibleOn_eq_run]
    exact run_map_of_choice?_eq_none (fun _ => rfl) _ verdicts
  | allShown catalogue =>
    rw [reply, Catalogue.allShown, Catalogue.shown_eq_run]
    exact run_map_of_choice?_eq_none (fun _ => rfl) _ verdicts
  | insertOn catalogue trigger component =>
    rw [reply, Catalogue.insertOn, Request.inquiry]
    split_ifs
    · rw [Catalogue.shown_eq_run]
      exact run_map_of_choice?_eq_none (fun _ => rfl) _ verdicts
    · rfl

/-- What every look at an audience keeps, and a change of the page's audience too, is kept by a
request. -/
lemma reply_induction (invariant : Verdicts σ → Prop)
    (hholds : ∀ verdicts audience, invariant verdicts → invariant (verdicts.holds audience).2)
    (hpage : ∀ verdicts page, invariant verdicts → invariant { verdicts with page })
    {verdicts : Verdicts σ} (h : invariant verdicts) (request : Request) :
    invariant (verdicts.reply request).2 := by
  rw [reply_eq_run]
  exact hpage _ _ (Inquiry.run_induction invariant hholds _ h)

/-- What every look at an audience keeps, and a change of the page's audience too, is kept by
requests. -/
lemma replies_induction (invariant : Verdicts σ → Prop)
    (hholds : ∀ verdicts audience, invariant verdicts → invariant (verdicts.holds audience).2)
    (hpage : ∀ verdicts page, invariant verdicts → invariant { verdicts with page })
    {verdicts : Verdicts σ} (h : invariant verdicts) (requests : List Request) :
    invariant (verdicts.replies requests).2 := by
  induction requests generalizing verdicts with
  | nil => exact h
  | cons request rest ih => exact ih (reply_induction invariant hholds hpage h request)

/-- Requests forget nothing. -/
lemma replies_extends (verdicts : Verdicts σ) (requests : List Request) :
    (verdicts.replies requests).2.Extends verdicts := by
  refine replies_induction (·.Extends verdicts) ?_ ?_ (.refl verdicts) requests
  · exact fun later audience hextends => (later.holds_extends audience).1.trans hextends
  · exact fun later page hextends => ⟨hextends.snapshot, hextends.settings, hextends.judge,
      hextends.known⟩

/-- Requests come to what they come to by any answers that are all that is remembered after them.

**Proof sketch.** Induction on the requests. What is remembered after the first one is remembered
after all of them, so the answers agree with it, and its reply is its inquiry by the answers. The
page that it leaves is that of its reply. -/
lemma replies_eq_under (verdicts : Verdicts σ) (requests : List Request) {answers : String → Bool}
    (h : (verdicts.replies requests).2.AgreesWith answers) :
    (verdicts.replies requests).1 =
      Request.repliesUnder verdicts.settings answers verdicts.page requests := by
  induction requests generalizing verdicts with
  | nil => rfl
  | cons request rest ih =>
    obtain ⟨hkept, -, hresult⟩ :=
      (request.inquiry verdicts.settings verdicts.page).run_remembered verdicts
    have hreply := verdicts.reply_eq_run request
    generalize (request.inquiry verdicts.settings verdicts.page).run verdicts = outcome
      at hkept hresult hreply
    obtain ⟨reply, later⟩ := outcome
    rw [replies, hreply] at h ⊢
    -- what is remembered after the first request is so after all of them
    have hlast := replies_extends { later with page := reply.choice?.getD verdicts.page } rest
    have hfirst : reply = _ := hresult answers (hlast.agreesWith h)
    refine (congrArg (reply :: ·) (ih _ h)).trans ?_
    rw [Request.repliesUnder, ← hfirst, ← hkept.settings]

/-! ## What is remembered is what was heard -/

/-- Whether what is remembered is what was heard by a judge that keeps a record: no audience was
heard twice, each hearing is on the rule of its audience and is remembered, and the other audiences
that are remembered have no rule to judge. -/
structure HasRecord (judge : Judge σ) (verdicts : Verdicts (σ × List Hearing)) : Prop where
  judge : verdicts.judge = judge.recorded
  once : (verdicts.state.2.map (·.audience)).Nodup
  rule : ∀ hearing ∈ verdicts.state.2, verdicts.ruleFor? hearing.audience = some hearing.rule
  asked : verdicts.asked = verdicts.state.2.length
  remembered : ∀ hearing ∈ verdicts.state.2,
    verdicts.known.get? hearing.audience = some (isFavourable hearing.judgement)
  heard : ∀ audience answer, verdicts.known.get? audience = some answer →
    (∃ hearing ∈ verdicts.state.2,
      hearing.audience = audience ∧ answer = isFavourable hearing.judgement) ∨
    verdicts.ruleFor? audience = none ∧ answer = false

/-- An audience that is not remembered is looked at: it does not hold without a rule to judge, and
else it holds as the judge says. -/
lemma holds_of_unknown {verdicts : Verdicts σ} {audience : String}
    (h : verdicts.known.get? audience = none) :
    verdicts.holds audience =
      match verdicts.ruleFor? audience with
      | none => (false, { verdicts with known := verdicts.known.insert audience false })
      | some rule =>
        let (judgement, state) := verdicts.judge audience rule verdicts.state
        (isFavourable judgement, { verdicts with
          state
          asked := verdicts.asked + 1
          known := verdicts.known.insert audience (isFavourable judgement) }) := by
  rw [holds, h, ask]
  cases verdicts.ruleFor? audience <;> rfl

namespace HasRecord

variable {judge : Judge σ} {verdicts : Verdicts (σ × List Hearing)}

/-- No verdicts yet, with an empty record. -/
lemma fresh (snapshot : Snapshot) (settings : EngineSettings) (judge : Judge σ) (state : σ) :
    HasRecord judge (fresh snapshot settings judge.recorded (state, [])) :=
  ⟨rfl, List.nodup_nil, by rintro _ ⟨⟩, rfl, by rintro _ ⟨⟩, by rintro _ _ ⟨⟩⟩

/-- A look at an audience adds a hearing to the record only if the audience was never looked at and
has a rule to judge.

**Proof sketch.** A known audience is not looked into again. An unknown one was not heard, since
what was heard is known. Without a rule it is now known not to hold and the record stays. With one,
its hearing is added at the end of the record, the verdicts have asked once more, and its answer is
the judgement. -/
lemma holds (h : HasRecord judge verdicts) (audience : String) :
    HasRecord judge (verdicts.holds audience).2 := by
  cases hknown : verdicts.known.get? audience with
  | some answer =>
    rw [holds_of_known hknown]
    exact h
  | none =>
    have hnew : ∀ hearing ∈ verdicts.state.2, hearing.audience ≠ audience := by
      rintro hearing hmem rfl
      rw [h.remembered hearing hmem] at hknown
      cases hknown
    rw [holds_of_unknown hknown]
    cases hrule : verdicts.ruleFor? audience with
    | none =>
      refine ⟨h.judge, h.once, h.rule, h.asked, fun hearing hmem => ?_,
        fun other answer hother => ?_⟩
      · rw [Dict.get?_insert, if_neg (hnew hearing hmem)]
        exact h.remembered hearing hmem
      · rw [Dict.get?_insert] at hother
        split_ifs at hother with heq
        · exact .inr ⟨heq ▸ hrule, (Option.some.inj hother).symm⟩
        · exact h.heard other answer hother
    | some rule =>
      rw [h.judge]
      -- the hearing is the last one of the record
      refine ⟨rfl, ?_, ?_, ?_, ?_, fun other answer hother => ?_⟩
      · refine (List.map_append ..).symm ▸ List.nodup_append.2 ⟨h.once, List.nodup_singleton _, ?_⟩
        rintro _ hmem _ hlast rfl
        obtain ⟨hearing, hmem, hsame⟩ := List.mem_map.1 hmem
        exact hnew hearing hmem (hsame.trans (List.mem_singleton.1 hlast))
      · exact List.forall_mem_append.2 ⟨h.rule, List.forall_mem_singleton.2 hrule⟩
      · simp [Judge.recorded, h.asked]
      · refine List.forall_mem_append.2 ⟨fun hearing hmem => ?_, List.forall_mem_singleton.2 ?_⟩
        · rw [Dict.get?_insert, if_neg (hnew hearing hmem)]
          exact h.remembered hearing hmem
        · rw [Dict.get?_insert, if_pos rfl]
          rfl
      · rw [Dict.get?_insert] at hother
        split_ifs at hother with heq
        · refine .inl ⟨_, List.mem_append_right _ (List.mem_singleton_self _), heq.symm, ?_⟩
          exact (Option.some.inj hother).symm
        · obtain ⟨hearing, hmem, hheard⟩ | hnone := h.heard other answer hother
          · exact .inl ⟨hearing, List.mem_append_left _ hmem, hheard⟩
          · exact .inr hnone

/-- Requests keep that what is remembered is what was heard. -/
lemma replies (h : HasRecord judge verdicts) (requests : List Request) :
    HasRecord judge (verdicts.replies requests).2 := by
  refine replies_induction (HasRecord judge) ?_ ?_ h requests
  · exact fun later audience hlater => hlater.holds audience
  · exact fun later page hlater => ⟨hlater.judge, hlater.once, hlater.rule, hlater.asked,
      hlater.remembered, hlater.heard⟩

/-- The hearing of an audience is found in the record. -/
lemma find?_audience (h : HasRecord judge verdicts) {hearing : Hearing}
    (hmem : hearing ∈ verdicts.state.2) :
    verdicts.state.2.find? (·.audience = hearing.audience) = some hearing := by
  cases hfind : verdicts.state.2.find? (·.audience = hearing.audience) with
  | none => exact absurd (List.find?_eq_none.1 hfind hearing hmem) (by simp)
  | some other =>
    have hsame : other.audience = hearing.audience := by simpa using List.find?_some hfind
    rw [List.inj_on_of_nodup_map h.once (List.mem_of_find?_eq_some hfind) hmem hsame]

/-- What is remembered is what holds by a judge that repeats the record. -/
lemma agreesWith (h : HasRecord judge verdicts) (settings : EngineSettings) :
    verdicts.AgreesWith (Grounds.holds
      { snapshot := verdicts.snapshot
        settings
        judge := fun audience rule => (Judge.repeating verdicts.state.2 audience rule ()).1 }) := by
  intro audience answer hknown
  rw [Grounds.holds]
  obtain ⟨hearing, hmem, rfl, rfl⟩ | ⟨hnone, rfl⟩ := h.heard audience answer hknown
  · obtain ⟨hrule, hblank⟩ := Option.filter_eq_some_iff.1 (h.rule hearing hmem)
    rw [Snapshot.rule?] at *
    simp_all [Judge.repeating, h.find?_audience hmem]
  · rw [ruleFor?, Option.filter_eq_none_iff] at hnone
    cases hrule : verdicts.snapshot.rule? audience with
    | none => rfl
    | some rule => simp_all

end HasRecord

/-! ## Keeping a record -/

/-- The verdicts with a judge that keeps a record, with the record so far. -/
def recorded (verdicts : Verdicts σ) (record : List Hearing) : Verdicts (σ × List Hearing) where
  snapshot := verdicts.snapshot
  settings := verdicts.settings
  judge := verdicts.judge.recorded
  state := (verdicts.state, record)
  known := verdicts.known
  page := verdicts.page
  asked := verdicts.asked

/-- A look at an audience is answered alike while a record is kept. -/
lemma holds_recorded (verdicts : Verdicts σ) (record : List Hearing) (audience : String) :
    ∃ later, (verdicts.recorded record).holds audience =
      ((verdicts.holds audience).1, (verdicts.holds audience).2.recorded later) := by
  unfold holds
  rw [recorded]
  dsimp only
  cases verdicts.known.get? audience with
  | some answer => exact ⟨record, rfl⟩
  | none =>
    unfold ask ruleFor?
    dsimp only
    cases (verdicts.snapshot.rule? audience).filter fun rule => !isBlank rule with
    | none => exact ⟨record, rfl⟩
    | some rule => exact ⟨_, rfl⟩

/-- An inquiry comes to the same while a record is kept. -/
lemma run_recorded {α : Type} (inquiry : Inquiry α) (verdicts : Verdicts σ)
    (record : List Hearing) :
    ∃ later, inquiry.run (verdicts.recorded record) =
      ((inquiry.run verdicts).1, (inquiry.run verdicts).2.recorded later) := by
  induction inquiry generalizing verdicts record with
  | result value => exact ⟨record, rfl⟩
  | holds audience next ih =>
    obtain ⟨later, hholds⟩ := verdicts.holds_recorded record audience
    rw [Inquiry.run, hholds]
    exact ih _ _ later

/-- Requests have the same replies while a record is kept.

**Proof sketch.** Induction on the requests. Each inquiry runs alike on both verdicts, by
`Targeting.Verdicts.run_recorded`, and leaves one with a longer record. -/
lemma replies_recorded (verdicts : Verdicts σ) (record : List Hearing) (requests : List Request) :
    ∃ later, (verdicts.recorded record).replies requests =
      ((verdicts.replies requests).1, (verdicts.replies requests).2.recorded later) := by
  induction requests generalizing verdicts record with
  | nil => exact ⟨record, rfl⟩
  | cons request rest ih =>
    obtain ⟨later, hrun⟩ :=
      run_recorded (request.inquiry verdicts.settings verdicts.page) verdicts record
    obtain ⟨last, hlast⟩ := ih (verdicts.reply request).2 later
    refine ⟨last, ?_⟩
    have hreply : (verdicts.recorded record).reply request =
        ((verdicts.reply request).1, (verdicts.reply request).2.recorded later) := by
      rw [reply_eq_run, reply_eq_run]
      dsimp only [recorded] at hrun ⊢
      rw [hrun]
    rw [replies, hreply, replies]
    dsimp only
    rw [hlast]

/-! ## Heard once -/

/-- A judge that repeats a record rests on what it repeats, whatever requests are made. -/
lemma repeating_restsOn (snapshot : Snapshot) (settings : EngineSettings) (record : List Hearing)
    (requests : List Request) :
    ((fresh snapshot settings (.repeating record) ()).replies requests).2.RestsOn
      ⟨snapshot, settings, fun audience rule => (Judge.repeating record audience rule ()).1⟩ := by
  have halike : ∀ audience rule state, (Judge.repeating record audience rule state).1 =
      (Judge.repeating record audience rule ()).1 := fun _ _ _ => rfl
  refine replies_induction (RestsOn · _) ?_ ?_ (fresh_restsOn halike snapshot settings ()) requests
  · exact fun later audience hrests => (hrests.holds audience).restsOn
  · exact fun later page hrests => ⟨hrests.snapshot, hrests.settings, hrests.judge, hrests.known⟩

/-- **Each audience is heard at most once.** Whatever the judge is, and whatever is requested, let
the judge keep a record. This changes no reply, nor what the judge does. In the record there is at
most one hearing of each audience, on the rule of the audience in the snapshot, which is not blank,
and the verdicts count as many calls of the judge as there are hearings. After any more requests, an
audience that was heard holds as it was judged at its hearing, where an error means that it does
not, and the judge is not asked. All replies are those that a judge who repeats the record would
get.

**Proof sketch.** The verdicts with the record are those without it, a record apart, by
`Targeting.Verdicts.replies_recorded`, which gives the first two parts. The next ones hold of every
record that is kept, by `Targeting.Verdicts.HasRecord.replies`. What was heard is known and stays
so, which is the hearing of later requests. A judge who repeats the record agrees with all that is
known, and replies depend on that alone. -/
theorem replies_heard_once (snapshot : Snapshot) (settings : EngineSettings) (judge : Judge σ)
    (state : σ) (requests : List Request) :
    let outcome := (fresh snapshot settings judge state).replies requests
    let recording := (fresh snapshot settings judge.recorded (state, [])).replies requests
    let record := recording.2.state.2
    recording.1 = outcome.1 ∧ recording.2.state.1 = outcome.2.state ∧
      (record.map (·.audience)).Nodup ∧
      (∀ hearing ∈ record,
        snapshot.rule? hearing.audience = some hearing.rule ∧ isBlank hearing.rule = false) ∧
      outcome.2.asked = record.length ∧
      (∀ hearing ∈ record, ∀ more, let later := (outcome.2.replies more).2
        later.holds hearing.audience = (isFavourable hearing.judgement, later)) ∧
      outcome.1 = ((fresh snapshot settings (.repeating record) ()).replies requests).1 := by
  intro outcome recording record
  have hrecord : HasRecord judge recording.2 :=
    (HasRecord.fresh snapshot settings judge state).replies requests
  have hsnapshot : recording.2.snapshot = snapshot := (replies_extends _ requests).snapshot
  obtain ⟨later, hsame⟩ : ∃ later, recording = (outcome.1, outcome.2.recorded later) :=
    (fresh snapshot settings judge state).replies_recorded [] requests
  have hknown : recording.2.known = outcome.2.known := congrArg (·.2.known) hsame
  have hreplies : recording.1 = outcome.1 := congrArg (·.1) hsame
  refine ⟨hreplies, congrArg (·.2.state.1) hsame, hrecord.once, fun hearing hmem => ?_, ?_,
    fun hearing hmem more => ?_, ?_⟩
  · have hrule := hrecord.rule hearing hmem
    rw [ruleFor?, hsnapshot] at hrule
    simpa using Option.filter_eq_some_iff.1 hrule
  · exact (congrArg (·.2.asked) hsame).symm.trans hrecord.asked
  · refine holds_of_known ((outcome.2.replies_extends more).known _ _ ?_)
    rw [← hknown]
    exact hrecord.remembered hearing hmem
  · have hagrees := hrecord.agreesWith settings
    rw [hsnapshot] at hagrees
    have hrepeated := (repeating_restsOn snapshot settings record requests).known
    rw [← hreplies, replies_eq_under _ requests hagrees, replies_eq_under _ requests hrepeated]
    rfl

/-- A judge that answers by how often it was asked, and requests about a rule that fails, a blank
one, and two that are the same text.

**Proof sketch.** The record is computed: three audiences are heard, and the blank rule is not. The
number of calls, that the second audience never holds, and the repeated replies follow from the
theorem. -/
theorem replies_heard_once_changing :
    let snapshot : Snapshot :=
      { rules := .ofList [("a", "x"), ("b", " "), ("c", "y"), ("d", "x")] }
    let judge : Judge Nat := fun _ rule count =>
      (if rule = "y" then .error ⟨.emptyExpression, 1⟩ else .ok (count % 2 == 0), count + 1)
    let catalogue := Catalogue.insert {} { id := "k", audience := some "d", trigger := .onLoad }
    let requests : List Request :=
      [.ask (.allowsAudience (some "c")),
        .ask (.choosePage [⟨"b", 1⟩, ⟨"c", 2⟩, ⟨"d", 3⟩, ⟨"a", 4⟩]), .allShown catalogue,
        .insertOn catalogue .onVisible { id := "l", audience := some "a", trigger := .onVisible }]
    let verdicts := ((fresh snapshot {} judge 0).replies requests).2
    let record := ((fresh snapshot {} judge.recorded (0, [])).replies requests).2.state.2
    record.map (fun hearing => (hearing.audience, hearing.rule)) =
        [("c", "y"), ("d", "x"), ("a", "x")] ∧
      verdicts.asked = 3 ∧ (∀ more, ((verdicts.replies more).2.holds "d").1 = false) ∧
      ((fresh snapshot {} (.repeating record) ()).replies requests).1 =
        [.answer (.allowed false), .answer (.page (some "a")), .names [], .names ["l"]] := by
  intro snapshot judge catalogue requests verdicts record
  obtain ⟨-, -, -, -, hasked, hlater, hrepeated⟩ :=
    replies_heard_once snapshot {} judge 0 requests
  have hrecord : record = [⟨"c", "y", .error ⟨.emptyExpression, 1⟩⟩, ⟨"d", "x", .ok false⟩,
      ⟨"a", "x", .ok true⟩] := by
    unfold record requests catalogue judge snapshot
    rfl
  refine ⟨by rw [hrecord]; rfl, hasked.trans (congrArg List.length hrecord), fun more => ?_, ?_⟩
  · have hmem : ⟨"d", "x", .ok false⟩ ∈ record := by
      rw [hrecord]
      exact .tail _ (.head _)
    exact congrArg Prod.fst (hlater _ hmem more)
  · refine hrepeated.symm.trans ?_
    unfold requests catalogue judge snapshot
    decide +kernel

end Verdicts

end Targeting
