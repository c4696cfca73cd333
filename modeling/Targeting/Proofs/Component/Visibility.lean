import Targeting.Component.Visibility
import Targeting.Proofs.Component.Listing
import Targeting.Proofs.Verdicts.Reports

/-!
# Components shown in a session

While a page is in use, its components are registered, taken out and looked at, and its audiences
are asked for, in any order. What is shown at the end depends on the components that are then
registered and on the page's audience, not on what was asked before: the catalogue still agrees with
the list of its components, and the verdicts still rest on what the engine says.

## Main definitions

* `Targeting.Grounds.shown` — the components that are shown, without a memory.
* `Targeting.Session` — a catalogue with verdicts; `Targeting.Session.call` is one call.
* `Targeting.Session.Sound` — whether both parts of a session are as they should be.

## Main results

* `Targeting.Verdicts.RestsOn.shown` — components are shown by the grounds of the verdicts.
* `Targeting.Session.Sound.call` — what a call keeps.
* `Targeting.Session.shown_after` — what is shown after any calls; a component whose audience has no
  report is not.
-/

set_option autoImplicit false

namespace Targeting

variable {σ : Type}

/-! ## Components shown by verdicts -/

namespace Grounds

/-- Of several components the names of those that are allowed on a page. -/
def visible (grounds : Grounds) (page : Option String) (components : List Component) :
    List String :=
  (components.filter fun c => grounds.allows page c.pageAudience c.audience).map (·.id)

/-- Of the components with the given names those that are shown on a page with an audience. -/
def shown (grounds : Grounds) (catalogue : Catalogue) (page : Option String)
    (names : List String) : List String :=
  if grounds.settings.builderMode then names.filter fun name => (catalogue.get? name).isSome
  else
    match page with
    | none => []
    | some page => grounds.visible (some page) (catalogue.pick names)

end Grounds

namespace Verdicts.RestsOn

variable {verdicts : Verdicts σ} {grounds : Grounds}

/-- The components with given names are allowed on a page by the grounds.

**Proof sketch.** Induction on the names. One without a component is passed over on both sides. The
question about another one is answered by the grounds and leaves verdicts that rest on them, so the
others are answered alike. -/
lemma visibleOn (h : verdicts.RestsOn grounds) (catalogue : Catalogue) (page : Option String)
    (names : List String) :
    grounds.Answered (grounds.visible page (catalogue.pick names)) verdicts.page
      (catalogue.visibleOn page names verdicts) := by
  induction names generalizing verdicts with
  | nil => exact ⟨rfl, h, rfl⟩
  | cons name rest ih =>
    rw [Catalogue.visibleOn, Catalogue.pick, List.filterMap_cons]
    cases hget : catalogue.get? name with
    | none => exact ih h
    | some component =>
      obtain ⟨hanswer, hrests, hpage⟩ := h.allows page component.pageAudience component.audience
      obtain ⟨hothers, hlast, hsame⟩ := ih hrests
      refine ⟨?_, hlast, hsame.trans hpage⟩
      dsimp only
      rw [hanswer, hothers, Grounds.visible, Grounds.visible, List.filter_cons]
      split_ifs <;> rfl

/-- The components with given names are shown by the grounds on the page that was chosen. -/
lemma shown (h : verdicts.RestsOn grounds) (catalogue : Catalogue) (names : List String) :
    grounds.Answered (grounds.shown catalogue verdicts.page names) verdicts.page
      (catalogue.shown names verdicts) := by
  unfold Catalogue.shown Grounds.shown
  rw [h.settings]
  split_ifs
  · exact ⟨rfl, h, rfl⟩
  · cases hpage : verdicts.page with
    | none => exact ⟨rfl, h, hpage⟩
    | some page =>
      have hvisible := h.visibleOn catalogue (some page) names
      rwa [hpage] at hvisible

/-- A registration at a trigger puts the component into the catalogue, and leaves verdicts that rest
on the grounds. -/
lemma insertOn (h : verdicts.RestsOn grounds) (catalogue : Catalogue) (trigger : Trigger)
    (component : Component) :
    (catalogue.insertOn trigger component verdicts).2.1 = catalogue.insert component ∧
      (catalogue.insertOn trigger component verdicts).2.2.RestsOn grounds := by
  unfold Catalogue.insertOn
  dsimp only
  split_ifs
  · exact ⟨rfl, (h.shown _ _).restsOn⟩
  · exact ⟨rfl, h⟩

end Verdicts.RestsOn

/-! ## Sessions -/

/-- A page in use: the components that are registered, and the verdicts so far. -/
structure Session (σ : Type) where
  catalogue : Catalogue := {}
  verdicts : Verdicts σ

namespace Session

/-- A call in a session: a change of the components, a registration at a trigger, a question about
audiences, or about the components with some names. -/
inductive Call where
  | change (update : Catalogue.Change)
  | insertOn (trigger : Trigger) (component : Component)
  | ask (question : Verdicts.Question)
  | visibleOn (page : Option String) (names : List String)

/-- The change of the components that a call makes. -/
def Call.change? : Call → Option Catalogue.Change
  | .change update => some update
  | .insertOn _ component => some (.insert component)
  | .ask _ => none
  | .visibleOn _ _ => none

/-- The components that are registered after calls, from none on. -/
def listing (calls : List Call) : Listing := .after (calls.filterMap Call.change?)

/-- A session after a call. -/
def call (session : Session σ) : Call → Session σ
  | .change update => { session with catalogue := session.catalogue.change update }
  | .insertOn trigger component =>
    let (_, catalogue, verdicts) :=
      session.catalogue.insertOn trigger component session.verdicts
    { catalogue, verdicts }
  | .ask question => { session with verdicts := (session.verdicts.answer question).2 }
  | .visibleOn page names =>
    { session with verdicts := (session.catalogue.visibleOn page names session.verdicts).2 }

/-- The session after calls, from no components and no verdicts on, with the engine as judge. -/
def after (snapshot : Snapshot) (settings : EngineSettings) (calls : List Call) : Session Unit :=
  calls.foldl call { verdicts := .ofEngine snapshot settings }

/-- All components that are shown in a session. -/
def shown (session : Session σ) : List String :=
  (session.catalogue.allShown session.verdicts).1

/-- Whether a session is sound: its catalogue agrees with a listing, its verdicts rest on grounds.
-/
structure Sound (session : Session σ) (listing : Listing) (grounds : Grounds) : Prop where
  lists : session.catalogue.Lists listing
  restsOn : session.verdicts.RestsOn grounds

variable {session : Session σ} {listing : Listing} {grounds : Grounds}

/-- A call keeps a session sound, with the listing that the call's change leaves. -/
lemma Sound.call (h : session.Sound listing grounds) (call : Call) :
    (session.call call).Sound (call.change?.elim listing listing.change) grounds := by
  cases call with
  | change update => exact ⟨h.lists.change update, h.restsOn⟩
  | insertOn trigger component =>
    obtain ⟨hcatalogue, hrests⟩ := h.restsOn.insertOn session.catalogue trigger component
    have hlists := h.lists.insert component
    rw [← hcatalogue] at hlists
    exact ⟨hlists, hrests⟩
  | ask question => exact ⟨h.lists, (h.restsOn.answer question).restsOn⟩
  | visibleOn page names =>
    exact ⟨h.lists, (h.restsOn.visibleOn session.catalogue page names).restsOn⟩

/-- Calls keep a session sound, with the listing that their changes leave.

**Proof sketch.** Induction on the calls, each of which keeps the session sound by
`Targeting.Session.Sound.call`. -/
lemma Sound.calls (h : session.Sound listing grounds) (calls : List Call) :
    (calls.foldl Session.call session).Sound
      ((calls.filterMap Call.change?).foldl Listing.change listing) grounds := by
  induction calls generalizing session listing with
  | nil => exact h
  | cons first rest ih =>
    have hrest := ih (h.call first)
    rw [List.filterMap_cons]
    cases hchange : first.change? with
    | none => rwa [hchange] at hrest
    | some update => rwa [hchange] at hrest

/-- A session with the engine as judge is sound after any calls. -/
theorem after_sound (snapshot : Snapshot) (settings : EngineSettings) (calls : List Call) :
    (after snapshot settings calls).Sound (Session.listing calls) (.ofEngine snapshot settings) :=
  Sound.calls ⟨Catalogue.empty_lists, Verdicts.ofEngine_restsOn snapshot settings⟩ calls

/-! ## What is shown -/

/-- In a sound session what is shown is what the grounds allow of the components that are
registered. -/
lemma Sound.shown (h : session.Sound listing grounds)
    (hmode : grounds.settings.builderMode = false) :
    session.shown =
      match session.verdicts.page with
      | none => []
      | some page => grounds.visible (some page) listing.components := by
  obtain ⟨hanswer, -, -⟩ := h.restsOn.shown session.catalogue session.catalogue.names
  have hall := h.lists.pick_map_id fun component hcomponent => hcomponent
  rw [Session.shown, Catalogue.allShown, hanswer, Grounds.shown.eq_def, hmode, h.lists.names, hall]
  rfl

/-- A registered component that is shown in a sound session is allowed by the grounds: no other
component has its name. -/
lemma Sound.allows_of_mem_shown (h : session.Sound listing grounds)
    (hmode : grounds.settings.builderMode = false) {component : Component}
    (hcomponent : component ∈ listing.components) (hmem : component.id ∈ session.shown) :
    ∃ page, grounds.allows (some page) component.pageAudience component.audience = true := by
  rw [h.shown hmode] at hmem
  split at hmem
  · cases hmem
  · next page _ =>
    obtain ⟨other, hother, hid⟩ := List.mem_map.1 hmem
    obtain ⟨hlisted, hallowed⟩ := List.mem_filter.1 hother
    obtain rfl := List.inj_on_of_nodup_map listing.distinct hlisted hcomponent hid
    exact ⟨page, hallowed⟩

end Session

/-- The engine allows a component on a page exactly when its page audience is the page's or open,
unless the page has none, and its own audience is open or confirmed by the report on it. -/
lemma Grounds.allows_ofEngine_iff {snapshot : Snapshot} {settings : EngineSettings}
    (hmode : settings.builderMode = false) (recorded : Bool) {page : String}
    {componentPage audience : Option String} :
    (Grounds.ofEngine snapshot settings).allows (some page) componentPage audience = true ↔
      (page = "" ∨ componentPage = some page ∨ settings.isOpen componentPage) ∧
        (settings.isOpen audience ∨
          audience.any (Engine.confirms { settings.engine with traced := recorded } snapshot)) := by
  have hholds : (Grounds.ofEngine snapshot settings).holds =
      Engine.confirms { settings.engine with traced := recorded } snapshot :=
    funext (Grounds.holds_eq_confirms snapshot settings recorded)
  rw [Grounds.allows, Grounds.allowsPage, Grounds.allowsAudience, hholds]
  simp [Grounds.ofEngine, hmode, or_assoc]

namespace Session

/-- **What is shown depends on the engine alone.** After any calls, nothing is shown if no page
audience was found. Otherwise, in the order of registration, those components are shown that are
registered, whose page audience is open or the page's, unless the page's is empty, and whose own
audience is open or confirmed by the engine's report on it, with or without steps. A component whose
audience restricts it and has no report is not shown, whatever the reason is.

**Proof sketch.** After any calls the session is sound, by `Targeting.Session.after_sound`, so what
is shown is what the grounds allow of the components that are registered. What the engine's grounds
allow is `Targeting.Grounds.allows_ofEngine_iff`. A component that is shown is allowed, and an
audience that restricts it and has no report is neither open nor confirmed. -/
theorem shown_after (snapshot : Snapshot) (settings : EngineSettings)
    (hmode : settings.builderMode = false) (recorded : Bool) (calls : List Call) :
    let engine : Engine := { settings.engine with traced := recorded }
    let session := after snapshot settings calls
    (session.verdicts.page = none → session.shown = []) ∧
      (∀ page, session.verdicts.page = some page → session.shown =
        ((listing calls).components.filter fun c =>
          (page = "" ∨ c.pageAudience = some page ∨ settings.isOpen c.pageAudience) ∧
            (settings.isOpen c.audience ∨ c.audience.any (engine.confirms snapshot))).map (·.id)) ∧
      ∀ component ∈ (listing calls).components, ∀ name error,
        component.audience = some name → settings.isOpen component.audience = false →
          engine.report snapshot name = .error error → component.id ∉ session.shown := by
  intro engine session
  have hsound := after_sound snapshot settings calls
  have hshown : session.shown = match session.verdicts.page with
      | none => []
      | some page => (Grounds.ofEngine snapshot settings).visible (some page)
          (listing calls).components := hsound.shown hmode
  refine ⟨fun hnone => by rw [hshown, hnone], fun page hpage => ?_, ?_⟩
  · rw [hshown, hpage]
    refine congrArg (List.map Component.id) (List.filter_congr fun component _ => ?_)
    rw [Bool.eq_iff_iff, decide_eq_true_iff, Grounds.allows_ofEngine_iff hmode recorded]
  · intro component hcomponent name error haudience hrestricted hreport hmem
    -- a component that is shown is allowed, and this one is neither open nor confirmed
    obtain ⟨page, hallowed⟩ := hsound.allows_of_mem_shown hmode hcomponent hmem
    rw [Grounds.allows_ofEngine_iff hmode recorded, hrestricted, haudience] at hallowed
    rcases hallowed.2 with hopen | hconfirmed
    · cases hopen
    · rw [Option.any_some, Engine.confirms, hreport] at hconfirmed
      cases hconfirmed

/-- Components that are looked at before the page's audience is known, replaced, and taken out; of
those left, one has an audience whose rule is malformed, and one an audience that refers to itself.
Two others have audiences that are empty or the sentinel, and are shown.

**Proof sketch.** The page of the session is computed. What is shown then follows from the theorem,
where only the components with the verdicts of the engine are computed, and so does that the
audience without a report hides its component. -/
theorem shown_after_replacement :
    let snapshot : Snapshot :=
      { rules := .ofList [("page", "'x' == 'x'"), ("member", "Audience == 'page'"),
          ("malformed", "'x' =="), ("cyclic", "Audience == 'cyclic'")] }
    let calls : List Call :=
      [.change (.insert { id := "a", pageAudience := some "other", trigger := .onVisible }),
        .insertOn .onLoad { id := "b", audience := some "malformed", trigger := .onLoad },
        .ask (.allowsAudience (some "cyclic")),
        .ask (.choosePage [⟨"absent", 1⟩, ⟨"page", 2⟩]),
        .insertOn .onLoad { id := "c", audience := some "cyclic", trigger := .onLoad },
        .change (.insert { id := "d", audience := some "member", trigger := .onLoad }),
        .visibleOn none ["a", "d"],
        .change (.insert { id := "a", pageAudience := some "page", trigger := .onLoad }),
        .change (.insert
          { id := "f", pageAudience := some "--NONE--", audience := some "", trigger := .onLoad }),
        .change (.insert
          { id := "g", pageAudience := some "", audience := some "--NONE--", trigger := .onLoad }),
        .change (.insert { id := "e", trigger := .onLoad }), .change (.take "e")]
    ({} : EngineSettings).builderMode = false ∧
      (after snapshot {} calls).verdicts.page = some "page" ∧
      (after snapshot {} calls).shown = ["d", "a", "f", "g"] ∧
      "c" ∉ (after snapshot {} calls).shown := by
  intro snapshot calls
  obtain ⟨-, hshown, hrestricted⟩ := shown_after snapshot {} rfl true calls
  have hpage : (after snapshot {} calls).verdicts.page = some "page" := by
    unfold snapshot calls
    decide +kernel
  refine ⟨rfl, hpage, (hshown "page" hpage).trans ?_, ?_⟩
  · unfold snapshot calls
    decide +kernel
  · refine hrestricted { id := "c", audience := some "cyclic", trigger := .onLoad } ?_ "cyclic"
      (.rule ⟨.cyclicReference "cyclic", 10⟩) rfl rfl ?_
    · unfold calls
      decide +kernel
    · unfold snapshot
      decide +kernel

end Session

end Targeting
