import Targeting.Json.Decode
import Targeting.Sorted.ByKey

/-!
# Navigations

What a server sends for one navigation: what it knows of the visitor, the rules of the audiences,
and which audiences may be the page's.

## Main definitions

* `Targeting.Navigation` — a navigation, with its parts `Visitor`, `AudienceRule`, `Candidate`.
* `Targeting.Navigation.decoder`, `Targeting.Navigation.toJson` — reading and writing it.
* `Targeting.rank` — candidates in the order in which they are tried.
-/

set_option autoImplicit false

namespace Targeting

/-! ## The parts -/

/-- Where a visitor is. -/
structure Place where
  country : Option String := none
  state : Option String := none
  city : Option String := none
deriving DecidableEq, Inhabited

/-- What a navigation says of the visitor. -/
structure Visitor where
  profile : Option String := none
  role : Option String := none
  permissions : List String := []
  place : Option Place := none
  /-- The records of each object, as they were sent. -/
  records : Dict (List Json) := ∅
deriving Inhabited

/-- The rule of an audience. -/
structure AudienceRule where
  audience : String
  rule : Option String := none
deriving DecidableEq, Inhabited

/-- An audience that may be the page's. Those with smaller numbers are tried first. -/
structure Candidate where
  audience : String
  priority : Int64 := 0
deriving DecidableEq, Inhabited

/-- What a server sends for one navigation. -/
structure Navigation where
  visitor : Visitor := {}
  rules : List AudienceRule := []
  candidates : List Candidate := []
deriving Inhabited

/-- Candidates in the order in which they are tried; equal priorities keep their order. -/
def rank (candidates : List Candidate) : List Candidate :=
  sortByKey (·.priority.toInt) candidates

/-- The candidates of a navigation in the order in which they are tried. -/
def Navigation.ranked (navigation : Navigation) : List Candidate := rank navigation.candidates

/-! ## Reading -/

open Json

/-- Reads a place. -/
def Place.decoder : Decoder Place := record
  [⟨"country", false, fun d p => do return { p with country := ← optional text d }⟩,
   ⟨"state", false, fun d p => do return { p with state := ← optional text d }⟩,
   ⟨"city", false, fun d p => do return { p with city := ← optional text d }⟩] {}

/-- Reads what is said of a visitor. -/
def Visitor.decoder : Decoder Visitor := record
  [⟨"profile", false, fun d v => do return { v with profile := ← optional text d }⟩,
   ⟨"role", false, fun d v => do return { v with role := ← optional text d }⟩,
   ⟨"permissions", false, fun d v => do return { v with permissions := ← list text d }⟩,
   ⟨"location", false, fun d v => do return { v with place := ← optional Place.decoder d }⟩,
   ⟨"dataBySObjectType", false,
    fun d v => do return { v with records := ← dict (list Document.toJson) d }⟩] {}

/-- Reads the rule of an audience. -/
def AudienceRule.decoder : Decoder AudienceRule := record
  [⟨"audienceId", true, fun d r => do return { r with audience := ← text d }⟩,
   ⟨"audienceRule", false, fun d r => do return { r with rule := ← optional text d }⟩]
  { audience := "" }

/-- Reads a candidate. -/
def Candidate.decoder : Decoder Candidate := record
  [⟨"audienceId", true, fun d c => do return { c with audience := ← text d }⟩,
   ⟨"audienceRulePriority", false, fun d c => do return { c with priority := ← int64 d }⟩]
  { audience := "" }

/-- Reads a navigation. -/
def Navigation.decoder : Decoder Navigation := record
  [⟨"context", false, fun d n => do return { n with visitor := ← Visitor.decoder d }⟩,
   ⟨"rules", false, fun d n => do return { n with rules := ← list AudienceRule.decoder d }⟩,
   ⟨"rulesWithPriority", false,
    fun d n => do return { n with candidates := ← list Candidate.decoder d }⟩] {}

/-! ## Writing -/

/-- A place as a value. -/
def Place.toJson (place : Place) : Json := .ofFields
  [("country", .ofText? place.country), ("state", .ofText? place.state),
   ("city", .ofText? place.city)]

/-- What is said of a visitor, as a value. -/
def Visitor.toJson (visitor : Visitor) : Json := .ofFields
  [("profile", .ofText? visitor.profile), ("role", .ofText? visitor.role),
   ("permissions", .ofTexts visitor.permissions),
   ("location", (visitor.place.map Place.toJson).getD .null),
   ("dataBySObjectType", .ofDict .array visitor.records)]

/-- The rule of an audience as a value. -/
def AudienceRule.toJson (rule : AudienceRule) : Json := .ofFields
  [("audienceId", .string rule.audience), ("audienceRule", .ofText? rule.rule)]

/-- A candidate as a value. -/
def Candidate.toJson (candidate : Candidate) : Json := .ofFields
  [("audienceId", .string candidate.audience),
   ("audienceRulePriority", .ofInt candidate.priority.toInt)]

/-- A navigation as a value. -/
def Navigation.toJson (navigation : Navigation) : Json := .ofFields
  [("context", navigation.visitor.toJson),
   ("rules", .array (navigation.rules.map AudienceRule.toJson)),
   ("rulesWithPriority", .array (navigation.candidates.map Candidate.toJson))]

end Targeting
