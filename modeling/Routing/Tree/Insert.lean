import Routing.Tree.Basic
import Routing.Route

/-!
# Inserting a route into a tree

A route is inserted by following its segments from the root. Nodes that are missing on the way are
made, and enter the edge that leads to them; those that exist keep what they hold. A parameter
enters its name, under the number of the route, at the node that it leads to, and the route's number
is put last among the routes of the node at the end of the way.
-/

namespace Routing

namespace Entry

/-- Let a route end here. -/
def addRoute (entry : Entry) (id : Nat) : Entry :=
  { entry with routes := entry.routes ++ [id] }

/-- Note the name that a route gives to the edge into this node. -/
def addName (entry : Entry) (id : Nat) (name : String) : Entry :=
  { entry with names := entry.names.insert id name }

end Entry

namespace Branches

/-- Put a new literal branch before the first one with a greater text. -/
def placeLiteral (text : String) (new : Entry × Branches) : Branches → Branches
  | .nil => .literal text new.1 new.2 .nil
  | .wildcard entry below => .literal text new.1 new.2 (.wildcard entry below)
  | .literal t entry below rest =>
    if text < t then .literal text new.1 new.2 (.literal t entry below rest)
    else .literal t entry below (rest.placeLiteral text new)

/-- Change the literal branch for a text, if there is one. -/
def modifyLiteral (text : String) (change : Entry → Branches → Entry × Branches) :
    Branches → Branches
  | .nil => .nil
  | .wildcard entry below => .wildcard entry below
  | .literal t entry below rest =>
    if t = text then
      let (entry, below) := change entry below
      .literal t entry below rest
    else .literal t entry below (rest.modifyLiteral text change)

/-- Change the literal branch for a text; a missing one is made first. -/
def alterLiteral (text : String) (change : Entry → Branches → Entry × Branches)
    (branches : Branches) : Branches :=
  if (branches.literal? text).isSome then branches.modifyLiteral text change
  else branches.placeLiteral text (change (.new (some (.literal text))) .nil)

/-- Change the wildcard branch; a missing one is made first. -/
def alterWildcard (change : Entry → Branches → Entry × Branches) : Branches → Branches
  | .nil =>
    let (entry, below) := change (.new (some .wildcard)) .nil
    .wildcard entry below
  | .wildcard entry below =>
    let (entry, below) := change entry below
    .wildcard entry below
  | .literal t entry below rest => .literal t entry below (rest.alterWildcard change)

/-- Insert a route along its segments, below a node with the given entry and branches. -/
def insert (id : Nat) : List Segment → Entry → Branches → Entry × Branches
  | [], entry, branches => (entry.addRoute id, branches)
  | .literal text :: segments, entry, branches =>
    (entry, branches.alterLiteral text (insert id segments))
  | .parameter name :: segments, entry, branches =>
    (entry, branches.alterWildcard fun e below => insert id segments (e.addName id name) below)

/-! ## Only one branch changes -/

/-- What a branch holds, or what a new one would. -/
def contentOrNew (branches : Branches) (e : Edge) : Entry × Branches :=
  (branches.branch? e).getD (.new (some e), .nil)

theorem literal?_placeLiteral (text : String) (new : Entry × Branches) (branches : Branches)
    (h : branches.literal? text = none) (t : String) :
    (branches.placeLiteral text new).literal? t =
      if t = text then some new else branches.literal? t := by
  induction branches with
  | nil => simp [placeLiteral, literal?, eq_comm]
  | wildcard entry below => simp [placeLiteral, literal?, eq_comm]
  | literal u entry below rest _ ih =>
    by_cases hu : u = text
    · simp [literal?, hu] at h
    · have hrest := ih (by simpa [literal?, hu] using h)
      by_cases hlt : text < u
      · simp [placeLiteral, hlt, literal?, eq_comm]
      · by_cases ht : u = t
        · subst ht
          simp [placeLiteral, hlt, literal?, hu]
        · simp [placeLiteral, hlt, literal?, ht, hrest]

theorem wildcard?_placeLiteral (text : String) (new : Entry × Branches) (branches : Branches) :
    (branches.placeLiteral text new).wildcard? = branches.wildcard? := by
  induction branches with
  | nil => rfl
  | wildcard entry below => rfl
  | literal u entry below rest _ ih =>
    by_cases hlt : text < u
    · simp [placeLiteral, hlt, wildcard?]
    · simp [placeLiteral, hlt, wildcard?, ih]

theorem literal?_modifyLiteral (text : String) (change : Entry → Branches → Entry × Branches)
    (branches : Branches) (t : String) :
    (branches.modifyLiteral text change).literal? t =
      if t = text then (branches.literal? text).map fun (entry, below) => change entry below
      else branches.literal? t := by
  induction branches with
  | nil => simp [modifyLiteral, literal?]
  | wildcard entry below => simp [modifyLiteral, literal?]
  | literal u entry below rest _ ih =>
    by_cases hu : u = text
    · by_cases ht : u = t
      · simp [modifyLiteral, literal?, hu, ← ht]
      · have ht' : ¬text = t := hu ▸ ht
        simp [modifyLiteral, literal?, hu, ht', eq_comm]
    · by_cases ht : u = t
      · simp [modifyLiteral, literal?, hu, ← ht]
      · simp [modifyLiteral, literal?, hu, ht, ih]

theorem wildcard?_modifyLiteral (text : String) (change : Entry → Branches → Entry × Branches)
    (branches : Branches) :
    (branches.modifyLiteral text change).wildcard? = branches.wildcard? := by
  induction branches with
  | nil => rfl
  | wildcard entry below => rfl
  | literal u entry below rest _ ih =>
    by_cases hu : u = text
    · simp [modifyLiteral, hu, wildcard?]
    · simp [modifyLiteral, hu, wildcard?, ih]

/-- Changing the literal branch for a text changes this branch alone. -/
theorem branch?_alterLiteral (text : String) (change : Entry → Branches → Entry × Branches)
    (branches : Branches) (e : Edge) :
    (branches.alterLiteral text change).branch? e =
      if e = .literal text then
        let (entry, below) := branches.contentOrNew (.literal text)
        some (change entry below)
      else branches.branch? e := by
  unfold alterLiteral contentOrNew
  cases hold : branches.literal? text with
  | none =>
    cases e with
    | wildcard => simp [branch?, wildcard?_placeLiteral]
    | literal t => simp [branch?, literal?_placeLiteral _ _ _ hold, hold]
  | some old =>
    cases e with
    | wildcard => simp [branch?, wildcard?_modifyLiteral]
    | literal t => simp [branch?, literal?_modifyLiteral, hold]

/-- Changing the wildcard branch changes this branch alone. -/
theorem branch?_alterWildcard (change : Entry → Branches → Entry × Branches)
    (branches : Branches) (e : Edge) :
    (branches.alterWildcard change).branch? e =
      if e = .wildcard then
        let (entry, below) := branches.contentOrNew .wildcard
        some (change entry below)
      else branches.branch? e := by
  unfold contentOrNew
  induction branches with
  | nil => cases e <;> simp [alterWildcard, branch?, wildcard?, literal?]
  | wildcard entry below => cases e <;> simp [alterWildcard, branch?, wildcard?, literal?]
  | literal t entry below rest _ ih =>
    cases e with
    | wildcard => simpa [alterWildcard, branch?, wildcard?] using ih
    | literal u =>
      have hrest : (rest.alterWildcard change).literal? u = rest.literal? u := by
        simpa [branch?] using ih
      simp [alterWildcard, branch?, literal?, hrest]

end Branches

namespace Node

variable {H : Type}

/-- Insert a route below the node. -/
def insert (node : Node) (route : Route H) : Node :=
  let (entry, branches) := Branches.insert route.id route.path.segments node.entry node.branches
  ⟨entry, branches⟩

/-- The tree of a list of routes. -/
def ofRoutes (routes : List (Route H)) : Node :=
  routes.foldl insert (.new none)

end Node

end Routing
