import Routing.Proofs.Forest.Content

/-!
# The frame of an insertion

Inserting a route into a tree, whatever the tree holds, changes the nodes on the way of the route
and no others. A node on the way is made if it is missing. It keeps what it holds and gets one name
more if the way comes to it by a parameter, and one route more if the way ends there.

* `Node.Receives` — a node on the way before and after the insertion.
* `Node.insert_frame` — every node of a tree after an insertion.
* `Node.routes_insert_perm` — the numbers that a tree holds after an insertion, all taken together.
-/

namespace Routing

variable {H : Type}

namespace Entry

@[simp] theorem routes_noteName (entry : Entry) (id : Nat) (name : Option String) :
    (entry.noteName id name).routes = entry.routes := by
  cases name <;> rfl

@[simp] theorem routes_addRoute (entry : Entry) (id : Nat) :
    (entry.addRoute id).routes = entry.routes ++ [id] := rfl

@[simp] theorem names_addRoute (entry : Entry) (id : Nat) :
    (entry.addRoute id).names = entry.names := rfl

theorem names_noteName_none (entry : Entry) (id : Nat) :
    (entry.noteName id none).names = entry.names := rfl

/-- A note is about the number that it is entered under. -/
theorem getElem?_names_noteName (entry : Entry) (id : Nat) (name : Option String) (other : Nat) :
    (entry.noteName id name).names[other]? =
      if other = id then name.or entry.names[other]? else entry.names[other]? := by
  cases name with
  | none => simp [noteName]
  | some own =>
    by_cases hid : other = id
    · simp [noteName, addName, hid]
    · simp [noteName, addName, Std.ExtTreeMap.getElem?_insert, hid, Ne.symm hid]

end Entry

/-! ## Nodes on the way -/

namespace Node

/-- What an insertion makes of a node at the end of some edges that the route's shape begins with.

* Its label, the edge that leads to it, stays.
* The number of the route is put behind the others if its way ends here, and only then.
* Behind a wildcard the name written at this place of the route's path is entered under the number
  of the route. All other names stay, and elsewhere no name is entered.
* The branch that the way goes on through is there. The other branches, with all that lies below
  them, are as they were, and none is new. -/
structure Receives (before after : Node) (route : Route H) (edges : List Edge) : Prop where
  via : after.via = before.via
  routes : after.entry.routes =
    before.entry.routes ++ if edges = route.path.shape then [route.id] else []
  named : edges.getLast? = some .wildcard → ∃ name,
    route.path.segments[edges.length - 1]? = some (.parameter name) ∧
      after.entry.names[route.id]? = some name
  others : ∀ id, id ≠ route.id → after.entry.names[id]? = before.entry.names[id]?
  unnamed : edges.getLast? ≠ some .wildcard → after.entry.names = before.entry.names
  ahead : ∀ e, edges ++ [e] <+: route.path.shape → (after.child? e).isSome
  aside : ∀ e, ¬ edges ++ [e] <+: route.path.shape → after.child? e = before.child? e

/-- A node that would be made has no children, so the child of a node that may be missing is the
node that lies one edge further on. -/
theorem child?_atOrNew (node : Node) (edges : List Edge) (e : Edge) :
    (node.atOrNew edges).child? e = node.at? (edges ++ [e]) := by
  rw [at?_concat, atOrNew]
  cases node.at? edges with
  | none => cases e <;> rfl
  | some last => rfl

/-- What a node on the way of an insertion holds behind it. -/
theorem entry_of_at?_insert {node after : Node} {route : Route H} {edges : List Edge}
    (h : edges <+: route.path.shape) (hat : (node.insert route).at? edges = some after) :
    after.entry =
      let noted := (node.atOrNew edges).entry.noteName route.id (route.path.nameInto? edges)
      if edges = route.path.shape then noted.addRoute route.id else noted := by
  have hentry := node.entry_atOrNew_insert route edges
  rwa [if_pos h, atOrNew_of_at?_eq_some hat] at hentry

theorem names_of_at?_insert {node after : Node} {route : Route H} {edges : List Edge}
    (h : edges <+: route.path.shape) (hat : (node.insert route).at? edges = some after) :
    after.entry.names =
      ((node.atOrNew edges).entry.noteName route.id (route.path.nameInto? edges)).names := by
  rw [entry_of_at?_insert h hat]
  by_cases hend : edges = route.path.shape <;> simp [hend]

/-- A node on the way, compared with the one that was there, or with a new one. -/
theorem receives_of_at?_insert {node after : Node} {route : Route H} {edges : List Edge}
    (h : edges <+: route.path.shape) (hat : (node.insert route).at? edges = some after) :
    (node.atOrNew edges).Receives after route edges := by
  have hnames := names_of_at?_insert h hat
  have hsome := Path.nameInto?_isSome_iff route.path edges h
  have hchild : ∀ e, after.child? e = (node.insert route).at? (edges ++ [e]) := by
    intro e
    rw [at?_concat, hat, Option.bind_some]
  constructor
  case via => rw [← via_atOrNew_insert, atOrNew_of_at?_eq_some hat]
  case routes =>
    rw [entry_of_at?_insert h hat]
    by_cases hend : edges = route.path.shape <;> simp [hend]
  case named =>
    intro hlast
    rcases Option.isSome_iff_exists.1 (hsome.2 hlast) with ⟨name, hname⟩
    refine ⟨name, ((nameInto?_eq_some_iff h).1 hname).2, ?_⟩
    rw [hnames, Entry.getElem?_names_noteName, if_pos rfl, hname, Option.some_or]
  case others =>
    intro id hid
    rw [hnames, Entry.getElem?_names_noteName, if_neg hid]
  case unnamed =>
    intro hlast
    have hnone : route.path.nameInto? edges = none := by
      rw [← Option.not_isSome_iff_eq_none, hsome]
      exact hlast
    rw [hnames, hnone, Entry.names_noteName_none]
  case ahead =>
    intro e hahead
    rw [hchild, isSome_at?_insert]
    exact Or.inl hahead
  case aside =>
    intro e haside
    rw [hchild, child?_atOrNew, insert_eq_insertAlong, at?_insertAlong_of_not_isPrefix _ _ haside]

/-- Every node of a tree after an insertion, whatever the tree held before. A node at the end of
edges that the shape of the route does not begin with is there exactly if it was, and is the same
node. At the end of edges that the shape begins with there is a node: what the insertion makes of
the one that was there, or of a new one if there was none. -/
theorem insert_frame (node : Node) (route : Route H) (edges : List Edge) :
    (¬ edges <+: route.path.shape → (node.insert route).at? edges = node.at? edges) ∧
    (edges <+: route.path.shape →
      ∃ after, (node.insert route).at? edges = some after ∧
        (∀ before, node.at? edges = some before → before.Receives after route edges) ∧
        (node.at? edges = none →
          (Node.new edges.getLast?).Receives after route edges)) := by
  constructor
  · intro h
    rw [insert_eq_insertAlong, at?_insertAlong_of_not_isPrefix _ _ h]
  · intro h
    rcases Option.isSome_iff_exists.1 ((isSome_at?_insert node route edges).2 (Or.inl h)) with
      ⟨after, hat⟩
    have hreceives := receives_of_at?_insert h hat
    refine ⟨after, hat, ?_, ?_⟩
    · intro before hbefore
      rwa [atOrNew_of_at?_eq_some hbefore] at hreceives
    · intro hnone
      rwa [atOrNew, hnone, Option.getD_none] at hreceives

end Node

/-! ## All numbers of a tree -/

namespace Branches

/-- A change of a node that lets one more number be held, by the node or below it. -/
def HoldsOneMore (id : Nat) (change : Entry → Branches → Entry × Branches) : Prop :=
  ∀ entry below, ((change entry below).1.routes ++ (change entry below).2.routes).Perm
    (id :: (entry.routes ++ below.routes))

variable {id : Nat} {change : Entry → Branches → Entry × Branches}

theorem routes_placeLiteral (text : String) (new : Entry × Branches) (branches : Branches) :
    (branches.placeLiteral text new).routes.Perm
      (new.1.routes ++ new.2.routes ++ branches.routes) := by
  induction branches with
  | nil => exact List.Perm.refl _
  | wildcard entry below => exact List.Perm.refl _
  | literal t entry below rest _ ih =>
    by_cases hlt : text < t
    · rw [placeLiteral, if_pos hlt]
      exact List.Perm.refl _
    · rw [placeLiteral, if_neg hlt, routes, routes]
      exact (ih.append_left _).trans (List.perm_append_comm_assoc _ _ _)

theorem routes_modifyLiteral (h : HoldsOneMore id change) {text : String} {branches : Branches}
    (hsome : (branches.literal? text).isSome) :
    (branches.modifyLiteral text change).routes.Perm (id :: branches.routes) := by
  induction branches with
  | nil => cases hsome
  | wildcard entry below => cases hsome
  | literal t entry below rest _ ih =>
    by_cases ht : t = text
    · rw [modifyLiteral, if_pos ht]
      exact (h entry below).append_right rest.routes
    · rw [literal?, if_neg ht] at hsome
      rw [modifyLiteral, if_neg ht, routes, routes]
      exact ((ih hsome).append_left _).trans List.perm_middle

theorem routes_alterLiteral (h : HoldsOneMore id change) (text : String) (branches : Branches) :
    (branches.alterLiteral text change).routes.Perm (id :: branches.routes) := by
  rw [alterLiteral]
  by_cases hsome : (branches.literal? text).isSome
  · rw [if_pos hsome]
    exact routes_modifyLiteral h hsome
  · -- a new branch holds nothing but the number
    have hnew := h (.new (some (.literal text))) .nil
    rw [if_neg hsome]
    exact (routes_placeLiteral text _ branches).trans (hnew.append_right branches.routes)

theorem routes_alterWildcard (h : HoldsOneMore id change) (branches : Branches) :
    (branches.alterWildcard change).routes.Perm (id :: branches.routes) := by
  induction branches with
  | nil => exact h (.new (some .wildcard)) .nil
  | wildcard entry below => exact h entry below
  | literal t entry below rest _ ih =>
    rw [alterWildcard, routes, routes]
    exact (ih.append_left _).trans List.perm_middle

/-- An insertion along segments lets one more number be held. -/
theorem holdsOneMore_insert (id : Nat) (segments : List Segment) :
    HoldsOneMore id (insert id segments) := by
  induction segments with
  | nil =>
    intro entry below
    show (entry.routes ++ [id] ++ below.routes).Perm _
    rw [List.append_assoc]
    exact List.perm_middle
  | cons s segments ih =>
    intro entry below
    cases s with
    | literal text =>
      exact ((routes_alterLiteral ih text below).append_left _).trans List.perm_middle
    | parameter name =>
      -- a name is entered on the way, and no number
      have hnamed : HoldsOneMore id fun e below => insert id segments (e.addName id name) below :=
        fun e below => ih (e.addName id name) below
      exact ((routes_alterWildcard hnamed below).append_left _).trans List.perm_middle

end Branches

namespace Node

/-- A tree holds one more number after an insertion, that of the route, and the same others. -/
theorem routes_insert_perm (node : Node) (route : Route H) :
    (node.insert route).routes.Perm (route.id :: node.routes) :=
  Branches.holdsOneMore_insert route.id route.path.segments node.entry node.branches

/-- The tree of some routes holds the number of each of them, as often as they have it. -/
theorem routes_ofRoutes_perm (routes : List (Route H)) :
    (ofRoutes routes).routes.Perm (routes.map (·.id)) := by
  induction routes using List.reverseRecOn with
  | nil => exact List.Perm.refl _
  | append_singleton routes route ih =>
    rw [ofRoutes_concat, List.map_append]
    exact ((ofRoutes routes).routes_insert_perm route).trans
      ((ih.cons _).trans (List.perm_append_singleton _ _).symm)

end Node

end Routing
