import Routing.Proofs.Descent.Matches
import Routing.Proofs.Session.Coherence

/-!
# Requests answered without trees

What a request is answered can be told from the list of routes. Begin with the routes of the method
and narrow them down piece by piece: to those with this literal at this place if there are any, else
to those with a parameter there. The answer are the routes left at the end of the URL that end there
too.

* `Narrowing.survivors` — the routes left at the end.
* `Binds` — params give every name of a path the piece at its last place, and know no other name.
* `Router.answer_from_routes` — a router answers with the survivors.
-/

namespace Routing

variable {H : Type}

namespace Narrowing

/-- The candidates for one more piece of the URL, found at an index: those with this literal there
if there are any, else those with a parameter there. -/
def narrow (candidates : List (Route H)) (index : Nat) (piece : String) : List (Route H) :=
  let exact := candidates.filter fun r => r.path.segments[index]? = some (.literal piece)
  if exact = [] then
    candidates.filter fun r => (r.path.segments[index]?.bind Segment.name?).isSome
  else exact

/-- The candidates left when all pieces from an index on have been read. -/
def narrowAll (candidates : List (Route H)) (index : Nat) : List String → List (Route H)
  | [] => candidates
  | piece :: pieces =>
    let fewer := narrow candidates index piece
    if fewer = [] then [] else narrowAll fewer (index + 1) pieces

/-- The routes for a request: those of its method, narrowed down by the pieces of the URL, which
have no segment left. -/
def survivors (routes : List (Route H)) (method url : String) : List (Route H) :=
  (narrowAll (routes.filter (·.method.token = method)) 0 (Url.pieces url)).filter
    (·.path.segments.length = (Url.pieces url).length)

end Narrowing

/-- Params give every name of a path the piece at its last place, and know no other name. -/
structure Binds (params : Params) (path : Path) (pieces : List String) : Prop where
  bound : ∀ name position, LastAt path.segments name position →
    ∃ piece, pieces[position]? = some piece ∧ params[name]? = some piece
  only : ∀ name, name ∈ params → ∃ position, LastAt path.segments name position

theorem binds_pairsAlong {path : Path} {pieces : List String}
    (hlen : path.segments.length = pieces.length) :
    Binds (Params.ofPairs (pairsAlong path.segments pieces)) path pieces := by
  constructor
  · intro name position hlast
    have hlt : position < pieces.length := hlen ▸ (List.getElem?_eq_some_iff.1 hlast.1).1
    have hpiece := List.getElem?_eq_getElem hlt
    exact ⟨pieces[position], hpiece, (getElem?_ofPairs_along hlen).2 ⟨position, hlast, hpiece⟩⟩
  · intro name hname
    rw [← Std.ExtTreeMap.isSome_getElem?_iff_mem, Option.isSome_iff_exists] at hname
    rcases hname with ⟨value, hvalue⟩
    rcases (getElem?_ofPairs_along hlen).1 hvalue with ⟨position, hlast, -⟩
    exact ⟨position, hlast⟩

/-! ## Candidates and nodes -/

/-- The routes whose shape begins with some edges. -/
def passing (routes : List (Route H)) (edges : List Edge) : List (Route H) :=
  routes.filter (edges <+: ·.path.shape)

theorem passing_nil (routes : List (Route H)) : passing routes [] = routes := by
  simp [passing]

/-- The candidates with one more edge are those with a segment of this edge at the next place. -/
theorem filter_passing {routes : List (Route H)} {edges : List Edge} {e : Edge}
    {test : Route H → Bool}
    (htest : ∀ r : Route H, test r = true ↔
      ∃ s, r.path.segments[edges.length]? = some s ∧ s.edge = e) :
    (passing routes edges).filter test = passing routes (edges ++ [e]) := by
  rw [passing, passing, List.filter_filter]
  apply List.filter_congr
  intro r _
  rw [Bool.eq_iff_iff, Bool.and_eq_true, htest, decide_eq_true_eq, decide_eq_true_eq,
    Path.concat_isPrefix_shape_iff, and_comm]

theorem passing_literal (routes : List (Route H)) (edges : List Edge) (piece : String) :
    ((passing routes edges).filter fun r =>
        r.path.segments[edges.length]? = some (.literal piece)) =
      passing routes (edges ++ [.literal piece]) := by
  apply filter_passing
  intro r
  simp [Segment.edge_eq_literal_iff]

theorem passing_wildcard (routes : List (Route H)) (edges : List Edge) :
    ((passing routes edges).filter fun r =>
        (r.path.segments[edges.length]?.bind Segment.name?).isSome) =
      passing routes (edges ++ [.wildcard]) := by
  apply filter_passing
  intro r
  cases r.path.segments[edges.length]? with
  | none => simp
  | some s => cases s <;> simp [Segment.name?, Segment.edge]

/-- An edge leads on from a node exactly when candidates are left behind it. -/
theorem child?_isSome_iff_passing {routes : List (Route H)} {edges : List Edge} {node : Node}
    (h : (Node.ofRoutes routes).at? edges = some node) (e : Edge) :
    (node.child? e).isSome ↔ passing routes (edges ++ [e]) ≠ [] := by
  rw [Node.isSome_child?_iff h, passing, ne_eq, List.filter_eq_nil_iff]
  simp

theorem passing_of_child?_eq_some {routes : List (Route H)} {edges : List Edge}
    {node child : Node} (h : (Node.ofRoutes routes).at? edges = some node) {e : Edge}
    (hchild : node.child? e = some child) :
    (Node.ofRoutes routes).at? (edges ++ [e]) = some child ∧
      passing routes (edges ++ [e]) ≠ [] := by
  constructor
  · rw [Node.at?_concat, h, Option.bind_some, hchild]
  · exact (child?_isSome_iff_passing h e).1 (by rw [hchild]; rfl)

theorem passing_of_child?_eq_none {routes : List (Route H)} {edges : List Edge} {node : Node}
    (h : (Node.ofRoutes routes).at? edges = some node) {e : Edge} (hchild : node.child? e = none) :
    passing routes (edges ++ [e]) = [] := by
  by_contra hne
  have hsome := (child?_isSome_iff_passing h e).2 hne
  rw [hchild] at hsome
  cases hsome

namespace Narrowing

/-- Narrowing the candidates down by a piece is taking a step of the descent: both come to an end,
or both go through the same edge. -/
theorem narrow_passing {routes : List (Route H)} {edges : List Edge} {node : Node}
    (h : (Node.ofRoutes routes).at? edges = some node) (piece : String) :
    (node.step? piece = none ∧ narrow (passing routes edges) edges.length piece = []) ∨
      ∃ e child, node.step? piece = some child ∧ child.via = some e ∧
        (Node.ofRoutes routes).at? (edges ++ [e]) = some child ∧
        passing routes (edges ++ [e]) ≠ [] ∧
        narrow (passing routes edges) edges.length piece = passing routes (edges ++ [e]) := by
  -- both look for the literal first, and for the wildcard only when there is no literal
  simp only [narrow, passing_literal, passing_wildcard]
  cases hliteral : node.child? (.literal piece) with
  | some child =>
    rcases passing_of_child?_eq_some h hliteral with ⟨hat, hsome⟩
    refine Or.inr ⟨.literal piece, child, ?_, Node.labelled_ofRoutes routes _ _ _ hat, hat, hsome,
      if_neg hsome⟩
    rw [Node.step?, hliteral, Option.some_or]
  | none =>
    rw [if_pos (passing_of_child?_eq_none h hliteral)]
    cases hwildcard : node.child? .wildcard with
    | some child =>
      rcases passing_of_child?_eq_some h hwildcard with ⟨hat, hsome⟩
      refine Or.inr ⟨.wildcard, child, ?_, Node.labelled_ofRoutes routes _ _ _ hat, hat, hsome, rfl⟩
      rw [Node.step?, hliteral, hwildcard, Option.none_or]
    | none =>
      refine Or.inl ⟨?_, passing_of_child?_eq_none h hwildcard⟩
      rw [Node.step?, hliteral, hwildcard, Option.none_or]

/-- Narrowing down by all pieces leaves the routes that pass where the descent ends. -/
theorem narrowAll_passing {routes : List (Route H)} {edges : List Edge} {node : Node}
    (h : (Node.ofRoutes routes).at? edges = some node) (pieces : List String) :
    narrowAll (passing routes edges) edges.length pieces =
      match node.descend pieces with
      | none => []
      | some (_, visits) => passing routes (edges ++ edgesOf visits) := by
  induction pieces generalizing edges node with
  | nil => simp [narrowAll, Node.descend_nil, edgesOf]
  | cons piece pieces ih =>
    rw [narrowAll, Node.descend]
    rcases narrow_passing h piece with ⟨hstep, hend⟩ | ⟨e, child, hstep, hvia, hat, hne, hnarrow⟩
    · simp [hstep, hend]
    · have hrest := ih hat
      rw [List.length_append, List.length_singleton] at hrest
      simp only [hstep, hnarrow, hne, if_false, Option.bind_some, hrest]
      cases child.descend pieces with
      | none => rfl
      | some found =>
        have hedges : edgesOf (⟨child, piece⟩ :: found.2) = e :: edgesOf found.2 :=
          edgesOf_cons hvia found.2
        simp [hedges]

theorem narrowAll_nil (index : Nat) (pieces : List String) :
    narrowAll ([] : List (Route H)) index pieces = [] := by
  cases pieces <;> simp [narrowAll, narrow]

/-- The survivors are the routes that end where the descent ends. -/
theorem survivors_eq (routes : List (Route H)) (method url : String) :
    survivors routes method url =
      match (Forest.ofRoutes routes).descend method url with
      | none => []
      | some (_, visits) => Forest.foundBy method routes visits := by
  have hroot := narrowAll_passing (Node.at?_nil (Node.ofRoutes (routesFor method routes)))
    (Url.pieces url)
  rw [passing_nil, List.length_nil] at hroot
  rw [survivors, Forest.descend_ofRoutes]
  show (narrowAll (routesFor method routes) 0 (Url.pieces url)).filter _ = _
  by_cases hown : routesFor method routes = []
  · simp [hown, narrowAll_nil]
  · rw [hroot, if_neg hown]
    cases hdescend : (Node.ofRoutes (routesFor method routes)).descend (Url.pieces url) with
    | none => rfl
    | some pair =>
      rcases pair with ⟨last, visits⟩
      simp only [Forest.foundBy, passing, List.nil_append, List.filter_filter]
      apply List.filter_congr
      intro r _
      rw [← Bool.decide_and, decide_eq_decide,
        ← Node.length_edgesOf (Node.labelled_ofRoutes _) hdescend, ← Path.length_shape]
      -- a shape that begins with the edges and is as long has no other edges
      constructor
      · rintro ⟨hlen, hbegins⟩
        exact (hbegins.eq_of_length hlen.symm).symm
      · intro hshape
        exact ⟨by rw [hshape], hshape ▸ List.prefix_refl _⟩

/-- The matches of a request are the survivors, if there are any. -/
theorem matches?_eq (registry : Registry H) (method url : String) :
    (Forest.ofRoutes registry.routes).matches? registry.routes method url =
      if survivors registry.routes method url = [] then none
      else some ((survivors registry.routes method url).map (matchAlong (Url.pieces url))) := by
  rw [Forest.matches?_ofRoutes, survivors_eq]
  cases (Forest.ofRoutes registry.routes).descend method url <;> rfl

end Narrowing

/-- In every state of a router a request is answered from the list of routes: with the survivors of
narrowing it down, in order of registration and each with its params, and with the error that names
the request when there are none. -/
theorem Router.answer_from_routes (operations : List (Operation H)) (method url : String) :
    (Narrowing.survivors (after operations).routes method url = [] →
      ((after operations).answer method url).value.1 = .error (.routeNotFound method url)) ∧
    (Narrowing.survivors (after operations).routes method url ≠ [] →
      ∃ found : List (Match H), ((after operations).answer method url).value.1 = .ok found ∧
        found.map (·.route) = Narrowing.survivors (after operations).routes method url ∧
        ∀ m ∈ found, Binds m.params m.route.path (Url.pieces url)) := by
  have hmatches := Narrowing.matches?_eq (after operations).registry method url
  rw [value_answer (coherent_after operations), Forest.answer]
  simp only [Router.routes, hmatches]
  constructor
  · intro hnone
    rw [if_pos hnone]
    rfl
  · intro hsome
    rw [if_neg hsome]
    refine ⟨_, rfl, ?_, ?_⟩
    · rw [List.map_map]
      exact List.map_id _
    · intro m hm
      rcases List.mem_map.1 hm with ⟨r, hr, rfl⟩
      have hlen : r.path.segments.length = (Url.pieces url).length :=
        of_decide_eq_true (List.mem_filter.1 hr).2
      exact binds_pairsAlong hlen

end Routing
