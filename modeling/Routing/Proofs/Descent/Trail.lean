import Routing.Proofs.Descent.Greedy
import Routing.Proofs.Descent.Narrowing

/-!
# The way of a descent, read off the routes

In the tree of some routes a node lies at the end of some edges when a route passes there. So the
shapes of the routes decide which way a descent goes, and whether it comes to an end: `Trail` says
this without a tree. A trail is determined by the pieces of the URL, and the routes that end where
it ends are the answer.

* `trail_iff` — a trail is a descent in the tree of the routes.
* `Trail.unique` — there is at most one trail.
* `survivors_cases` — the answer to a request: the routes that end where its trail ends.
-/

namespace Routing

variable {H K : Type}

/-- A route passes the end of some edges: its shape begins with them. -/
def Passed (routes : List (Route H)) (edges : List Edge) : Prop :=
  ∃ r ∈ routes, edges <+: r.path.shape

/-- The edges through which some pieces lead in the tree of some routes: one for every piece, with a
route that passes there, and at every piece its literal, or the wildcard because no route goes on
with this literal. -/
structure Trail (routes : List (Route H)) (pieces : List String) (edges : List Edge) : Prop where
  length : edges.length = pieces.length
  passed : edges = [] ∨ Passed routes edges
  prefers : ∀ i piece, pieces[i]? = some piece →
    edges[i]? = some (.literal piece) ∨
      edges[i]? = some .wildcard ∧ ¬ Passed routes (edges.take i ++ [.literal piece])

/-! ## Routes that pass -/

theorem passed_concat_iff {routes : List (Route H)} {r : Route H} {edges : List Edge} :
    Passed (routes ++ [r]) edges ↔ Passed routes edges ∨ edges <+: r.path.shape := by
  simp [Passed, or_and_right, exists_or]

/-- Nodes of the tree lie where routes pass, and at the root. -/
theorem at?_ofRoutes_eq_none_iff {routes : List (Route H)} {edges : List Edge} :
    (Node.ofRoutes routes).at? edges = none ↔ edges ≠ [] ∧ ¬ Passed routes edges := by
  have hsome := Node.isSome_at?_ofRoutes routes edges
  rw [← not_iff_not, ← ne_eq, Option.ne_none_iff_isSome, hsome, not_and_or, not_not, not_not]
  rfl

/-! ## Trails -/

/-- A trail is a descent in the tree of the routes. -/
theorem trail_iff {routes : List (Route H)} {pieces : List String} {edges : List Edge} :
    Trail routes pieces edges ↔ ∃ last, (Node.ofRoutes routes).Descends pieces edges last := by
  have hprefers : (Node.ofRoutes routes).Prefers pieces edges ↔
      ∀ i piece, pieces[i]? = some piece →
        edges[i]? = some (.literal piece) ∨
          edges[i]? = some .wildcard ∧ ¬ Passed routes (edges.take i ++ [.literal piece]) := by
    simp [Node.Prefers, at?_ofRoutes_eq_none_iff]
  have hplace := Node.isSome_at?_ofRoutes routes edges
  simp only [Node.descends_iff_at?, exists_and_right, hprefers]
  rw [← Option.isSome_iff_exists, hplace]
  constructor
  · intro h
    exact ⟨h.passed, h.length, h.prefers⟩
  · rintro ⟨hpassed, hlength, hprefers⟩
    exact ⟨hlength, hpassed, hprefers⟩

namespace Trail

variable {routes : List (Route H)} {pieces : List String} {edges : List Edge}

/-- There is at most one trail along given pieces. -/
theorem unique {edges' : List Edge} (h : Trail routes pieces edges)
    (h' : Trail routes pieces edges') : edges = edges' := by
  rcases trail_iff.1 h with ⟨last, hdescends⟩
  rcases trail_iff.1 h' with ⟨last', hdescends'⟩
  exact (hdescends.unique hdescends').1

/-- Routes with the same shapes have the same trails. -/
theorem of_passed_iff {others : List (Route K)} (h : Trail routes pieces edges)
    (hsame : ∀ front, Passed routes front ↔ Passed others front) : Trail others pieces edges := by
  constructor
  · exact h.length
  · rcases h.passed with hnil | hpassed
    · exact Or.inl hnil
    · exact Or.inr ((hsame edges).1 hpassed)
  · intro i piece hpiece
    rcases h.prefers i piece hpiece with hliteral | ⟨hwildcard, hnone⟩
    · exact Or.inl hliteral
    · exact Or.inr ⟨hwildcard, fun hpassed => hnone ((hsame _).2 hpassed)⟩

end Trail

/-! ## Answers -/

/-- The routes that end behind some edges. -/
def endingAt (routes : List (Route H)) (edges : List Edge) : List (Route H) :=
  routes.filter (·.path.shape = edges)

theorem mem_endingAt_iff {routes : List (Route H)} {edges : List Edge} {r : Route H} :
    r ∈ endingAt routes edges ↔ r ∈ routes ∧ r.path.shape = edges := by
  simp [endingAt]

namespace Forest

/-- A request descends along a trail of the routes that answer its method, if there are any. -/
theorem descends_ofRoutes_iff {routes : List (Route H)} {method : String} {pieces : List String}
    {edges : List Edge} :
    (∃ last, (Forest.ofRoutes routes).Descends method pieces edges last) ↔
      routesFor method routes ≠ [] ∧ Trail (routesFor method routes) pieces edges := by
  rw [trail_iff]
  constructor
  · rintro ⟨last, m, root, htoken, htree, hroot⟩
    rw [routesFor_eq_routesOf (Method.ofToken?_eq_some_iff.2 htoken)]
    rcases tree?_eq_some_iff.1 htree with ⟨hown, rfl⟩
    exact ⟨hown, last, hroot⟩
  · rintro ⟨hown, last, hroot⟩
    rcases List.exists_mem_of_ne_nil _ hown with ⟨r, hr⟩
    -- the method of any of these routes has the token
    have htoken : r.method.token = method := (mem_routesFor_iff.1 hr).2
    rw [routesFor_eq_routesOf (Method.ofToken?_eq_some_iff.2 htoken)] at hown hroot
    exact ⟨last, r.method, _, htoken, tree?_eq_some_iff.2 ⟨hown, rfl⟩, hroot⟩

end Forest

namespace Narrowing

/-- The survivors of a request whose pieces have a trail are the routes that end there. -/
theorem survivors_of_trail {routes : List (Route H)} {method url : String} {edges : List Edge}
    (h : Trail (routesFor method routes) (Url.pieces url) edges) :
    survivors routes method url = endingAt (routesFor method routes) edges := by
  rw [survivors_eq]
  by_cases hown : routesFor method routes = []
  · rw [Forest.descend_ofRoutes, if_pos hown, hown]
    rfl
  · rcases Forest.descends_ofRoutes_iff.2 ⟨hown, h⟩ with ⟨last, hlast⟩
    rcases (Forest.labelled_ofRoutes routes).descends_iff.1 hlast with ⟨visits, hdescend, rfl⟩
    rw [hdescend]
    rfl

/-- Without a trail nothing survives. -/
theorem survivors_eq_nil_of_no_trail {routes : List (Route H)} {method url : String}
    (h : ∀ edges, ¬ Trail (routesFor method routes) (Url.pieces url) edges) :
    survivors routes method url = [] := by
  rw [survivors_eq]
  cases hdescend : (Forest.ofRoutes routes).descend method url with
  | none => rfl
  | some found =>
    rcases found with ⟨last, visits⟩
    have hlast := (Forest.labelled_ofRoutes routes).descends_iff.2 ⟨visits, hdescend, rfl⟩
    exact absurd (Forest.descends_ofRoutes_iff.1 ⟨last, hlast⟩).2 (h _)

theorem survivors_cases (routes : List (Route H)) (method url : String) :
    (∃ edges, Trail (routesFor method routes) (Url.pieces url) edges ∧
      survivors routes method url = endingAt (routesFor method routes) edges) ∨
    (∀ edges, ¬ Trail (routesFor method routes) (Url.pieces url) edges) ∧
      survivors routes method url = [] := by
  by_cases htrail : ∃ edges, Trail (routesFor method routes) (Url.pieces url) edges
  · rcases htrail with ⟨edges, htrail⟩
    exact Or.inl ⟨edges, htrail, survivors_of_trail htrail⟩
  · rw [not_exists] at htrail
    exact Or.inr ⟨htrail, survivors_eq_nil_of_no_trail htrail⟩

/-- The survivors stand in the order of registration. -/
theorem survivors_sublist (routes : List (Route H)) (method url : String) :
    List.Sublist (survivors routes method url) routes := by
  rcases survivors_cases routes method url with ⟨edges, -, hsurvivors⟩ | ⟨-, hsurvivors⟩
  · rw [hsurvivors]
    exact List.filter_sublist.trans (routesFor_sublist method routes)
  · rw [hsurvivors]
    exact List.nil_sublist _

theorem length_of_mem_survivors {routes : List (Route H)} {method url : String} {r : Route H}
    (h : r ∈ survivors routes method url) :
    r.path.segments.length = (Url.pieces url).length :=
  of_decide_eq_true (List.mem_filter.1 h).2

end Narrowing

/-- A coherent router answers with its survivors. -/
theorem Router.answer_eq {router : Router H} (h : router.Coherent) (method url : String) :
    (router.answer method url).value.1 =
      .ofMatches method url
        (if Narrowing.survivors router.routes method url = [] then none
        else some ((Narrowing.survivors router.routes method url).map
          (matchAlong (Url.pieces url)))) := by
  rw [value_answer h, Forest.answer]
  exact congrArg _ (Narrowing.matches?_eq router.registry method url)

end Routing
