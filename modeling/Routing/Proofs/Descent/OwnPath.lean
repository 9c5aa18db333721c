import Routing.Proofs.Descent.Priority
import Routing.Proofs.Path.Canonical
import Routing.Proofs.Plan.Agreement

/-!
# The path of a route as a URL

The text of a path can itself be asked for as a URL. Its pieces are the segments of the path as they
are written, so a literal asks for itself and a parameter asks with its mark in front. No literal
begins with the mark. So at a parameter nothing goes before the wildcard, whatever other routes
there are, and the descent follows the shape of the path to its end.

* `not_passed_of_mark` — no route goes on with a literal that begins with the mark.
* `Trail.of_own_path` — the shape of a registered path is the trail of its own text.
* `Binds.getElem?_own_iff` — the values that a path takes from its own text.
* `Router.answer_own_path` — every registered route answers to its own path.
-/

namespace Routing

variable {H : Type}

/-! ## Reading the text of a path -/

/-- The pieces of the text of a path are its segments as they are written. -/
theorem Url.pieces_text (path : Path) :
    Url.pieces path.text = path.segments.map Segment.text := by
  have hback : path.segments.map Segment.text = path.pieces := by
    simp [Path.segments, Function.comp_def]
  rw [hback]
  exact Url.pieces_frame path.isPathPiece

theorem Segment.head?_text_parameter (name : String) :
    (Segment.parameter name).text.toList.head? = some parameterMark := by
  simp [Segment.text]

/-- No route goes on with a literal that begins with the mark of a parameter. -/
theorem not_passed_of_mark {routes : List (Route H)} {edges : List Edge} {piece : String}
    (hmark : piece.toList.head? = some parameterMark) :
    ¬ Passed routes (edges ++ [.literal piece]) := by
  rintro ⟨s, -, hbegins⟩
  have hedge : s.path.shape[edges.length]? = some (.literal piece) :=
    (concat_isPrefix_iff.1 hbegins).2
  have hsegment : s.path.segments[edges.length]? = some (.literal piece) :=
    Path.getElem?_shape_eq_literal_iff.1 hedge
  have hunmarked := (Path.literal_mem_segments (List.mem_of_getElem? hsegment)).2
  exact hunmarked hmark

/-- A route fits the text of its own path. -/
theorem Route.fits_own_path (r : Route H) :
    r.Fits r.method.token (r.path.segments.map Segment.text) := by
  constructor
  · rfl
  · simp
  · intro i text htext
    rw [List.getElem?_map, htext]
    rfl

/-- Where a path has a parameter, its own text begins with the mark. -/
theorem Path.head?_text_of_wildcard {path : Path} {i : Nat} {piece : String}
    (hpiece : (path.segments.map Segment.text)[i]? = some piece)
    (hwildcard : path.shape[i]? = some .wildcard) :
    piece.toList.head? = some parameterMark := by
  rcases Path.getElem?_shape_eq_wildcard_iff.1 hwildcard with ⟨name, hname⟩
  rw [List.getElem?_map, hname, Option.map_some] at hpiece
  have htext : (Segment.parameter name).text = piece := Option.some.inj hpiece
  rw [← htext]
  exact Segment.head?_text_parameter name

/-- The shape of a path is the trail of its own text, whatever routes there are beside it. -/
theorem Trail.of_own_path {own : List (Route H)} {r : Route H} (hr : r ∈ own) :
    Trail own (r.path.segments.map Segment.text) r.path.shape := by
  refine Trail.of_fits hr r.fits_own_path ?_
  intro i piece hpiece hwildcard
  have hmark := Path.head?_text_of_wildcard hpiece hwildcard
  exact not_passed_of_mark hmark

/-! ## Values taken from the text of a path -/

/-- From its own text a path gives every name the name with the mark in front. -/
theorem Binds.getElem?_own_iff {params : Params} {path : Path}
    (h : Binds params path (path.segments.map Segment.text)) {name value : String} :
    params[name]? = some value ↔
      .parameter name ∈ path.segments ∧ value = (Segment.parameter name).text := by
  -- wherever the name has its last place, the text there is the same
  have hvalue : ∀ position, LastAt path.segments name position →
      params[name]? = some (Segment.parameter name).text := by
    intro position hlast
    rcases h.bound name position hlast with ⟨piece, hpiece, hbound⟩
    rw [List.getElem?_map, hlast.1, Option.map_some] at hpiece
    have htext : (Segment.parameter name).text = piece := Option.some.inj hpiece
    rw [hbound, htext]
  constructor
  · intro hbound
    have hmem : name ∈ params := by
      rw [← Std.ExtTreeMap.isSome_getElem?_iff_mem, hbound]
      rfl
    rcases h.only name hmem with ⟨position, hlast⟩
    have hown := hvalue position hlast
    rw [hbound] at hown
    exact ⟨List.mem_of_getElem? hlast.1, Option.some.inj hown⟩
  · rintro ⟨hmem, rfl⟩
    rcases (existsUnique_lastAt hmem).exists with ⟨position, hlast⟩
    exact hvalue position hlast

/-! ## Every route is found -/

/-- The routes that answer to the path of a route are those with its method and its shape. -/
theorem Narrowing.survivors_own_path {routes : List (Route H)} {r : Route H} (hr : r ∈ routes) :
    survivors routes r.method.token r.path.text =
      routes.filter fun s => s.method = r.method ∧ s.path.shape = r.path.shape := by
  have hown : r ∈ routesFor r.method.token routes := mem_routesFor_iff.2 ⟨hr, rfl⟩
  have htrail : Trail (routesFor r.method.token routes) (Url.pieces r.path.text) r.path.shape := by
    rw [Url.pieces_text]
    exact Trail.of_own_path hown
  rw [survivors_of_trail htrail, endingAt, Routing.routesFor, List.filter_filter]
  apply List.filter_congr
  intro s _
  have hmethod : s.method.token = r.method.token ↔ s.method = r.method :=
    ⟨Method.token_injective, congrArg Method.token⟩
  rw [← Bool.decide_and, decide_eq_decide, hmethod, and_comm]

/-- In every state of a router, every registered route answers to its own path, by descent and by
plan. With it answer the routes of its method that have its shape, and no others, in the order of
registration. Each of them binds its names to the segments of the path as they are written; the
route itself binds every name to its own mark and name. -/
theorem Router.answer_own_path (operations : List (Operation H)) {r : Route H}
    (hr : r ∈ (after operations).routes) :
    ∃ found : List (Match H),
      ((after operations).answer r.method.token r.path.text).value.1 = .ok found ∧
      ((after operations).answerByPlan r.method.token r.path.text).value.1 = .ok found ∧
      found.map (·.route) = ((after operations).routes.filter fun s =>
        s.method = r.method ∧ s.path.shape = r.path.shape) ∧
      r ∈ found.map (·.route) ∧
      ∀ m ∈ found, Binds m.params m.route.path (r.path.segments.map Segment.text) ∧
        (m.route = r → ∀ name value, m.params[name]? = some value ↔
          .parameter name ∈ r.path.segments ∧ value = (Segment.parameter name).text) := by
  have hafter := coherent_after operations
  have hsurvivors := Narrowing.survivors_own_path hr
  have hmem : r ∈ Narrowing.survivors (after operations).routes r.method.token r.path.text := by
    rw [hsurvivors]
    simpa using hr
  have hanswer := answer_eq hafter r.method.token r.path.text
  rw [if_neg (List.ne_nil_of_mem hmem)] at hanswer
  have hplan := value_answerByPlan_eq hafter r.method.token r.path.text
  refine ⟨_, hanswer, hplan.trans hanswer, ?_, ?_, ?_⟩
  · rw [map_route_matchAlong, hsurvivors]
  · rw [map_route_matchAlong]
    exact hmem
  · intro m hm
    rcases List.mem_map.1 hm with ⟨s, hs, rfl⟩
    have hlen := Narrowing.length_of_mem_survivors hs
    rw [Url.pieces_text] at hlen ⊢
    have hbinds : Binds (matchAlong (r.path.segments.map Segment.text) s).params s.path
        (r.path.segments.map Segment.text) := binds_pairsAlong hlen
    refine ⟨hbinds, ?_⟩
    intro hroute name value
    have hself : s = r := hroute
    rw [hself] at hbinds ⊢
    exact hbinds.getElem?_own_iff

/-- A route with a repeated name is found behind a literal that it overlaps with, together with a
route of the same shape that has other names. -/
theorem Router.answer_own_path_overlapping :
    let operations : List (Operation Nat) := [.register ⟨"GET", "/:a/x/:a", 0⟩,
      .register ⟨"GET", "/y/x/:b", 1⟩, .register ⟨"POST", "/:a/x/:a", 2⟩,
      .register ⟨"GET", "/:b/x/:c", 3⟩]
    let r : Route Nat := ⟨0, .get, Path.ofText "/:a/x/:a", 0⟩
    r ∈ (after operations).routes ∧
      ∃ found : List (Match Nat),
        ((after operations).answer "GET" "/:a/x/:a/").value.1 = .ok found ∧
        ((after operations).answerByPlan "GET" "/:a/x/:a/").value.1 = .ok found ∧
        (found.map (·.route)).map (·.id) = [0, 3] ∧
        ∀ m ∈ found, m.route = r → m.params["a"]? = some ":a" := by
  intro operations r
  have hr : r ∈ (after operations).routes := List.mem_of_getElem? (i := 0) rfl
  rcases answer_own_path operations hr with ⟨found, hanswer, hplan, hroutes, -, hvalues⟩
  refine ⟨hr, found, hanswer, hplan, ?_, ?_⟩
  · rw [hroutes]
    rfl
  · intro m hm hown
    have hname : Segment.parameter "a" ∈ r.path.segments := by decide
    have htext : ":a" = (Segment.parameter "a").text := by decide
    exact ((hvalues m hm).2 hown "a" ":a").2 ⟨hname, htext⟩

end Routing
