import Routing.Proofs.Descent.Correspondence
import Routing.Proofs.Session.Extension
import Routing.Proofs.Session.Order

/-!
# Names of parameters and handlers

Names say under which key a piece of the URL is handed over, and handlers are handed back as they
are. Neither has a part in finding the routes for a request: definitions that differ in names and
handlers alone become routes with the same numbers, methods and shapes, and requests find the same
numbers. A value is that of a place, whatever the name there is.

* `Definition.SameForm` — two definitions differ at most in names and handlers.
* `Match.SameValues` — two matches have the same number, and the same value for every place whose
  name counts in both.
* `Router.answers_of_same_form` — routers with such definitions answer by such matches.
-/

namespace Routing

variable {H K : Type}

/-! ## The same form -/

/-- Two definitions name the same method, or none, and their paths have the same shape. -/
structure Definition.SameForm (d : Definition H) (d' : Definition K) : Prop where
  method : (Method.parse d.method).toOption = (Method.parse d'.method).toOption
  shape : (Path.ofText d.path).shape = (Path.ofText d'.path).shape

/-- Two routes have the same number, the same method and the same shape. -/
structure Route.SameForm (r : Route H) (s : Route K) : Prop where
  id : r.id = s.id
  method : r.method = s.method
  shape : r.path.shape = s.path.shape

/-- Two contents have the same method and the same shape. -/
def SameFormContent (c : Method × Path × H) (c' : Method × Path × K) : Prop :=
  c.1 = c'.1 ∧ c.2.1.shape = c'.2.1.shape

/-- Definitions of the same form are both refused, or become routes of the same form. -/
theorem Definition.SameForm.content? {d : Definition H} {d' : Definition K} (h : d.SameForm d') :
    Option.Rel SameFormContent d.content? d'.content? := by
  have hmethod := h.method
  rw [Definition.content?, Definition.content?]
  cases hparse : Method.parse d.method with
  | error cause =>
    cases hparse' : Method.parse d'.method with
    | error cause' => exact .none
    | ok method' =>
      rw [hparse, hparse'] at hmethod
      cases hmethod
  | ok method =>
    cases hparse' : Method.parse d'.method with
    | error cause' =>
      rw [hparse, hparse'] at hmethod
      cases hmethod
    | ok method' =>
      rw [hparse, hparse'] at hmethod
      have hsame : method = method' := Option.some.inj hmethod
      exact .some ⟨hsame, h.shape⟩

namespace Registry

/-- Registries whose routes have the same methods and shapes have routes of the same form: a number
is a place. -/
theorem sameForm_of_contents {registry : Registry H} {other : Registry K}
    (h : List.Forall₂ SameFormContent (registry.routes.map Route.content)
      (other.routes.map Route.content)) :
    List.Forall₂ Route.SameForm registry.routes other.routes := by
  rw [List.forall₂_map_left_iff, List.forall₂_map_right_iff, List.forall₂_iff_get] at h
  rcases h with ⟨hlen, hcontents⟩
  rw [List.forall₂_iff_get]
  refine ⟨hlen, ?_⟩
  intro i hi hi'
  rcases hcontents i hi hi' with ⟨hmethod, hshape⟩
  have hid : (registry.routes.get ⟨i, hi⟩).id = i :=
    registry.numbered (List.getElem?_eq_getElem hi)
  have hid' : (other.routes.get ⟨i, hi'⟩).id = i :=
    other.numbered (List.getElem?_eq_getElem hi')
  exact ⟨hid.trans hid'.symm, hmethod, hshape⟩

end Registry

/-- Definitions of the same form, registered in the same order, become routes of the same form. -/
theorem Router.sameForm_after {ds : List (Definition H)} {ds' : List (Definition K)}
    (h : List.Forall₂ Definition.SameForm ds ds') :
    List.Forall₂ Route.SameForm (after (ds.map .register)).routes
      (after (ds'.map .register)).routes := by
  apply Registry.sameForm_of_contents
  have hcontents : List.Forall₂ SameFormContent (ds.filterMap Definition.content?)
      (ds'.filterMap Definition.content?) := by
    refine List.rel_filterMap ?_ h
    intro d d' hform
    exact hform.content?
  rw [← Router.contents_after, ← Router.contents_after] at hcontents
  exact hcontents

/-- Among routes of the same form those of a method have the same form. -/
theorem routesFor_sameForm {routes : List (Route H)} {others : List (Route K)}
    (h : List.Forall₂ Route.SameForm routes others) (token : String) :
    List.Forall₂ Route.SameForm (routesFor token routes) (routesFor token others) := by
  refine List.rel_filter ?_ h
  intro r s hrs
  simp [hrs.method]

/-! ## The same values -/

/-- Two matches of a request have routes with the same number. Wherever a name of the one and a name
of the other have their last place, both have the value that the URL has there. -/
structure Match.SameValues (url : String) (m : Match H) (m' : Match K) : Prop where
  id : m.route.id = m'.route.id
  values : ∀ position name name', LastAt m.route.path.segments name position →
    LastAt m'.route.path.segments name' position →
    ∃ piece, (Url.pieces url)[position]? = some piece ∧ m.params[name]? = some piece ∧
      m'.params[name']? = some piece

/-- Routes of the same form, as matches of a URL, have the same values. -/
theorem Route.SameForm.sameValues {r : Route H} {s : Route K} (h : r.SameForm s) {url : String}
    (hlen : r.path.segments.length = (Url.pieces url).length) :
    Match.SameValues url (matchAlong (Url.pieces url) r) (matchAlong (Url.pieces url) s) := by
  have hlen' : s.path.segments.length = (Url.pieces url).length := by
    rw [← hlen, ← Path.length_shape, ← Path.length_shape, h.shape]
  have hbinds := binds_pairsAlong hlen
  have hbinds' := binds_pairsAlong hlen'
  refine ⟨h.id, ?_⟩
  intro position name name' hlast hlast'
  rcases hbinds.bound name position hlast with ⟨piece, hpiece, hvalue⟩
  rcases hbinds'.bound name' position hlast' with ⟨piece', hpiece', hvalue'⟩
  -- both names take the piece of the URL at this place
  have hsame : piece' = piece := Option.some.inj (hpiece'.symm.trans hpiece)
  rw [hsame] at hvalue'
  exact ⟨piece, hpiece, hvalue, hvalue'⟩

namespace Router

/-- Routers whose definitions agree, one after the other, in method and shape, answer every request
alike, by descent and by plan: both refuse it, or they return routes with the same numbers in the
same order, with the same value for every place whose name counts in both. The names of parameters
and the handlers have no influence. -/
theorem answers_of_same_form {ds : List (Definition H)} {ds' : List (Definition K)}
    (h : List.Forall₂ Definition.SameForm ds ds') (method url : String) :
    let router := after (ds.map .register)
    let other := after (ds'.map .register)
    Answer.Corresponds (Match.SameValues url) method url (router.answer method url).value.1
        (other.answer method url).value.1 ∧
      Answer.Corresponds (Match.SameValues url) method url
        (router.answerByPlan method url).value.1 (other.answerByPlan method url).value.1 := by
  intro router other
  have hrouter : router.Coherent := coherent_after _
  have hother : other.Coherent := coherent_after _
  have hroutes := routesFor_sameForm (sameForm_after h) method
  refine answers_corresponding (Match.SameValues url) hrouter hother ?_ ?_ hroutes
  · intro r s hrs
    exact hrs.shape
  · intro r s hlen hrs
    exact hrs.sameValues hlen

/-- Two names of a path become one, and the names of another change places; the same numbers are
found, and the place that counts in both keeps its value. -/
theorem answers_of_same_form_merged :
    let ds : List (Definition Nat) := [⟨"GET", "/:a/x/:b", 0⟩, ⟨"get", "/:id/x/:key", 1⟩]
    let ds' : List (Definition String) :=
      [⟨"GET", "/:n/x/:n", "first"⟩, ⟨"GET", "/:key/x/:id", "second"⟩]
    List.Forall₂ Definition.SameForm ds ds' ∧
      ((after (ds.map .register)).answer "GET" "/1/x/2").value.1.found.map (·.route.id) = [0, 1] ∧
      ((after (ds'.map .register)).answer "GET" "/1/x/2").value.1.found.map (·.route.id) =
        [0, 1] ∧
      Answer.Corresponds (Match.SameValues "/1/x/2") "GET" "/1/x/2"
        ((after (ds.map .register)).answer "GET" "/1/x/2").value.1
        ((after (ds'.map .register)).answer "GET" "/1/x/2").value.1 := by
  intro ds ds'
  have hform : List.Forall₂ Definition.SameForm ds ds' :=
    .cons ⟨rfl, by decide⟩ (.cons ⟨rfl, by decide⟩ .nil)
  exact ⟨hform, rfl, rfl, (answers_of_same_form hform "GET" "/1/x/2").1⟩

end Router

end Routing
