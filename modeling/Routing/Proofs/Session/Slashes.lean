import Routing.Proofs.Plan.Calls
import Routing.Proofs.Session.Extension

/-!
# Slashes in the URL of a request

A request is answered from the pieces of its URL. Slashes at the start of a URL, at its end and
beside other slashes stand around pieces that are empty, so they have no influence. A descent is
given the pieces at once; a plan reads them with a cursor that comes to other places in a URL with
other slashes, and finds the same there, since it has the same pieces left.

* `Url.MoreSlashes` — a URL is another one with more slashes.
* `Call.hits_of_left_eq` — a routine finds the same with any cursor that has the same pieces left.
* `Answer.SameOutcome` — two requests find the same matches, or both find none.
* `Router.answers_of_more_slashes` — more slashes leave the outcome of a request as it is.
-/

namespace Routing

variable {H : Type}

/-! ## More slashes -/

namespace Url

open Text (slash)

/-- A URL is another one with more slashes: each of them was put at the start, at the end, or beside
a slash that was there. -/
inductive MoreSlashes (url : String) : String → Prop where
  | same : MoreSlashes url url
  | start {more : String} (h : MoreSlashes url more) : MoreSlashes url ("/" ++ more)
  | finish {more : String} (h : MoreSlashes url more) : MoreSlashes url (more ++ "/")
  | beside (front back : String) (h : MoreSlashes url (front ++ "/" ++ back)) :
      MoreSlashes url (front ++ "//" ++ back)

/-- The pieces on both sides of a text that begins with a slash. -/
theorem pieces_append_slash (front back : String) :
    pieces (front ++ "/" ++ back) = pieces front ++ pieces back := by
  have hcut := Text.pieces_append_slash front.toList back.toList
  simp only [pieces, String.toList_append, List.append_assoc]
  rw [← List.map_append, ← hcut]
  rfl

theorem pieces_empty : pieces "" = [] := rfl

/-- More slashes leave the pieces as they are. -/
theorem MoreSlashes.pieces_eq {url more : String} (h : MoreSlashes url more) :
    pieces more = pieces url := by
  induction h with
  | same => rfl
  | @start more _ ih =>
    have hfront := pieces_append_slash "" more
    rw [String.empty_append, pieces_empty, List.nil_append] at hfront
    rw [hfront, ih]
  | @finish more _ ih =>
    have hback := pieces_append_slash more ""
    rw [String.append_empty, pieces_empty, List.append_nil] at hback
    rw [hback, ih]
  | beside front back _ ih =>
    -- between the two slashes stands an empty piece
    have htwo : front ++ "//" ++ back = front ++ "/" ++ "" ++ "/" ++ back := by
      simp [String.append_assoc]
    rw [← ih, htwo, pieces_append_slash, pieces_append_slash, pieces_append_slash, pieces_empty,
      List.append_nil]

end Url

/-! ## The same pieces -/

/-- A routine finds the same with any cursor that has the same pieces left, wherever it stands. -/
theorem Call.hits_of_left_eq (routine : Routine) {cursor other : Url.Cursor}
    (captured : List String) (h : cursor.left = other.left) :
    hits ⟨routine, cursor, captured⟩ = hits ⟨routine, other, captured⟩ := by
  -- by induction on the pieces that are left: both cursors give the same one and leave the same
  generalize hleft : cursor.left = pieces
  induction pieces generalizing routine cursor other captured with
  | nil =>
    have hcursor := enter_of_left_nil routine.endings routine.choice.isStop routine.choice.go
      captured hleft
    have hother := enter_of_left_nil routine.endings routine.choice.isStop routine.choice.go
      captured (h.symm.trans hleft)
    exact hcursor.trans hother.symm
  | cons piece pieces ih =>
    have hother : other.left = piece :: pieces := h.symm.trans hleft
    have hbehind : cursor.next.2.left = pieces := by
      rw [cursor.next_of_left.2, hleft, List.tail_cons]
    have hsame : cursor.next.2.left = other.next.2.left := by
      rw [hbehind, other.next_of_left.2, hother, List.tail_cons]
    have hgo : hits ⟨routine, cursor, captured⟩ = _ := hits_of_left_cons hleft
    have hgo' : hits ⟨routine, other, captured⟩ = _ := hits_of_left_cons hother
    rw [hgo, hgo']
    cases routine.choice.branch? piece with
    | none => rfl
    | some found => exact ih found.2 _ hsame hbehind

namespace Plan

/-- A plan finds the same for URLs with the same pieces. -/
theorem matches?_of_pieces_eq (plan : Plan) (routes : List (Route H)) (method : String)
    {url other : String} (h : Url.pieces url = Url.pieces other) :
    plan.matches? routes method url = plan.matches? routes method other := by
  have hhits : ∀ routine : Routine, routine.hits url = routine.hits other := by
    intro routine
    exact Call.hits_of_left_eq routine [] h
  simp only [matches?, hhits]

end Plan

namespace Forest

/-- A descent finds the same for URLs with the same pieces. -/
theorem matches?_of_pieces_eq (forest : Forest) (routes : List (Route H)) (method : String)
    {url other : String} (h : Url.pieces url = Url.pieces other) :
    forest.matches? routes method url = forest.matches? routes method other := by
  simp only [matches?, descend, h]

end Forest

/-! ## The same outcome -/

/-- Two requests of a method have the same outcome: they find the same matches, or both find none
and each is answered by the error that names its own URL. -/
inductive Answer.SameOutcome (method url other : String) : Answer H → Answer H → Prop where
  | found (ms : List (Match H)) : SameOutcome method url other (.ok ms) (.ok ms)
  | notFound : SameOutcome method url other (.error (.routeNotFound method url))
      (.error (.routeNotFound method other))

theorem Answer.sameOutcome_ofMatches (method url other : String)
    (found : Option (List (Match H))) :
    SameOutcome method url other (ofMatches method url found) (ofMatches method other found) := by
  cases found with
  | none => exact .notFound
  | some ms => exact .found ms

namespace Router

/-- More slashes at the start of a URL, at its end or beside its slashes leave the outcome of a
request as it is, by descent and by plan, whatever the router holds. -/
theorem answers_of_more_slashes (router : Router H) (method : String) {url more : String}
    (h : Url.MoreSlashes url more) :
    Answer.SameOutcome method url more (router.answer method url).value.1
        (router.answer method more).value.1 ∧
      Answer.SameOutcome method url more (router.answerByPlan method url).value.1
        (router.answerByPlan method more).value.1 := by
  have hpieces : Url.pieces url = Url.pieces more := h.pieces_eq.symm
  constructor
  · have hfound := router.needForest.value.matches?_of_pieces_eq router.routes method hpieces
    show Answer.SameOutcome method url more
      (.ofMatches method url (router.needForest.value.matches? router.routes method url))
      (.ofMatches method more (router.needForest.value.matches? router.routes method more))
    rw [hfound]
    exact Answer.sameOutcome_ofMatches method url more _
  · rcases hplan : router.needPlan.value with ⟨plan, after⟩
    have hfound := plan.matches?_of_pieces_eq after.routes method hpieces
    have hanswer : ∀ url, (router.answerByPlan method url).value.1 =
        .ofMatches method url (plan.matches? after.routes method url) := by
      intro url
      simp [answerByPlan, hplan, Plan.answer]
    rw [hanswer, hanswer, hfound]
    exact Answer.sameOutcome_ofMatches method url more _

/-- A slash at the start, one at the end, and two beside a slash between two pieces. -/
theorem answers_of_more_slashes_doubled :
    let router : Router Nat := after [.register ⟨"GET", "/posts/:id", 0⟩]
    Url.MoreSlashes "posts/7" "/posts///7/" ∧
      (router.answer "GET" "posts/7").value.1.found.map (·.route.id) = [0] ∧
      Answer.SameOutcome "GET" "posts/7" "/posts///7/" (router.answer "GET" "posts/7").value.1
        (router.answer "GET" "/posts///7/").value.1 := by
  intro router
  have hinside : Url.MoreSlashes "posts/7" "posts///7" :=
    .beside "posts/" "7" (.beside "posts" "7" .same)
  have hend : Url.MoreSlashes "posts/7" "posts///7/" := .finish hinside
  have hmore : Url.MoreSlashes "posts/7" "/posts///7/" := .start hend
  exact ⟨hmore, rfl, (router.answers_of_more_slashes "GET" hmore).1⟩

end Router

end Routing
