import Routing.Proofs.CommandLine.Faults
import Routing.Proofs.CommandLine.Flags
import Routing.Proofs.Descent.Trail
import Routing.Proofs.Path.Table
import Routing.Proofs.Text.Bytes

/-!
# The lines that report matches

A run that succeeds writes one line for each match. What is in a line can be told from the path of
the route and the pieces of the URL. The values of parameters may come in any order, and names and
values may hold the characters that separate them in a line: the texts are put in order as wholes,
so that one line comes of all these orders.

* `Params.Enumeration` — the pairs of a map, in some order.
* `Path.Reports` — the texts `name=value` for a path and the pieces of a URL.
* `Route.IsReport` — the line for a route and the pieces of a URL.
* `reportLine_of_enumeration` — the line is the same for all orders.
* `Command.outcome_of_matches` — all that a run writes when its request is answered.
-/

namespace Routing

variable {H : Type}

/-! ## What a line is to say -/

/-- The pairs of a map in some order, which has every name once. -/
structure Params.Enumeration (params : Params) (bindings : List (String × String)) : Prop where
  once : (bindings.map Prod.fst).Nodup
  mem_iff : ∀ name value, (name, value) ∈ bindings ↔ params[name]? = some value

/-- A text `name=value` for a name of a path. The value is the piece of the URL at the last place of
the path that has a colon with this name behind it. -/
def Path.Tells (path : Path) (pieces : List String) (name text : String) : Prop :=
  ∃ (position : Nat) (value : String),
    IsGreatest {i | path.pieces[i]? = some (":" ++ name)} position ∧
    pieces[position]? = some value ∧ text = name ++ "=" ++ value

/-- Texts tell the values of the names of a path: one text for each name, in the order of the bytes
of whole texts. -/
structure Path.Reports (path : Path) (pieces texts : List String) : Prop where
  complete : ∃ names : List String, names.Nodup ∧
    (∀ name, name ∈ names ↔ ":" ++ name ∈ path.pieces) ∧
    List.Forall₂ (path.Tells pieces) names texts
  ordered : (texts.map Text.bytes).Pairwise (· ≤ ·)

/-- The line for a route and the pieces of a URL. -/
def Route.IsReport (route : Route H) (pieces : List String) (line : String) : Prop :=
  ∃ texts, route.path.Reports pieces texts ∧
    line = "#" ++ toString route.id ++ " " ++ route.method.token ++ " " ++ route.path.text ++
      " \x7b" ++ ", ".intercalate texts ++ "\x7d\n"

/-! ## Texts of bindings -/

theorem Params.enumeration_toList (params : Params) : params.Enumeration params.toList := by
  constructor
  · exact List.pairwise_map.2 (params.distinct_keys_toList.imp (by simp))
  · intro name value
    exact Std.ExtTreeMap.mem_toList_iff_getElem?_eq_some

/-- Two orders of the pairs of a map are permutations of each other. -/
theorem Params.Enumeration.perm {params : Params} {bindings others : List (String × String)}
    (h : params.Enumeration bindings) (h' : params.Enumeration others) :
    bindings.Perm others := by
  rw [List.perm_ext_iff_of_nodup h.once.of_map h'.once.of_map]
  rintro ⟨name, value⟩
  rw [h.mem_iff, h'.mem_iff]

theorem bindingTexts_perm (bindings : List (String × String)) :
    (bindingTexts bindings).Perm (bindings.map fun (name, value) => name ++ "=" ++ value) :=
  List.mergeSort_perm _ _

theorem pairwise_bindingTexts (bindings : List (String × String)) :
    (bindingTexts bindings).Pairwise (· ≤ ·) :=
  List.pairwise_mergeSort' (· ≤ ·) _

/-- The texts are in one order, whatever the order of the bindings is. -/
theorem bindingTexts_of_perm {bindings others : List (String × String)}
    (h : bindings.Perm others) : bindingTexts bindings = bindingTexts others := by
  have hperm : (bindingTexts bindings).Perm (bindingTexts others) :=
    (bindingTexts_perm bindings).trans ((h.map _).trans (bindingTexts_perm others).symm)
  exact hperm.eq_of_pairwise' (pairwise_bindingTexts bindings) (pairwise_bindingTexts others)

/-- The line of a match is the same for all orders in which its params may be taken. -/
theorem reportLine_of_enumeration (m : Match H) {bindings : List (String × String)}
    (h : m.params.Enumeration bindings) : reportLine m.route bindings = m.line := by
  rw [Match.line, reportLine, reportLine,
    bindingTexts_of_perm (h.perm m.params.enumeration_toList)]

section Along

variable {path : Path} {pieces : List String} {bindings : List (String × String)}

/-- The params of a match are the names of its path, each with the piece at its last place. -/
theorem mem_enumeration_along_iff (hlen : path.segments.length = pieces.length)
    (henum : (Params.ofPairs (pairsAlong path.segments pieces)).Enumeration bindings)
    (name value : String) : (name, value) ∈ bindings ↔
      ∃ position, LastAt path.segments name position ∧ pieces[position]? = some value := by
  rw [henum.mem_iff, getElem?_ofPairs_along hlen]

theorem mem_names_along_iff (hlen : path.segments.length = pieces.length)
    (henum : (Params.ofPairs (pairsAlong path.segments pieces)).Enumeration bindings)
    (name : String) : name ∈ bindings.map Prod.fst ↔ ":" ++ name ∈ path.pieces := by
  rw [← Path.parameter_mem_segments_iff, List.mem_map]
  constructor
  · rintro ⟨⟨name, value⟩, hpair, rfl⟩
    rcases (mem_enumeration_along_iff hlen henum name value).1 hpair with ⟨position, hlast, -⟩
    exact List.mem_of_getElem? hlast.1
  · intro hname
    rcases existsUnique_lastAt hname with ⟨position, hlast, -⟩
    have hlt : position < pieces.length := hlen ▸ (List.getElem?_eq_some_iff.1 hlast.1).1
    have hpair := (mem_enumeration_along_iff hlen henum name pieces[position]).2
      ⟨position, hlast, List.getElem?_eq_getElem hlt⟩
    exact ⟨_, hpair, rfl⟩

/-- The texts of a match tell the values of the names of its path. -/
theorem Path.reports_bindingTexts (hlen : path.segments.length = pieces.length)
    (henum : (Params.ofPairs (pairsAlong path.segments pieces)).Enumeration bindings) :
    path.Reports pieces (bindingTexts bindings) := by
  have htells : List.Forall₂ (path.Tells pieces) (bindings.map Prod.fst)
      (bindings.map fun (name, value) => name ++ "=" ++ value) := by
    rw [List.forall₂_map_left_iff, List.forall₂_map_right_iff, List.forall₂_same]
    rintro ⟨name, value⟩ hpair
    rcases (mem_enumeration_along_iff hlen henum name value).1 hpair with ⟨position, hlast, hvalue⟩
    exact ⟨position, value, lastAt_iff_isGreatest.1 hlast, hvalue, rfl⟩
  constructor
  · -- the names in the order of the sorted texts
    have hsorted : (Relation.Comp (List.Forall₂ (path.Tells pieces)) List.Perm)
        (bindings.map Prod.fst) (bindingTexts bindings) :=
      ⟨_, htells, (bindingTexts_perm bindings).symm⟩
    rw [List.forall₂_comp_perm_eq_perm_comp_forall₂] at hsorted
    rcases hsorted with ⟨names, hperm, htold⟩
    refine ⟨names, hperm.nodup_iff.1 henum.once, ?_, htold⟩
    intro name
    rw [← hperm.mem_iff, mem_names_along_iff hlen henum]
  · refine List.pairwise_map.2 ((pairwise_bindingTexts bindings).imp ?_)
    intro text other hle
    exact Text.bytes_le_iff.2 hle

end Along

/-- A route that is as long as a URL has the line of its match. -/
theorem isReport_line {route : Route H} {pieces : List String}
    (hlen : route.path.segments.length = pieces.length) :
    route.IsReport pieces (matchAlong pieces route).line :=
  ⟨_, Path.reports_bindingTexts hlen (Params.enumeration_toList _), rfl⟩

/-! ## Runs -/

/-- Texts that can all be registered have no fault. -/
theorem Router.faultless_of_registerTexts {registry : Registry Unit} {texts : List String}
    {router : Router Unit} (h : ((ofRegistry registry).registerTexts texts).value = .ok router) :
    ∀ text ∈ texts, ∀ fault, ¬ HasFault text fault := by
  intro text htext fault hfault
  rcases exists_first_fault ⟨text, htext, fault, hfault⟩ with
    ⟨front, first, back, cause, rfl, hfront, hcause⟩
  rcases registerTexts_append registry hfront with ⟨added, routes, -, -, hregister⟩
  rw [hregister, registerTexts_cons_of_error added (readDefinition_eq_error_iff.2 hcause)] at h
  cases h

/-- The routes of a session in which texts are registered are those that the texts stand for. -/
theorem Router.routes_of_registerTexts {registry : Registry Unit} {texts : List String}
    {router : Router Unit} (h : ((ofRegistry registry).registerTexts texts).value = .ok router) :
    ∃ added, router = ofRegistry added ∧ ∃ routes, added.routes = registry.routes ++ routes ∧
      List.Forall₂ Route.IsFor texts routes := by
  rcases registerTexts_append registry (faultless_of_registerTexts h) with
    ⟨added, routes, hroutes, hfor, hregister⟩
  have hall := hregister []
  rw [List.append_nil] at hall
  rw [hall] at h
  cases h
  exact ⟨added, rfl, routes, hroutes, hfor⟩

namespace Command

/-- What a run writes whose definitions can all be registered and whose request is answered. The
routes are those of the definitions, numbered from zero. The matches are the routes left when the
request narrows them down, in order of registration. Behind the listing, if it is asked for, there
is one line for each match and nothing else. A line gives the number, the method in upper case and
the path in canonical form, and for every name of the path one text with the value that the URL
gives to its last place, in the order of bytes. Whatever order the params of a match are taken in,
its line is the same. Nothing is written to the error output but the log, and this only with
`verbose`. -/
theorem outcome_of_matches (command : Command) (write : EventWriter) (router : Router Unit)
    (found : List (Match Unit))
    (hregister : (Router.empty.registerTexts command.definitions).value = .ok router)
    (hresolve : (router.answer command.method command.url).value.1 = .ok found) :
    List.Forall₂ Route.IsFor command.definitions router.routes ∧
    router.routes.map (·.id) = List.range command.definitions.length ∧
    found.map (·.route) = Narrowing.survivors router.routes command.method command.url ∧
    List.Sublist (found.map (·.route)) router.routes ∧
    (∃ lines,
      (command.outcome write).value =
        ⟨0, (if command.listTrees then (Forest.ofRoutes router.routes).listing else "") ++
            String.join lines,
          if command.verbose then String.join (command.run.events.mapIdx write) else ""⟩ ∧
      List.Forall₂ (fun m line => m.route.IsReport (Url.pieces command.url) line ∧
        ∀ bindings, m.params.Enumeration bindings → reportLine m.route bindings = line)
        found lines) := by
  rcases Router.routes_of_registerTexts hregister with ⟨registry, rfl, routes, hroutes, hfor⟩
  obtain rfl : registry.routes = routes := hroutes
  have hcoherent := Router.coherent_ofRegistry registry
  have hanswer := Router.answer_eq hcoherent command.method command.url
  rw [hresolve] at hanswer
  -- the request is answered, so there are survivors, and their matches are the answer
  have hfound : found = (Narrowing.survivors registry.routes command.method command.url).map
      (matchAlong (Url.pieces command.url)) := by
    by_cases hnone : Narrowing.survivors registry.routes command.method command.url = []
    · have herror := hanswer.trans (congrArg _ (if_pos hnone))
      cases herror
    · have hok := hanswer.trans (congrArg _ (if_neg hnone))
      exact Except.ok.inj hok
  have hmatched : found.map (·.route) =
      Narrowing.survivors registry.routes command.method command.url := by
    rw [hfound, map_route_matchAlong]
  refine ⟨hfor, ?_, hmatched, hmatched ▸ Narrowing.survivors_sublist _ _ _,
    found.map Match.line, ?_, ?_⟩
  · rw [hfor.length_eq]
    exact registry.ids_eq_range
  · have hvalue := Router.value_answer hcoherent command.method command.url
    rw [hresolve] at hvalue
    have hrun : command.run.value = .ofAnswer
        (if command.listTrees then (Forest.ofRoutes registry.routes).listing else "")
        (.ok found : Answer Unit) := by
      rw [run, Recorded.value_bind, hregister]
      show (command.answerWith (.ofRegistry registry)).value = _
      rw [value_answerWith]
      exact congrArg (Outcome.ofAnswer _) hvalue.symm
    rw [value_outcome, hrun, ← log_eq, Outcome.ofAnswer, String.append_empty]
    rfl
  · rw [List.forall₂_map_right_iff, List.forall₂_same]
    intro m hm
    refine ⟨?_, fun _ henum => reportLine_of_enumeration m henum⟩
    rw [hfound] at hm
    rcases List.mem_map.1 hm with ⟨route, hroute, rfl⟩
    exact isReport_line (Narrowing.length_of_mem_survivors hroute)

/-- A name that comes twice has one text, and a name may hold the sign that ends it. -/
theorem outcome_of_matches_repeated_name :
    ∃ router found,
      (Router.empty.registerTexts ["get :id/x/:id", " GET\t/:a=b / x/:id "]).value = .ok router ∧
      (router.answer "GET" "/1/x/2").value.1 = .ok found ∧
      router.routes.map (·.id) = [0, 1] ∧
      ∃ lines,
        (⟨["get :id/x/:id", " GET\t/:a=b / x/:id "], "GET", "/1/x/2", true, false, false⟩ :
            Command).outcome.value = ⟨0, "" ++ String.join lines, ""⟩ ∧
          List.Forall₂ (fun m line => m.route.IsReport (Url.pieces "/1/x/2") line ∧
            ∀ bindings, m.params.Enumeration bindings → reportLine m.route bindings = line)
            found lines := by
  have hregister : (Router.empty.registerTexts ["get :id/x/:id", " GET\t/:a=b / x/:id "]).value =
      .ok (.ofRegistry (Registry.empty.addAll
        [(.get, .ofText ":id/x/:id"), (.get, .ofText "/:a=b / x/:id")])) := rfl
  have hresolve : ∃ found, ((Router.ofRegistry (Registry.empty.addAll
      [(.get, .ofText ":id/x/:id"), (.get, .ofText "/:a=b / x/:id")])).answer
        "GET" "/1/x/2").value.1 = .ok found := ⟨_, rfl⟩
  rcases hresolve with ⟨found, hresolve⟩
  rcases outcome_of_matches
      ⟨["get :id/x/:id", " GET\t/:a=b / x/:id "], "GET", "/1/x/2", true, false, false⟩ .plain _ found
      hregister hresolve with ⟨-, hids, -, -, hlines⟩
  exact ⟨_, found, hregister, hresolve, hids, hlines⟩

end Command

end Routing
