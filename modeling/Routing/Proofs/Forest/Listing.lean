import Routing.Proofs.Forest.Content
import Routing.Proofs.Tree.Preorder

/-!
# The listing of a forest

The listing can be written down from the routes alone. For every method that a route answers it has
the token of the method, and then one line for each sequence of edges that begins the shape of such
a route. These sequences come in lexicographic order, so one comes before its continuations, and
where two first differ the literals come in the order of their bytes, before the wildcard. The order
in which nodes were made is not seen in it.

* `Listing.beginnings` — the sequences of edges, in order.
* `Listing.lineOf` — the line of a sequence of edges.
* `Forest.listing_ofRoutes` — the listing of the forest of a registry.
-/

namespace Routing

variable {H : Type}

/-! ## A listing, from the routes -/

namespace Listing

/-- All sequences of edges that begin the shape of a route, each one once, in order. -/
def beginnings (own : List (Route H)) : List (List Edge) :=
  (own.flatMap (·.path.shape.inits)).dedup.mergeSort fun edges other =>
    !decide (List.Lex Edge.Before other edges)

/-- The last of some edges in words. -/
def lastText (edges : List Edge) : String :=
  match edges.getLast? with
  | none => ""
  | some (.literal text) => text
  | some .wildcard => "*"

/-- The line of some edges in the listing of the given routes. It is indented by two spaces more
than there are edges, shows the last of them, and notes the routes of exactly this shape. Behind a
wildcard it notes, for all routes whose shapes begin with the edges, what they call it; each of them
has a name for it. -/
def lineOf (own : List (Route H)) (edges : List Edge) : String :=
  let ending := own.filter (·.path.shape = edges)
  let going := own.filter (edges <+: ·.path.shape)
  let routes :=
    if ending.isEmpty then ""
    else " routes=[" ++ ", ".intercalate (ending.map fun r => toString r.id) ++ "]"
  let names :=
    if edges.getLast? = some .wildcard then
      let pairs := going.map fun r =>
        toString r.id ++ ":" ++ (r.path.nameInto? edges).getD ""
      " params=\x7b" ++ ", ".intercalate pairs ++ "\x7d"
    else ""
  String.ofList (List.replicate (2 * (edges.length + 1)) ' ') ++ lastText edges ++ "/" ++
    routes ++ names ++ "\n"

theorem mem_beginnings_iff {own : List (Route H)} {edges : List Edge} :
    edges ∈ beginnings own ↔ ∃ r ∈ own, edges <+: r.path.shape := by
  rw [beginnings, List.mem_mergeSort, List.mem_dedup, List.mem_flatMap]
  simp only [List.mem_inits]

/-- Every beginning comes before those that follow it. -/
theorem pairwise_beginnings (own : List (Route H)) :
    (beginnings own).Pairwise (List.Lex Edge.Before) := by
  have hnodup : (beginnings own).Nodup :=
    (List.mergeSort_perm _ _).nodup_iff.2 (List.nodup_dedup _)
  have hsorted : (beginnings own).Pairwise fun edges other =>
      !decide (List.Lex Edge.Before other edges) := by
    apply List.pairwise_mergeSort
    case trans =>
      intro a b c hab hbc
      simp only [Bool.not_eq_true', decide_eq_false_iff_not] at hab hbc ⊢
      intro hca
      rcases IsOrderConnected.conn c b a hca with hcb | hba
      · exact hbc hcb
      · exact hab hba
    case total =>
      intro a b
      simp only [Bool.or_eq_true, Bool.not_eq_true', decide_eq_false_iff_not]
      by_cases hba : List.Lex Edge.Before b a
      · exact .inr (asymm hba)
      · exact .inl hba
  -- two different beginnings are in order one way or the other
  refine hsorted.imp₂ ?_ hnodup
  intro edges other hnot hne
  rcases trichotomous_of (List.Lex Edge.Before) edges other with hlt | heq | hgt
  · exact hlt
  · exact absurd heq hne
  · simp [hgt] at hnot

end Listing

/-! ## The lines of a tree -/

namespace Node

/-- The names that a node behind a wildcard knows, in the order of the routes. -/
theorem toList_names_of_at?_ofRoutes {own : List (Route H)}
    (hids : (own.map (·.id)).Pairwise (· < ·)) {node : Node} {edges : List Edge}
    (h : (ofRoutes own).at? edges = some node) (hlast : edges.getLast? = some .wildcard) :
    node.entry.names.toList = (own.filter (edges <+: ·.path.shape)).map fun r =>
      (r.id, (r.path.nameInto? edges).getD "") := by
  -- both lists ascend by number, so it is enough that they have the same members
  have hasymm : Std.Asymm fun a b : Nat × String => a.1 < b.1 := ⟨fun _ _ => Nat.lt_asymm⟩
  apply List.Pairwise.eq_of_mem_iff (r := fun a b : Nat × String => a.1 < b.1)
  case h₁ => exact Std.ExtTreeMap.ordered_keys_toList.imp Nat.compare_eq_lt.1
  case h₂ =>
    exact List.pairwise_map.2 ((List.pairwise_map.1 hids).filter _)
  case h =>
    rintro ⟨id, name⟩
    rw [Std.ExtTreeMap.mem_toList_iff_getElem?_eq_some,
      names_of_at?_ofRoutes (hids.imp Nat.ne_of_lt) h]
    constructor
    · rintro ⟨r, hr, rfl, hbegins, hname⟩
      exact List.mem_map.2 ⟨r, List.mem_filter.2 ⟨hr, by simpa using hbegins⟩, by rw [hname]; rfl⟩
    · intro hmem
      rcases List.mem_map.1 hmem with ⟨r, hgoing, hpair⟩
      rcases List.mem_filter.1 hgoing with ⟨hr, hbegins⟩
      have hbegins : edges <+: r.path.shape := of_decide_eq_true hbegins
      rcases Option.isSome_iff_exists.1 ((Path.nameInto?_isSome_iff _ _ hbegins).2 hlast) with
        ⟨written, hwritten⟩
      rw [hwritten] at hpair
      obtain ⟨rfl, rfl⟩ := hpair
      exact ⟨r, hr, rfl, hbegins, hwritten⟩

/-- The line of a node is the one that the routes give to its edges. -/
theorem line_eq_lineOf {own : List (Route H)} (hids : (own.map (·.id)).Pairwise (· < ·))
    {node : Node} {edges : List Edge} (h : (ofRoutes own).at? edges = some node)
    (hsome : ∃ r ∈ own, edges <+: r.path.shape) :
    Place.line 1 ⟨edges, node.entry⟩ = Listing.lineOf own edges := by
  have hroutes := routes_of_at?_ofRoutes h
  have hreports := reports_of_at?_ofRoutes hids h hsome
  have hdepth : 1 + edges.length = edges.length + 1 := Nat.add_comm _ _
  have htext : node.entry.text = Listing.lastText edges := by
    -- the label of the node is the last of the edges
    have hvia : node.entry.via = edges.getLast? := hreports.via
    rw [Entry.text, hvia, Listing.lastText]
    rcases edges.getLast? with - | - | - <;> rfl
  simp only [Place.line, htext, Entry.line, Entry.note, Listing.lineOf, hroutes, hdepth,
    List.isEmpty_map, List.map_map, ← String.append_assoc]
  -- what is left is to compare the names
  congr 2
  by_cases hlast : edges.getLast? = some .wildcard
  · -- a route passes, so there is a name
    have hnames := toList_names_of_at?_ofRoutes hids h hlast
    have hne : node.entry.names.isEmpty = false := by
      rcases hsome with ⟨r, hr, hbegins⟩
      have hgoing : own.filter (edges <+: ·.path.shape) ≠ [] :=
        List.ne_nil_of_mem (List.mem_filter.2 ⟨hr, by simpa using hbegins⟩)
      rw [← Std.ExtTreeMap.isEmpty_toList, hnames, List.isEmpty_map]
      simpa using hgoing
    rw [if_pos hlast, hne, hnames, List.map_map]
    rfl
  · have hempty := hreports.unnamed hlast
    simp [hempty, hlast]

/-- The edges of the places of a tree are all beginnings, in order. -/
theorem edges_places_ofRoutes {own : List (Route H)} (h : own ≠ []) :
    (ofRoutes own).places.map Place.edges = Listing.beginnings own := by
  have hordered := ordered_ofRoutes own
  apply (pairwise_places hordered).eq_of_mem_iff (Listing.pairwise_beginnings own)
  intro edges
  rw [Listing.mem_beginnings_iff, List.mem_map, ← isSome_at?_ofRoutes_iff h]
  constructor
  · rintro ⟨⟨edges, entry⟩, hplace, rfl⟩
    rcases (mem_places_iff hordered edges entry).1 hplace with ⟨last, hat, -⟩
    exact Option.isSome_of_eq_some hat
  · intro hsome
    rcases Option.isSome_iff_exists.1 hsome with ⟨last, hat⟩
    exact ⟨⟨edges, last.entry⟩, (mem_places_iff hordered edges last.entry).2 ⟨last, hat, rfl⟩, rfl⟩

theorem lines_ofRoutes {own : List (Route H)} (hids : (own.map (·.id)).Pairwise (· < ·))
    (h : own ≠ []) : (ofRoutes own).lines 1 = (Listing.beginnings own).map (Listing.lineOf own) := by
  rw [lines_eq_map_places, ← edges_places_ofRoutes h, List.map_map]
  apply List.map_congr_left
  rintro ⟨edges, entry⟩ hplace
  rcases (mem_places_iff (ordered_ofRoutes own) edges entry).1 hplace with ⟨last, hat, rfl⟩
  exact line_eq_lineOf hids hat ((isSome_at?_ofRoutes_iff h edges).1 (by simp [hat]))

/-- A literal comes before the wildcard, also one that is shown in the same way. -/
example :
    (Node.ofRoutes [⟨0, .get, .ofText "/files/:name", ()⟩, ⟨1, .get, .ofText "/files/*/", ()⟩,
        (⟨2, .get, .ofText "/files/:file/", ()⟩ : Route Unit)]).lines 1 =
      ["  /\n", "    files/\n", "      */ routes=[1]\n",
        "      */ routes=[0, 2] params=\x7b0:name, 2:file\x7d\n"] := by
  decide +kernel

end Node

namespace Forest

/-- The methods that a route answers have trees, in the order of all methods. -/
theorem trees_ofRoutes_eq_map (routes : List (Route H)) :
    (Forest.ofRoutes routes).trees =
      (Method.all.filter fun method => routesOf method routes ≠ []).map fun method =>
        (method, Node.ofRoutes (routesOf method routes)) := by
  unfold Forest.ofRoutes
  induction Method.all with
  | nil => rfl
  | cons method methods ih =>
    by_cases hown : routesOf method routes = []
    · simpa [hown] using ih
    · simpa [hown] using ih

/-- The listing of the forest of a registry, from its routes. For every method that a route answers
it has the token of the method and the lines of all beginnings of the shapes of its routes. These
come in lexicographic order, so none comes twice. The routes of a line ascend by number, and every
route that passes a wildcard has a name for it. -/
theorem listing_ofRoutes (registry : Registry H) :
    (Forest.ofRoutes registry.routes).listing =
      String.join
        ((Method.all.filter fun method => routesOf method registry.routes ≠ []).flatMap
          fun method =>
            let own := routesOf method registry.routes
            (method.token ++ "\n") :: (Listing.beginnings own).map (Listing.lineOf own)) ∧
    ∀ method,
      let own := routesOf method registry.routes
      (∀ edges, edges ∈ Listing.beginnings own ↔ ∃ r ∈ own, edges <+: r.path.shape) ∧
      (Listing.beginnings own).Pairwise (List.Lex Edge.Before) ∧
      (own.map (·.id)).Pairwise (· < ·) ∧
      ∀ r ∈ own, ∀ edges, edges <+: r.path.shape → edges.getLast? = some .wildcard →
        (r.path.nameInto? edges).isSome := by
  constructor
  · rw [listing, trees_ofRoutes_eq_map, List.flatMap_map]
    congr 1
    apply List.flatMap_congr
    intro method hmethod
    have hown : routesOf method registry.routes ≠ [] := by
      simpa using (List.mem_filter.1 hmethod).2
    have hids := registry.pairwise_ids (routesOf_sublist method registry.routes)
    exact congrArg _ (Node.lines_ofRoutes hids hown)
  · intro method own
    refine ⟨fun _ => Listing.mem_beginnings_iff, Listing.pairwise_beginnings own, ?_, ?_⟩
    · exact registry.pairwise_ids (routesOf_sublist method registry.routes)
    · intro r _ edges hbegins hlast
      exact (Path.nameInto?_isSome_iff r.path edges hbegins).2 hlast

end Forest

end Routing
