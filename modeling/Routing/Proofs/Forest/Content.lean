import Routing.Proofs.Registry.Numbering
import Routing.Proofs.Tree.Content
import Routing.Proofs.Tree.Ordered

/-!
# The forest of a registry

The forest of registered routes, read off the routes: which methods have a tree, which sequences of
edges lead to a node of it, and what each node holds.

* `Node.Reports` — a node says what the routes of its method have to say at the end of some edges.
* `Forest.ofRoutes_content` — the forest of a registry, node by node.
-/

namespace Routing

variable {H : Type}

/-! ## The tree of a method -/

namespace Forest

/-- Looking up one method among those for which something was made. -/
theorem lookup_filterMap {α : Type} (make : Method → Option α) (method : Method)
    (methods : List Method) :
    (methods.filterMap fun m => (make m).map (m, ·)).lookup method =
      if method ∈ methods then make method else none := by
  induction methods with
  | nil => rfl
  | cons m methods ih =>
    by_cases hm : method = m
    · subst hm
      cases hmade : make method with
      | none => simp [hmade, ih]
      | some value => simp [hmade]
    · have hne : (method == m) = false := by simpa using hm
      cases hmade : make m with
      | none => simp [hmade, ih, hm]
      | some value => simp [hmade, List.lookup_cons, hne, ih, hm]

/-- The tree made for a method, if any. -/
def treeFor? (routes : List (Route H)) (method : Method) : Option Node :=
  if routesOf method routes = [] then none else some (Node.ofRoutes (routesOf method routes))

theorem trees_ofRoutes (routes : List (Route H)) :
    (Forest.ofRoutes routes).trees =
      Method.all.filterMap fun m => (treeFor? routes m).map (m, ·) := by
  unfold Forest.ofRoutes
  apply List.filterMap_congr
  intro m _
  by_cases hown : routesOf m routes = [] <;> simp [treeFor?, hown]

/-- A method has a tree when a route answers it: the tree of the routes of this method. -/
theorem tree?_ofRoutes (routes : List (Route H)) (method : Method) :
    (Forest.ofRoutes routes).tree? method = treeFor? routes method := by
  rw [tree?, trees_ofRoutes, lookup_filterMap, if_pos (Method.mem_all method)]

theorem tree?_eq_some_iff {routes : List (Route H)} {method : Method} {root : Node} :
    (Forest.ofRoutes routes).tree? method = some root ↔
      routesOf method routes ≠ [] ∧ root = Node.ofRoutes (routesOf method routes) := by
  rw [tree?_ofRoutes, treeFor?]
  by_cases hown : routesOf method routes = []
  · simp [hown]
  · simp [hown, eq_comm]

theorem isSome_tree?_iff {routes : List (Route H)} {method : Method} :
    ((Forest.ofRoutes routes).tree? method).isSome ↔ ∃ r ∈ routes, r.method = method := by
  rw [tree?_ofRoutes, treeFor?, ← routesOf_ne_nil_iff]
  by_cases hown : routesOf method routes = []
  · simp [hown]
  · simp [hown]

/-- All trees are labelled. -/
def Labelled (forest : Forest) : Prop :=
  ∀ method root, forest.tree? method = some root → root.Labelled

theorem labelled_ofRoutes (routes : List (Route H)) : (Forest.ofRoutes routes).Labelled := by
  intro method root htree
  rcases tree?_eq_some_iff.1 htree with ⟨-, rfl⟩
  exact Node.labelled_ofRoutes _

end Forest

/-! ## What a node holds -/

/-- A node at the end of some edges says what the given routes have to say there.

* Its label is the last of the edges, and the root has none.
* The routes that end there are those of this shape, in ascending order.
* Behind a wildcard it knows, for every route that passes and for no other, the name written at
  this place of the route's path; elsewhere it knows no name.
* Its literal branches have different texts, each one that a literal segment can have.
* If nothing lies below it, a route ends there. -/
structure Node.Reports (node : Node) (edges : List Edge) (own : List (Route H)) : Prop where
  via : node.via = edges.getLast?
  routes : node.entry.routes = (own.filter (·.path.shape = edges)).map (·.id)
  ascending : node.entry.routes.Pairwise (· < ·)
  unnamed : edges.getLast? ≠ some .wildcard → node.entry.names = ∅
  named : edges.getLast? = some .wildcard →
    ∀ id, id ∈ node.entry.names ↔ ∃ r ∈ own, r.id = id ∧ edges <+: r.path.shape
  names : edges.getLast? = some .wildcard → ∀ r ∈ own, edges <+: r.path.shape →
    ∃ name, r.path.segments[edges.length - 1]? = some (.parameter name) ∧
      node.entry.names[r.id]? = some name
  distinct : node.branches.literals.Nodup
  texts : ∀ text ∈ node.branches.literals,
    text ≠ "" ∧ Text.slash ∉ text.toList ∧ text.toList.head? ≠ some parameterMark
  leaf : node.isLeaf → node.entry.routes ≠ []

namespace Node

theorem via_of_at?_ofRoutes {routes : List (Route H)} {node : Node} {edges : List Edge}
    (h : (ofRoutes routes).at? edges = some node) : node.via = edges.getLast? := by
  rw [← via_atOrNew_ofRoutes routes edges, atOrNew_of_at?_eq_some h]

/-- A name that a node knows is that of a route which passes through it. -/
theorem names_of_at?_ofRoutes {routes : List (Route H)} (hids : (routes.map (·.id)).Nodup)
    {node : Node} {edges : List Edge} (h : (ofRoutes routes).at? edges = some node) (id : Nat)
    (name : String) :
    node.entry.names[id]? = some name ↔
      ∃ r ∈ routes, r.id = id ∧ edges <+: r.path.shape ∧ r.path.nameInto? edges = some name := by
  rw [← names_atOrNew_ofRoutes routes hids edges id name, atOrNew_of_at?_eq_some h]

/-- What a node calls a route that passes through it is what the route's own path says. -/
theorem names_of_mem {routes : List (Route H)} (hids : (routes.map (·.id)).Nodup) {node : Node}
    {edges : List Edge} (h : (ofRoutes routes).at? edges = some node) {r : Route H}
    (hr : r ∈ routes) (hbegins : edges <+: r.path.shape) :
    node.entry.names[r.id]? = r.path.nameInto? edges := by
  apply Option.ext
  intro name
  rw [names_of_at?_ofRoutes hids h]
  constructor
  · rintro ⟨s, hs, hid, -, hname⟩
    -- two routes of one number are the same route
    obtain rfl : s = r := List.inj_on_of_nodup_map hids hs hr hid
    exact hname
  · intro hname
    exact ⟨r, hr, rfl, hbegins, hname⟩

theorem routes_of_at?_ofRoutes {routes : List (Route H)} {node : Node} {edges : List Edge}
    (h : (ofRoutes routes).at? edges = some node) :
    node.entry.routes = (routes.filter (·.path.shape = edges)).map (·.id) := by
  rw [← routes_atOrNew_ofRoutes routes edges, atOrNew_of_at?_eq_some h]

/-- A node lies at the end of the edges that begin the shape of a route, if there is a route. -/
theorem isSome_at?_ofRoutes_iff {own : List (Route H)} (h : own ≠ []) (edges : List Edge) :
    ((ofRoutes own).at? edges).isSome ↔ ∃ r ∈ own, edges <+: r.path.shape := by
  rw [isSome_at?_ofRoutes]
  constructor
  · rintro (rfl | hsome)
    · rcases List.exists_mem_of_ne_nil _ h with ⟨r, hr⟩
      exact ⟨r, hr, List.nil_prefix⟩
    · exact hsome
  · exact Or.inr

/-- A child lies where one more edge still begins the shape of a route. -/
theorem isSome_child?_iff {routes : List (Route H)} {node : Node} {edges : List Edge}
    (h : (ofRoutes routes).at? edges = some node) (e : Edge) :
    (node.child? e).isSome ↔ ∃ r ∈ routes, edges ++ [e] <+: r.path.shape := by
  have hsome := isSome_at?_ofRoutes routes (edges ++ [e])
  rw [at?_concat, h, Option.bind_some] at hsome
  simpa using hsome

theorem child?_literal_isSome_iff {node : Node} {text : String} :
    (node.child? (.literal text)).isSome ↔ text ∈ node.branches.literals := by
  rw [Branches.mem_literals_iff, child?, Option.isSome_map]
  rfl

/-- The literal branches of a node are literal segments of routes. -/
theorem isPathPiece_of_mem_literals {routes : List (Route H)} {node : Node} {edges : List Edge}
    (h : (ofRoutes routes).at? edges = some node) {text : String}
    (htext : text ∈ node.branches.literals) :
    IsPathPiece text ∧ text.toList.head? ≠ some parameterMark := by
  rcases (isSome_child?_iff h _).1 (child?_literal_isSome_iff.2 htext) with ⟨r, -, hbegins⟩
  rcases Path.concat_isPrefix_shape_iff.1 hbegins with ⟨-, s, hs, hedge⟩
  -- the edge is a literal, and only a literal segment has such an edge
  rw [Segment.edge_eq_literal_iff] at hedge
  subst hedge
  exact Path.literal_mem_segments (List.mem_of_getElem? hs)

/-- Where nothing lies below, the routes that come to the node end there. -/
theorem routes_ne_nil_of_isLeaf {routes : List (Route H)} {node : Node} {edges : List Edge}
    (h : (ofRoutes routes).at? edges = some node)
    (hsome : ∃ r ∈ routes, edges <+: r.path.shape) (hleaf : node.isLeaf) :
    node.entry.routes ≠ [] := by
  rcases hsome with ⟨r, hr, back, hback⟩
  have hbranches : node.branches = .nil := by
    cases hnode : node.branches <;> simp [isLeaf, hnode] at hleaf ⊢
  cases back with
  | cons e back =>
    -- the route would go on through an edge that the node does not have
    have hgoes : (node.child? e).isSome :=
      (isSome_child?_iff h e).2 ⟨r, hr, back, by simpa using hback⟩
    cases e <;> simp [child?, hbranches, Branches.branch?, Branches.literal?, Branches.wildcard?]
      at hgoes
  | nil =>
    rw [routes_of_at?_ofRoutes h]
    intro hnil
    have hshape : r.path.shape = edges := by simpa using hback.symm
    have hmem : r.id ∈ (routes.filter (·.path.shape = edges)).map (·.id) :=
      List.mem_map_of_mem (List.mem_filter.2 ⟨hr, by simpa using hshape⟩)
    rw [hnil] at hmem
    exact absurd hmem (by simp)

/-- The name of an edge that a path passes through is written in the segment there. -/
theorem nameInto?_eq_some_iff {path : Path} {edges : List Edge} {name : String}
    (h : edges <+: path.shape) :
    path.nameInto? edges = some name ↔
      edges.getLast? = some .wildcard ∧
        path.segments[edges.length - 1]? = some (.parameter name) := by
  have hiff := Path.nameInto?_isSome_iff path edges h
  rcases List.eq_nil_or_concat' edges with rfl | ⟨front, e, rfl⟩
  · simp [Path.nameInto?_nil]
  · rw [List.length_append, List.length_singleton, Nat.add_sub_cancel, ← hiff,
      Path.nameInto?_concat _ _ _ h, Option.bind_eq_some_iff]
    constructor
    · rintro ⟨s, hs, hname⟩
      rw [Segment.name?_eq_some_iff] at hname
      subst hname
      simp [hs, Segment.name?]
    · rintro ⟨-, hs⟩
      exact ⟨_, hs, rfl⟩

/-- Behind a wildcard a node knows the name of every route that passes through it. -/
theorem exists_name_of_mem {routes : List (Route H)} (hids : (routes.map (·.id)).Nodup)
    {node : Node} {edges : List Edge} (h : (ofRoutes routes).at? edges = some node)
    (hlast : edges.getLast? = some .wildcard) {r : Route H} (hr : r ∈ routes)
    (hbegins : edges <+: r.path.shape) :
    ∃ name, r.path.segments[edges.length - 1]? = some (.parameter name) ∧
      node.entry.names[r.id]? = some name := by
  rcases Option.isSome_iff_exists.1 ((Path.nameInto?_isSome_iff _ _ hbegins).2 hlast) with
    ⟨name, hname⟩
  refine ⟨name, ((nameInto?_eq_some_iff hbegins).1 hname).2, ?_⟩
  rw [names_of_mem hids h hr hbegins, hname]

/-- Every node of the tree of some routes reports them. -/
theorem reports_of_at?_ofRoutes {routes : List (Route H)}
    (hids : (routes.map (·.id)).Pairwise (· < ·)) {node : Node} {edges : List Edge}
    (h : (ofRoutes routes).at? edges = some node)
    (hsome : ∃ r ∈ routes, edges <+: r.path.shape) : node.Reports edges routes := by
  have hnodup : (routes.map (·.id)).Nodup := hids.imp Nat.ne_of_lt
  have hnames := names_of_at?_ofRoutes hnodup h
  constructor
  case via => exact via_of_at?_ofRoutes h
  case routes => exact routes_of_at?_ofRoutes h
  case ascending =>
    rw [routes_of_at?_ofRoutes h]
    exact hids.sublist (List.filter_sublist.map _)
  case unnamed =>
    intro hlast
    -- a name would be that of a route with a parameter at this place
    apply Std.ExtTreeMap.ext_getElem?
    intro id
    rw [Std.ExtTreeMap.getElem?_empty]
    by_contra hsome
    rcases Option.ne_none_iff_exists'.1 hsome with ⟨name, hname⟩
    rcases (hnames id name).1 hname with ⟨r, -, -, hbegins, hname⟩
    exact hlast ((nameInto?_eq_some_iff hbegins).1 hname).1
  case named =>
    intro hlast id
    rw [← Std.ExtTreeMap.isSome_getElem?_iff_mem, Option.isSome_iff_exists]
    constructor
    · rintro ⟨name, hname⟩
      rcases (hnames id name).1 hname with ⟨r, hr, hid, hbegins, -⟩
      exact ⟨r, hr, hid, hbegins⟩
    · rintro ⟨r, hr, rfl, hbegins⟩
      rcases exists_name_of_mem hnodup h hlast hr hbegins with ⟨name, -, hname⟩
      exact ⟨name, hname⟩
  case names =>
    intro hlast r hr hbegins
    exact exists_name_of_mem hnodup h hlast hr hbegins
  case distinct =>
    exact (Branches.pairwise_literals (ordered_at? (ordered_ofRoutes routes) h)).imp ne_of_lt
  case texts =>
    intro text htext
    rcases isPathPiece_of_mem_literals h htext with ⟨hpiece, hmark⟩
    exact ⟨hpiece.ne_empty, hpiece.no_slash, hmark⟩
  case leaf => exact routes_ne_nil_of_isLeaf h hsome

end Node

/-! ## The forest -/

namespace Forest

/-- A node of a tree, by the method of the tree and the edges that lead to it, is one where a
route with the given number ends. -/
def EndsAt (forest : Forest) (id : Nat) (method : Method) (edges : List Edge) : Prop :=
  ∃ root node, forest.tree? method = some root ∧ root.at? edges = some node ∧
    id ∈ node.entry.routes

/-- A registered route ends at the node of its shape in the tree of its method, and nowhere else. -/
theorem endsAt_iff (registry : Registry H) {r : Route H} (hr : r ∈ registry.routes)
    (method : Method) (edges : List Edge) :
    (Forest.ofRoutes registry.routes).EndsAt r.id method edges ↔
      method = r.method ∧ edges = r.path.shape := by
  constructor
  · rintro ⟨root, node, hroot, hnode, hid⟩
    rcases tree?_eq_some_iff.1 hroot with ⟨-, rfl⟩
    rw [Node.routes_of_at?_ofRoutes hnode] at hid
    rcases List.mem_map.1 hid with ⟨s, hs, hsid⟩
    rcases List.mem_filter.1 hs with ⟨hown, hshape⟩
    rcases mem_routesOf.1 hown with ⟨hmem, hmethod⟩
    obtain rfl := registry.eq_of_id_eq hmem hr hsid
    exact ⟨hmethod.symm, by simpa using (of_decide_eq_true hshape).symm⟩
  · rintro ⟨rfl, rfl⟩
    have hown : r ∈ routesOf r.method registry.routes := mem_routesOf.2 ⟨hr, rfl⟩
    have hsome : ((Node.ofRoutes (routesOf r.method registry.routes)).at? r.path.shape).isSome :=
      (Node.isSome_at?_ofRoutes _ _).2 (.inr ⟨r, hown, List.prefix_refl _⟩)
    rcases Option.isSome_iff_exists.1 hsome with ⟨node, hnode⟩
    refine ⟨_, node, tree?_eq_some_iff.2 ⟨List.ne_nil_of_mem hown, rfl⟩, hnode, ?_⟩
    rw [Node.routes_of_at?_ofRoutes hnode]
    exact List.mem_map_of_mem (List.mem_filter.2 ⟨hown, by simp⟩)

/-- The forest of a registry, read off its routes. The methods with a tree are those that a route
answers. Edges lead to a node exactly when they begin the shape of a route of the method, and the
node reports these routes. Every route ends at one node of one tree. -/
theorem ofRoutes_content (registry : Registry H) :
    (∀ method, ((Forest.ofRoutes registry.routes).tree? method).isSome ↔
      ∃ r ∈ registry.routes, r.method = method) ∧
    (∀ method root, (Forest.ofRoutes registry.routes).tree? method = some root →
      ∀ edges,
        ((root.at? edges).isSome ↔
          ∃ r ∈ routesOf method registry.routes, edges <+: r.path.shape) ∧
        ∀ node, root.at? edges = some node →
          node.Reports edges (routesOf method registry.routes)) ∧
    (∀ r ∈ registry.routes, ∃! place : Method × List Edge,
      (Forest.ofRoutes registry.routes).EndsAt r.id place.1 place.2) := by
  refine ⟨fun method => isSome_tree?_iff, ?_, ?_⟩
  · intro method root hroot edges
    rcases tree?_eq_some_iff.1 hroot with ⟨hown, rfl⟩
    have hids := registry.pairwise_ids (routesOf_sublist method registry.routes)
    have hplace := Node.isSome_at?_ofRoutes_iff hown edges
    refine ⟨hplace, ?_⟩
    intro node hnode
    exact Node.reports_of_at?_ofRoutes hids hnode (hplace.1 (by simp [hnode]))
  · intro r hr
    refine ⟨(r.method, r.path.shape), (endsAt_iff registry hr _ _).2 ⟨rfl, rfl⟩, ?_⟩
    rintro ⟨method, edges⟩ hends
    rcases (endsAt_iff registry hr _ _).1 hends with ⟨rfl, rfl⟩
    rfl

end Forest

end Routing
