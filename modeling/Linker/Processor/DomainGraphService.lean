import Linker.Processor.ClientAppService
import Linker.Routing.NextHop
import Mathlib.Combinatorics.SimpleGraph.Metric

/-!
# The domain graph

`DomainGraphService` builds an undirected graph of the domains, has a shortest path algorithm compute
the paths from its own domain, and moves a message to the second vertex on the path to its target.
Every domain computes its own paths, so a route is made of decisions of the domains on it.

The shortest path algorithm is a parameter: of several shortest paths it may return any.

## Main definitions

* `UndirectedGraph` : the graph of jgrapht that the service uses.
* `DomainGraphService.loadGraph`, `getNextDomainName`, `getLinkedDomainNames`.
* `DomainGraph.network` : the graph as the mathematical object, in which distances are taken.

## Main result

* `route_shortest` : the route that the domains make together reaches its target in as many moves as
  the distance says, along links and without coming back to a domain; where there is no way, there is
  no next domain.
-/

namespace Linker.Processor

/-- `DefaultUndirectedGraph`: at most one edge between two vertices; loops are allowed. -/
structure UndirectedGraph where
  vertices : List String := []
  edges : List (String × String) := []
  edges_mem : ∀ e ∈ edges, e.1 ∈ vertices ∧ e.2 ∈ vertices := by simp

namespace UndirectedGraph

def addVertex (v : String) (g : UndirectedGraph) : UndirectedGraph where
  vertices := g.vertices.insert v
  edges := g.edges
  edges_mem e he := (g.edges_mem e he).imp List.mem_insert_of_mem List.mem_insert_of_mem

/-- Whether there is an edge between two vertices. -/
def hasEdge (g : UndirectedGraph) (a b : String) : Prop := (a, b) ∈ g.edges ∨ (b, a) ∈ g.edges

instance (g : UndirectedGraph) (a b : String) : Decidable (g.hasEdge a b) :=
  inferInstanceAs (Decidable (_ ∨ _))

/-- The vertices of a new edge have to be there. -/
def addEdge (a b : String) (g : UndirectedGraph) : Except JavaException UndirectedGraph :=
  if h : a ∈ g.vertices ∧ b ∈ g.vertices then
    if g.hasEdge a b then .ok g
    else .ok {
      vertices := g.vertices
      edges := g.edges ++ [(a, b)]
      edges_mem := fun e he => by
        rcases List.mem_append.1 he with he | he
        · exact g.edges_mem e he
        · exact List.mem_singleton.1 he ▸ h }
  else .error .illegalArgument

/-- The vertex at the other end of an edge of `v`. -/
def opposite (v : String) (e : String × String) : Option String :=
  if e.1 = v then some e.2 else if e.2 = v then some e.1 else none

/-- `Graphs.neighborSetOf`. -/
def neighborSetOf (g : UndirectedGraph) (v : String) : Except JavaException (List String) :=
  if v ∈ g.vertices then .ok (g.edges.filterMap (opposite v)).dedup else .error .illegalArgument

/-- The graph without its loops. -/
def simple (g : UndirectedGraph) : SimpleGraph String where
  Adj a b := a ≠ b ∧ g.hasEdge a b
  symm := ⟨fun _ _ h => ⟨h.1.symm, h.2.symm⟩⟩
  loopless := ⟨fun _ h => h.1 rfl⟩

theorem mem_neighborSetOf {g : UndirectedGraph} {v u : String} {l : List String}
    (h : g.neighborSetOf v = .ok l) : u ∈ l ↔ g.hasEdge v u := by
  unfold neighborSetOf at h
  split_ifs at h
  cases h
  simp only [List.mem_dedup, List.mem_filterMap, opposite, hasEdge]
  constructor
  · rintro ⟨⟨a, b⟩, hmem, he⟩
    simp only at he
    split_ifs at he with ha hb
    · cases he
      exact .inl (ha ▸ hmem)
    · cases he
      exact .inr (hb ▸ hmem)
  · rintro (hmem | hmem)
    · exact ⟨_, hmem, if_pos rfl⟩
    · by_cases huv : u = v
      · exact ⟨_, hmem, by simp [huv]⟩
      · exact ⟨_, hmem, by simp [huv]⟩

end UndirectedGraph

/-- `com.linker.common.router.Domain`. -/
structure RouterDomain where
  name : String
  urls : List String := []
  deriving DecidableEq, Repr

structure DomainLink where
  n1 : String
  n2 : String
  deriving DecidableEq, Repr

structure DomainGraph where
  domains : List RouterDomain
  links : List DomainLink

def DomainGraph.names (G : DomainGraph) : List String := G.domains.map RouterDomain.name

/-- The graph of the links, without loops. -/
def DomainGraph.network (G : DomainGraph) : SimpleGraph String where
  Adj a b := a ≠ b ∧ (⟨a, b⟩ ∈ G.links ∨ ⟨b, a⟩ ∈ G.links)
  symm := ⟨fun _ _ h => ⟨h.1.symm, h.2.symm⟩⟩
  loopless := ⟨fun _ h => h.1 rfl⟩

/-- What `DijkstraShortestPath` returns: for a graph and a source, the vertices of a path to each
target, `none` for null or an exception. -/
abbrev ShortestPathAlgorithm := UndirectedGraph → String → String → Option (List String)

/-- The service after a graph is loaded. -/
structure DomainGraphService where
  domainMap : List RouterDomain
  graph : UndirectedGraph
  path : String → Option (List String)

namespace DomainGraphService

/-- The links as edges. -/
def addLinks : List DomainLink → UndirectedGraph → Except JavaException UndirectedGraph
  | [], g => .ok g
  | l :: links, g => do addLinks links (← g.addEdge l.n1 l.n2)

/-- The paths are computed from a vertex of the graph. -/
def setupGraph (dijkstra : ShortestPathAlgorithm) (domains : List RouterDomain)
    (links : List DomainLink) (currentRouterName : String) :
    Except JavaException DomainGraphService := do
  let vertices := (domains.map RouterDomain.name).foldl (fun g v => g.addVertex v) {}
  let graph ← addLinks links vertices
  if currentRouterName ∈ graph.vertices then
    pure { domainMap := domains, graph, path := dijkstra graph currentRouterName }
  else .error .illegalArgument

/-- `Collectors.toMap` rejects a second domain of the same name. -/
def loadGraph (dijkstra : ShortestPathAlgorithm) (domainName : String) (G : DomainGraph) :
    Except JavaException DomainGraphService :=
  if G.names.Nodup then setupGraph dijkstra G.domains G.links domainName
  else .error (.illegalState "Duplicate key")

variable (s : DomainGraphService)

def computePath (to_ : Option String) : List String := (to_.bind s.path).getD []

def getNextDomainName (to_ : Option String) : Option String :=
  match s.computePath to_ with
  | [] => none
  | [a] => some a
  | _ :: b :: _ => some b

def getLinkedDomainNames (name : String) : Except JavaException (List String) :=
  s.graph.neighborSetOf name

end DomainGraphService

/-! ### The loaded graph -/

namespace UndirectedGraph

variable {g g' : UndirectedGraph} {a b : String}

theorem mem_addVertices {names : List String} {v : String} :
    v ∈ (names.foldl (fun g v => g.addVertex v) g).vertices ↔ v ∈ names ∨ v ∈ g.vertices := by
  induction names generalizing g with
  | nil => simp
  | cons n names ih =>
    rw [List.foldl_cons, ih, addVertex]
    simp only [List.mem_insert_iff, List.mem_cons]
    tauto

theorem edges_addVertices {names : List String} :
    (names.foldl (fun g v => g.addVertex v) g).edges = g.edges := by
  induction names generalizing g with
  | nil => rfl
  | cons n names ih => exact ih

theorem addEdge_ok (h : g.addEdge a b = .ok g') :
    (a ∈ g.vertices ∧ b ∈ g.vertices) ∧ g'.vertices = g.vertices ∧
      ∀ u v, g'.hasEdge u v ↔ g.hasEdge u v ∨ (u = a ∧ v = b) ∨ u = b ∧ v = a := by
  unfold addEdge at h
  split_ifs at h with hmem hedge
  · cases h
    refine ⟨hmem, rfl, fun u v => ⟨.inl, ?_⟩⟩
    rintro (h | ⟨rfl, rfl⟩ | ⟨rfl, rfl⟩)
    · exact h
    · exact hedge
    · exact hedge.symm
  · cases h
    refine ⟨hmem, rfl, fun u v => ?_⟩
    simp only [hasEdge, List.mem_append, List.mem_singleton, Prod.mk.injEq]
    tauto

theorem exists_addEdge (ha : a ∈ g.vertices) (hb : b ∈ g.vertices) : ∃ g', g.addEdge a b = .ok g' := by
  unfold addEdge
  rw [dif_pos ⟨ha, hb⟩]
  split_ifs
  · exact ⟨g, rfl⟩
  · exact ⟨_, rfl⟩

end UndirectedGraph

namespace DomainGraphService

open UndirectedGraph

theorem addLinks_ok {links : List DomainLink} {g g' : UndirectedGraph} (h : addLinks links g = .ok g') :
    g'.vertices = g.vertices ∧
      ∀ a b, g'.hasEdge a b ↔ g.hasEdge a b ∨ ⟨a, b⟩ ∈ links ∨ ⟨b, a⟩ ∈ links := by
  induction links generalizing g with
  | nil =>
    cases h
    simp
  | cons l links ih =>
    rw [addLinks] at h
    cases hadd : g.addEdge l.n1 l.n2 with
    | error e => rw [hadd] at h; cases h
    | ok g₁ =>
      rw [hadd] at h
      obtain ⟨hvertices, hedge⟩ := ih h
      obtain ⟨-, hvertices₁, hedge₁⟩ := addEdge_ok hadd
      refine ⟨hvertices.trans hvertices₁, fun a b => ?_⟩
      rw [hedge, hedge₁]
      cases l
      simp only [List.mem_cons, DomainLink.mk.injEq]
      tauto

theorem exists_addLinks (links : List DomainLink) {g : UndirectedGraph}
    (h : ∀ l ∈ links, l.n1 ∈ g.vertices ∧ l.n2 ∈ g.vertices) : ∃ g', addLinks links g = .ok g' := by
  induction links generalizing g with
  | nil => exact ⟨g, rfl⟩
  | cons l links ih =>
    obtain ⟨hn1, hn2⟩ := h l List.mem_cons_self
    obtain ⟨g₁, hadd⟩ := exists_addEdge hn1 hn2
    obtain ⟨-, hvertices, -⟩ := addEdge_ok hadd
    obtain ⟨g', hg'⟩ := ih (g := g₁) fun l' hl' => hvertices ▸ h l' (List.mem_cons_of_mem l hl')
    exact ⟨g', by rw [addLinks, hadd]; exact hg'⟩

variable {dijkstra : ShortestPathAlgorithm} {domainName : String} {G : DomainGraph}

/-- What a loaded service knows. -/
theorem loadGraph_ok {s : DomainGraphService} (h : loadGraph dijkstra domainName G = .ok s) :
    domainName ∈ G.names ∧ (∀ v, v ∈ s.graph.vertices ↔ v ∈ G.names) ∧ s.graph.simple = G.network ∧
      s.path = dijkstra s.graph domainName := by
  unfold loadGraph setupGraph at h
  split_ifs at h
  simp only at h
  cases hlinks : addLinks G.links
      ((G.domains.map RouterDomain.name).foldl (fun g v => g.addVertex v) {}) with
  | error e => rw [hlinks] at h; cases h
  | ok g =>
    rw [hlinks] at h
    obtain ⟨hvertices, hedges⟩ := addLinks_ok hlinks
    have hmem : ∀ v, v ∈ g.vertices ↔ v ∈ G.names := by
      intro v
      rw [hvertices, mem_addVertices, DomainGraph.names]
      simp
    simp only [bind, Except.bind] at h
    split_ifs at h with hin
    cases h
    refine ⟨(hmem _).1 hin, hmem, ?_, rfl⟩
    ext a b
    show a ≠ b ∧ g.hasEdge a b ↔ a ≠ b ∧ (⟨a, b⟩ ∈ G.links ∨ ⟨b, a⟩ ∈ G.links)
    rw [hedges, hasEdge, edges_addVertices]
    simp

/-- A graph with distinct names and links between them can be loaded by every domain in it. -/
theorem exists_loadGraph (hnames : G.names.Nodup)
    (hlinks : ∀ l ∈ G.links, l.n1 ∈ G.names ∧ l.n2 ∈ G.names) (hname : domainName ∈ G.names) :
    ∃ s, loadGraph dijkstra domainName G = .ok s := by
  have hmem : ∀ v, v ∈ ((G.domains.map RouterDomain.name).foldl (fun g v => g.addVertex v)
      ({} : UndirectedGraph)).vertices ↔ v ∈ G.names := by
    intro v
    rw [mem_addVertices, DomainGraph.names]
    simp
  obtain ⟨g, hg⟩ := exists_addLinks G.links fun l hl =>
    (hlinks l hl).imp (hmem _).2 (hmem _).2
  have hin : domainName ∈ g.vertices := by
    rw [(addLinks_ok hg).1]
    exact (hmem _).2 hname
  unfold loadGraph setupGraph
  rw [if_pos hnames]
  simp only [hg, bind, Except.bind, if_pos hin]
  exact ⟨_, rfl⟩

/-! ### Routes -/

/-- What the documentation says of a shortest path algorithm: some shortest path to whatever can be
reached, and null or an exception for the rest. -/
structure ShortestPaths (network : SimpleGraph String) (source : String)
    (path : String → Option (List String)) : Prop where
  reachable : ∀ t, network.Reachable source t →
    ∃ p : network.Walk source t, p.length = network.dist source t ∧ path t = some p.support
  unreachable : ∀ t, ¬ network.Reachable source t → path t = none

/-- Where a message for `t` moves from a domain. -/
def hop (services : String → DomainGraphService) (t v : String) : Option String :=
  (services v).getNextDomainName (some t)

/-- A link that a domain knows of. -/
def Linked (services : String → DomainGraphService) (a b : String) : Prop :=
  ∃ l, (services a).getLinkedDomainNames a = .ok l ∧ b ∈ l

theorem getNextDomainName_cons {s : DomainGraphService} {t a b : String} {l : List String}
    (h : s.path t = some (a :: b :: l)) : s.getNextDomainName (some t) = some b := by
  unfold getNextDomainName computePath
  rw [Option.bind_some, h, Option.getD_some]

theorem getNextDomainName_none {s : DomainGraphService} {t : String} (h : s.path t = none) :
    s.getNextDomainName (some t) = none := by
  unfold getNextDomainName computePath
  rw [Option.bind_some, h, Option.getD_none]

theorem linked_of_adj {services : String → DomainGraphService} {a b : String}
    (hload : loadGraph dijkstra a G = .ok (services a)) (h : G.network.Adj a b) :
    Linked services a b := by
  obtain ⟨hname, hvertices, hsimple, -⟩ := loadGraph_ok hload
  have hl : (services a).getLinkedDomainNames a =
      .ok ((services a).graph.edges.filterMap (opposite a)).dedup :=
    if_pos ((hvertices a).2 hname)
  rw [← hsimple] at h
  exact ⟨_, hl, (mem_neighborSetOf hl).2 h.2⟩

section

variable {dijkstra : String → ShortestPathAlgorithm} {services : String → DomainGraphService}
  (hload : ∀ d ∈ G.names, loadGraph (dijkstra d) d G = .ok (services d))
  (hpaths : ∀ d ∈ G.names,
    ShortestPaths (services d).graph.simple d (dijkstra d (services d).graph d))

include hload in
theorem mem_names_of_adj {a b : String} (ha : a ∈ G.names) (h : G.network.Adj a b) : b ∈ G.names := by
  obtain ⟨-, hvertices, hsimple, -⟩ := loadGraph_ok (hload a ha)
  rw [← hsimple] at h
  rw [← hvertices]
  rcases h.2 with he | he
  · exact ((services a).graph.edges_mem _ he).2
  · exact ((services a).graph.edges_mem _ he).1

include hload hpaths

/-- Every decision leads one step closer. -/
theorem descends_hop (t : String) :
    Routing.Descends (fun v => v ∈ G.names ∧ G.network.Reachable v t) (fun v => G.network.dist v t)
      (Linked services) (hop services t) where
  move v hv hdist := by
    obtain ⟨hname, hreach⟩ := hv
    obtain ⟨-, -, hsimple, hpath⟩ := loadGraph_ok (hload v hname)
    have hshort := hpaths v hname
    rw [hsimple, ← hpath] at hshort
    obtain ⟨p, hlen, hp⟩ := hshort.reachable t hreach
    cases p with
    | nil => exact absurd G.network.dist_self hdist
    | @cons _ u _ hadj q =>
      rw [SimpleGraph.Walk.length_cons] at hlen
      rw [SimpleGraph.Walk.support_cons, ← SimpleGraph.Walk.cons_tail_support] at hp
      obtain ⟨r, hr⟩ := q.reachable.exists_walk_length_eq_dist
      have hle : G.network.dist v t ≤ G.network.dist u t + 1 := by
        have hwalk := SimpleGraph.dist_le (SimpleGraph.Walk.cons hadj r)
        rw [SimpleGraph.Walk.length_cons, hr] at hwalk
        exact hwalk
      have hge := SimpleGraph.dist_le q
      exact ⟨u, getNextDomainName_cons hp, ⟨mem_names_of_adj hload hname hadj, q.reachable⟩,
        by omega, linked_of_adj (hload v hname) hadj⟩

/-- **Routes are shortest paths.**  The decisions of the domains lead to the target in as many moves
as it is away, along links, and never twice to the same domain; without a way there is no decision. -/
theorem route_shortest {s t : String} (hs : s ∈ G.names) :
    (G.network.Reachable s t →
      Routing.follow (hop services t) (G.network.dist s t) s = some t ∧
      (Routing.trail (hop services t) (G.network.dist s t) s).Nodup ∧
      (Routing.trail (hop services t) (G.network.dist s t) s).IsChain (Linked services)) ∧
    (¬ G.network.Reachable s t → (services s).getNextDomainName (some t) = none) := by
  have hdesc := descends_hop hload hpaths t
  refine ⟨fun hreach => ⟨?_, hdesc.nodup_trail ⟨hs, hreach⟩ le_rfl,
    hdesc.chain_trail ⟨hs, hreach⟩ le_rfl⟩, fun hreach => ?_⟩
  · obtain ⟨u, hfollow, ⟨-, hu⟩, hzero⟩ := hdesc.follow_rank ⟨hs, hreach⟩
    rw [hu.dist_eq_zero_iff] at hzero
    rw [hfollow, hzero]
  · obtain ⟨-, -, hsimple, hpath⟩ := loadGraph_ok (hload s hs)
    have hshort := hpaths s hs
    rw [hsimple, ← hpath] at hshort
    exact getNextDomainName_none (hshort.unreachable t hreach)

end

end DomainGraphService

/-! ### A line of three domains -/

namespace SampleGraph

open DomainGraphService

/-- The domains 1, 2 and 3 in a line, and 4 for itself. -/
def line : DomainGraph where
  domains := [{ name := "1" }, { name := "2" }, { name := "3" }, { name := "4" }]
  links := [⟨"1", "2"⟩, ⟨"3", "2"⟩]

def paths : String → List (String × List String)
  | "1" => [("1", ["1"]), ("2", ["1", "2"]), ("3", ["1", "2", "3"])]
  | "2" => [("1", ["2", "1"]), ("2", ["2"]), ("3", ["2", "3"])]
  | "3" => [("1", ["3", "2", "1"]), ("2", ["3", "2"]), ("3", ["3"])]
  | "4" => [("4", ["4"])]
  | _ => []

def dijkstra : ShortestPathAlgorithm := fun _ source target => (paths source).lookup target

def services (d : String) : DomainGraphService :=
  match loadGraph dijkstra d line with
  | .ok s => s
  | .error _ => { domainMap := [], graph := {}, path := fun _ => none }

theorem loadGraph_services {d : String} (h : d ∈ line.names) :
    loadGraph dijkstra d line = .ok (services d) := by
  obtain ⟨s, hs⟩ := exists_loadGraph (by decide : line.names.Nodup) (by decide) h
  rw [services, hs]

theorem adj₁₂ : line.network.Adj "1" "2" := ⟨by decide, by decide⟩

theorem adj₂₃ : line.network.Adj "2" "3" := ⟨by decide, by decide⟩

theorem dist₁₃ : line.network.dist "1" "3" = 2 := by
  have hle := SimpleGraph.dist_le (.cons adj₁₂ (.cons adj₂₃ .nil))
  have hlt := (adj₁₂.reachable.trans adj₂₃.reachable).one_lt_dist_of_ne_of_not_adj
    (by decide) fun h => absurd h.2 (by decide)
  simp only [SimpleGraph.Walk.length_cons, SimpleGraph.Walk.length_nil] at hle
  omega

/-- What can be reached stays within a list of vertices that no link leaves. -/
theorem mem_of_walk (component : List String)
    (hclosed : ∀ l ∈ line.links, l.n1 ∈ component ↔ l.n2 ∈ component) {s t : String}
    (p : line.network.Walk s t) (hs : s ∈ component) : t ∈ component := by
  induction p with
  | nil => exact hs
  | @cons a b c hadj q ih =>
    refine ih ?_
    rcases hadj.2 with hl | hl
    · exact (hclosed _ hl).1 hs
    · exact (hclosed _ hl).2 hs

theorem shortestPaths {s : String} (component : List String) (hs : s ∈ component)
    (hclosed : ∀ l ∈ line.links, l.n1 ∈ component ↔ l.n2 ∈ component)
    (hkeys : (paths s).map Prod.fst = component)
    (hpath : ∀ t ∈ component, ∃ p : line.network.Walk s t,
      p.length = line.network.dist s t ∧ (paths s).lookup t = some p.support) (g : UndirectedGraph) :
    ShortestPaths line.network s (dijkstra g s) where
  reachable := by
    rintro t ⟨p⟩
    exact hpath t (mem_of_walk component hclosed p hs)
  unreachable t ht := by
    refine List.lookup_eq_none_iff.2 fun p hp => ?_
    rw [bne_iff_ne]
    rintro rfl
    obtain ⟨q, -⟩ := hpath p.1 (hkeys ▸ List.mem_map_of_mem hp)
    exact ht q.reachable

theorem dijkstra_shortest {d : String} (h : d ∈ line.names) (g : UndirectedGraph) :
    ShortestPaths line.network d (dijkstra g d) := by
  have hadj : ∀ {a b : String} (h : line.network.Adj a b), (SimpleGraph.Walk.cons h .nil).length =
      line.network.dist a b := fun h => (SimpleGraph.dist_eq_one_iff_adj.2 h).symm
  have h₃₁ : line.network.dist "3" "1" = 2 := by rw [SimpleGraph.dist_comm, dist₁₃]
  rcases (by simpa [DomainGraph.names, line] using h : d = "1" ∨ d = "2" ∨ d = "3" ∨ d = "4")
    with rfl | rfl | rfl | rfl
  · refine shortestPaths ["1", "2", "3"] (by decide) (by decide) rfl (fun t ht => ?_) g
    rcases (by simpa using ht : t = "1" ∨ t = "2" ∨ t = "3") with rfl | rfl | rfl
    · exact ⟨.nil, by simp, rfl⟩
    · exact ⟨.cons adj₁₂ .nil, hadj _, rfl⟩
    · exact ⟨.cons adj₁₂ (.cons adj₂₃ .nil), dist₁₃.symm, rfl⟩
  · refine shortestPaths ["1", "2", "3"] (by decide) (by decide) rfl (fun t ht => ?_) g
    rcases (by simpa using ht : t = "1" ∨ t = "2" ∨ t = "3") with rfl | rfl | rfl
    · exact ⟨.cons adj₁₂.symm .nil, hadj _, rfl⟩
    · exact ⟨.nil, by simp, rfl⟩
    · exact ⟨.cons adj₂₃ .nil, hadj _, rfl⟩
  · refine shortestPaths ["1", "2", "3"] (by decide) (by decide) rfl (fun t ht => ?_) g
    rcases (by simpa using ht : t = "1" ∨ t = "2" ∨ t = "3") with rfl | rfl | rfl
    · exact ⟨.cons adj₂₃.symm (.cons adj₁₂.symm .nil), h₃₁.symm, rfl⟩
    · exact ⟨.cons adj₂₃.symm .nil, hadj _, rfl⟩
    · exact ⟨.nil, by simp, rfl⟩
  · refine shortestPaths ["4"] (by decide) (by decide) rfl (fun t ht => ?_) g
    cases List.mem_singleton.1 ht
    exact ⟨.nil, by simp, rfl⟩

/-- From 1 to 3 through 2, and to 4 not at all. -/
theorem route_shortest_line :
    Routing.follow (hop services "3") 2 "1" = some "3" ∧
      (Routing.trail (hop services "3") 2 "1").Nodup ∧
      (services "1").getNextDomainName (some "4") = none := by
  have hload := fun d hd => loadGraph_services (d := d) hd
  have hpaths : ∀ d ∈ line.names,
      ShortestPaths (services d).graph.simple d (dijkstra (services d).graph d) := by
    intro d hd
    rw [(loadGraph_ok (hload d hd)).2.2.1]
    exact dijkstra_shortest hd _
  have hthere := (route_shortest hload hpaths (s := "1") (t := "3") (by decide)).1
    (adj₁₂.reachable.trans adj₂₃.reachable)
  rw [dist₁₃] at hthere
  refine ⟨hthere.1, hthere.2.1,
    (route_shortest hload hpaths (s := "1") (t := "4") (by decide)).2 ?_⟩
  rintro ⟨p⟩
  exact absurd (mem_of_walk ["1", "2", "3"] (by decide) p (by decide)) (by decide)

end SampleGraph

end Linker.Processor
