import Linker.Processor.Copies
import Linker.Processor.Delivery
import Linker.Processor.FanOut
import Linker.Processor.Traffic

/-!
# The start of a domain

When a domain starts, `DomainService.init` loads the graph that the meta server has, makes a tunnel to
each of its neighbours and sets the callbacks of the tunnels.  The domains start one by one; what the one
puts out for the next is addressed to the user as whom the next one signs in.

## Main definitions

* `DomainTunnelService.loadDomains` : the tunnels of a domain.
* `DomainService.init` : the start of a domain.

## Main results

* `init_ok` : the tunnels of a domain that has started.
* `exists_init` : a domain of a well formed graph starts.
* `put_out_for_neighbour` : what is put out for another domain is for a user as whom a neighbour signs in
  on its tunnel, if not on a first channel that is connected too soon.
-/

namespace Linker.Processor

open Exec

namespace DomainGraphService

variable (s : DomainGraphService)

/-- `domainMap.get(applicationConfig.getDomainName())`. -/
def getCurrentDomain (domainName : String) : Option RouterDomain :=
  s.domainMap.find? fun d => d.name = domainName

def getCurrentLinkedDomains (domainName : String) :
    Except JavaException (List (Option RouterDomain)) :=
  match s.getCurrentDomain domainName with
  | none => .error .nullPointer
  | some domain => (s.getLinkedDomainNames domain.name).map fun names =>
    names.map fun name => s.domainMap.find? fun d => d.name = name

end DomainGraphService

namespace DomainTunnel

/-- `getName`. -/
def State.getName (t : State) : Option String := t.domain.map RouterDomain.name

/-- The callbacks that `DomainService` sets. -/
def State.listening (t : State) : State :=
  { t with msgCallback := true, onAuthenticatedCallback := true }

end DomainTunnel

open DomainTunnel (Throw)

namespace DomainTunnelService

variable (E : DomainTunnel.Config)

def createTunnel : Option RouterDomain → Except Throw DomainTunnel.State
  | none => .error (.java .nullPointer)
  | some domain =>
    match (DomainTunnel.connectDomain E domain).run DomainTunnel.start with
    | (.ok (), t) => .ok t
    | (.error e, _) => .error e

/-- The tunnels are collected one by one; `Collectors.toMap` rejects a second one of the same name. -/
def collect (tunnels : List DomainTunnel.State) :
    List (Option RouterDomain) → Except Throw (List DomainTunnel.State)
  | [] => .ok tunnels
  | domain :: domains => do
    let tunnel ← createTunnel E domain
    if tunnels.any fun t => t.getName = tunnel.getName then
      .error (.java (.illegalState "Duplicate key"))
    else collect (tunnels ++ [tunnel]) domains

def loadDomains (domains : List (Option RouterDomain)) : Except Throw (List DomainTunnel.State) :=
  collect E [] domains

end DomainTunnelService

/-- What a domain has after its start. -/
structure Started where
  service : Option DomainGraphService := none
  tunnels : List DomainTunnel.State := []

namespace DomainService

/-- `init`, with the graph that the meta server has returned, null where there is none. -/
def init (dijkstra : ShortestPathAlgorithm) (uri : String → Option URI) (domainName : String) :
    Option DomainGraph → Except Throw Started
  | none => .ok {}
  | some domainGraph => do
    let service ← (DomainGraphService.loadGraph dijkstra domainName domainGraph).mapError .java
    let linkedDomains ← (service.getCurrentLinkedDomains domainName).mapError .java
    let tunnels ← DomainTunnelService.loadDomains ⟨some domainName, uri⟩ linkedDomains
    pure { service := some service, tunnels := tunnels.map DomainTunnel.State.listening }

end DomainService

/-! ### The graph -/

namespace DomainGraphService

open UndirectedGraph

variable {dijkstra : ShortestPathAlgorithm} {domainName : String} {G : DomainGraph}
  {s : DomainGraphService}

/-- There is an edge where there is a link, loops included. -/
theorem hasEdge_loadGraph (h : loadGraph dijkstra domainName G = .ok s) :
    s.domainMap = G.domains ∧ ∀ a b, s.graph.hasEdge a b ↔ ⟨a, b⟩ ∈ G.links ∨ ⟨b, a⟩ ∈ G.links := by
  unfold loadGraph setupGraph at h
  split_ifs at h
  simp only at h
  cases hlinks : addLinks G.links
      ((G.domains.map RouterDomain.name).foldl (fun g v => g.addVertex v) {}) with
  | error e => rw [hlinks] at h; cases h
  | ok g =>
    rw [hlinks] at h
    simp only [bind, Except.bind] at h
    split_ifs at h
    cases h
    refine ⟨rfl, fun a b => ?_⟩
    rw [(addLinks_ok hlinks).2, hasEdge, edges_addVertices]
    simp

theorem find?_domainMap {n : String} (hs : s.domainMap = G.domains) (hn : n ∈ G.names) :
    ∃ D ∈ G.domains, s.domainMap.find? (fun d => d.name = n) = some D ∧ D.name = n := by
  obtain ⟨D, hD, hname⟩ := List.mem_map.1 hn
  rw [hs]
  cases hfind : G.domains.find? fun d => d.name = n with
  | none => exact absurd hname (by simpa using List.find?_eq_none.1 hfind D hD)
  | some D' => exact ⟨D', List.mem_of_find?_eq_some hfind, rfl, by simpa using List.find?_some hfind⟩

/-- The neighbours of a domain, as its graph has them. -/
theorem getCurrentLinkedDomains_loadGraph (h : loadGraph dijkstra domainName G = .ok s) :
    ∃ names : List String, s.getCurrentLinkedDomains domainName =
        .ok (names.map fun n => s.domainMap.find? fun d => d.name = n) ∧ names.Nodup ∧
      ∀ n, n ∈ names ↔ ⟨domainName, n⟩ ∈ G.links ∨ ⟨n, domainName⟩ ∈ G.links := by
  obtain ⟨hname, hvertices, -, -⟩ := loadGraph_ok h
  obtain ⟨hmap, hedge⟩ := hasEdge_loadGraph h
  obtain ⟨D, -, hfind, hD⟩ := find?_domainMap hmap hname
  have hl : s.getLinkedDomainNames domainName =
      .ok (s.graph.edges.filterMap (opposite domainName)).dedup := if_pos ((hvertices _).2 hname)
  refine ⟨(s.graph.edges.filterMap (opposite domainName)).dedup, ?_, List.nodup_dedup _, fun n => ?_⟩
  · rw [getCurrentLinkedDomains, getCurrentDomain, hfind]
    simp only [hD, hl]
    rfl
  · rw [mem_neighborSetOf hl, hedge]

/-- The next domain is a neighbour, or the target is the domain itself. -/
theorem adj_of_getNextDomainName {t n : String} (h : loadGraph dijkstra domainName G = .ok s)
    (hpath : ShortestPaths G.network domainName (dijkstra s.graph domainName))
    (hnext : s.getNextDomainName (some t) = some n) :
    G.network.Adj domainName n ∨ t = domainName ∧ n = domainName := by
  obtain ⟨-, -, -, hdijkstra⟩ := loadGraph_ok h
  rw [← hdijkstra] at hpath
  by_cases hreach : G.network.Reachable domainName t
  · obtain ⟨p, -, hp⟩ := hpath.reachable t hreach
    cases p with
    | nil =>
      unfold getNextDomainName computePath at hnext
      rw [Option.bind_some, hp] at hnext
      exact .inr ⟨rfl, (Option.some.inj hnext).symm⟩
    | @cons _ v _ hadj q =>
      rw [SimpleGraph.Walk.support_cons, ← SimpleGraph.Walk.cons_tail_support] at hp
      rw [getNextDomainName_cons hp] at hnext
      cases hnext
      exact .inl hadj
  · rw [getNextDomainName_none (hpath.unreachable t hreach)] at hnext
    cases hnext

end DomainGraphService

/-! ### The tunnels -/

namespace DomainTunnel

/-- The tunnel is still one to the same domain. -/
def Steady (t t' : State) : Prop := t'.domain = t.domain

instance : IsPreorder State Steady where
  refl _ := rfl
  trans _ _ _ h h' := Eq.trans h' h

theorem steady_socketClient : Moves Steady socketClient := by
  refine .bind (.read _) fun client => ?_
  cases client with
  | none => exact .fail _
  | some t => exact .pure t

theorem steady_startConnecting (E : Config) (D : RouterDomain) : Moves Steady (startConnecting E D) := by
  unfold startConnecting
  split
  · exact .pure false
  · split
    · exact .pure false
    · refine .bind (.modify fun _ => rfl) fun _ => .bind ?_ fun _ => .pure true
      refine .bind (.modify fun _ => rfl) fun _ => steady_socketClient.bind fun t => ?_
      exact .ite (.modify fun _ => rfl) (.fail _)

theorem steady_doConnect (E : Config) (D : RouterDomain) : Moves Steady (doConnect E D) :=
  (steady_startConnecting E D).bind fun _ =>
    .ite (.bind (.modify fun _ => rfl) fun _ => .modify fun _ => rfl) (.pure ())

theorem domain_connectDomain (E : Config) (D : RouterDomain) (t : State) :
    ((connectDomain E D).run t).2.domain = some D := by
  rw [connectDomain, run_modify_bind]
  exact steady_doConnect E D { t with domain := some D }

theorem run_tcpConnect {host : Option String} {port : ℤ} (hhost : host.isSome) (hlow : 0 ≤ port)
    (hhigh : port ≤ 65535) {s : State} {t : TcpSocketClient} (ht : s.socketClient = some t) :
    (TcpSocketClient.connect host port).run s = (.ok (),
      (s.onClient fun t => { t with host, port }).onClient TcpSocketClient.bootstrap) := by
  have ht' : (s.onClient fun t => { t with host, port }).socketClient = some { t with host, port } := by
    rw [State.onClient, ht]
    rfl
  have hvalid : (host.isSome && 0 ≤ port && port ≤ 65535) = true := by simp [hhost, hlow, hhigh]
  rw [TcpSocketClient.connect, run_modify_bind, TcpSocketClient.doConnect,
    run_bind_ok (run_socketClient_some ht'), if_pos hvalid]
  rfl

/-- A tunnel can be made where the URL, if there is one, has a host and a port. -/
theorem connectDomain_ok {E : Config} {D : RouterDomain}
    (h : ∀ url ∈ D.getTcpUrl, ∀ u ∈ E.uri url, u.host.isSome ∧ 0 ≤ u.port ∧ u.port ≤ 65535) :
    ((connectDomain E D).run start).1 = .ok () := by
  rw [connectDomain, run_modify_bind]
  obtain ⟨started, s, hrun⟩ : ∃ started s, (startConnecting E D).run { start with domain := some D } =
      (.ok started, s) := by
    rw [startConnecting]
    cases hurl : D.getTcpUrl with
    | none => exact ⟨_, _, rfl⟩
    | some url =>
      simp only
      cases hu : E.uri url with
      | none => exact ⟨_, _, rfl⟩
      | some u =>
        obtain ⟨hhost, hlow, hhigh⟩ := h url hurl u hu
        simp only [run_modify_bind]
        rw [run_bind_ok (run_tcpConnect hhost hlow hhigh (t := {}) rfl)]
        exact ⟨_, _, rfl⟩
  rw [doConnect, run_bind_ok hrun]
  cases started <;> rfl

/-- The tunnel `t`, which is made by the events of one, signs in as the user: whatever comes in between,
the first that is written to a channel is the login of the user, and it is written to each channel that is
connected once there is a callback, as there is for all channels but the first. -/
structure SignsInAs [JavaChar] (E : Config) (t : State) (userId : Option String) : Prop where
  made : (system E).Reaches (fun _ _ => True) start t
  first : ∀ s, (system E).Reaches (fun _ _ => True) start s → s.domain = t.domain → ∀ c,
    ∀ m ∈ (s.channel c).written.head?,
      m.type = some .AUTH_CLIENT ∧ ∃ login, m.data = .authClient login ∧ login.userId = userId
  connected : ∀ l s, (system E).Path (fun _ _ => True) start l s → s.domain = t.domain →
    ∀ st ∈ l, ∀ c, st.event = .connected c →
      (st.before.callsBack = true → (s.channel c).written ≠ []) ∧ (c ≠ 0 → st.before.callsBack = true)

/-- Where the connection has been started, the callbacks are still to be set. -/
theorem run_startConnecting (E : Config) (D : RouterDomain) (s : State) :
    (startConnecting E D).run s = (.ok false, s) ∨ (∃ e s', (startConnecting E D).run s = (.error e, s')) ∨
      ∃ t, (startConnecting E D).run s = (.ok true, { s with socketClient := some t }) ∧ 0 < t.made ∧
        t.connectedCallback = false ∧ t.disconnectedCallback = false := by
  rw [startConnecting]
  split
  · exact .inl rfl
  · split
    · exact .inl rfl
    · next uri _ =>
      let t₀ : TcpSocketClient := { host := uri.host, port := uri.port }
      let s₁ : State := { s with socketClient := some t₀ }
      have hconnect : (TcpSocketClient.connect uri.host uri.port).run { s with socketClient := some {} } =
          TcpSocketClient.doConnect.run s₁ := rfl
      rw [run_modify_bind]
      rcases run_tcpDoConnect (s := s₁) rfl with hrun | hrun
      · rw [run_bind_error (hconnect.trans hrun)]
        exact .inr (.inl ⟨_, _, rfl⟩)
      · rw [run_bind_ok (hconnect.trans hrun)]
        exact .inr (.inr ⟨t₀.bootstrap, rfl, Nat.one_pos, rfl, rfl⟩)

/-- `connectDomain` is a run of a tunnel into which nothing comes. -/
theorem reaches_connectDomain [JavaChar] (E : Config) (D : RouterDomain) :
    (system E).Reaches (fun _ _ => True) start ((connectDomain E D).run start).2 := by
  have hstart : (system E).Reaches (fun _ _ => True) start
      ((startConnecting E D).run { start with domain := some D }).2 :=
    .tail .refl (e := .connectDomain D) trivial rfl
  rw [connectDomain, run_modify_bind, doConnect]
  rcases run_startConnecting E D { start with domain := some D } with
    hrun | ⟨e, s', hrun⟩ | ⟨t, hrun, hmade, hconnected, hdisconnected⟩
  · rw [hrun] at hstart
    rw [run_bind_ok hrun]
    exact hstart
  · rw [hrun] at hstart
    rw [run_bind_error hrun]
    exact hstart
  · rw [hrun] at hstart
    rw [run_bind_ok hrun]
    let s₁ : State := { start with domain := some D, socketClient := some t }
    have hfirst : (system E).step s₁ .onConnected = some (setConnectedCallback.run s₁).2 :=
      if_pos (by simp [s₁, State.toConnected, hmade, hconnected])
    have hsecond : (system E).step (setConnectedCallback.run s₁).2 .onDisconnected =
        some (setDisconnectedCallback.run (setConnectedCallback.run s₁).2).2 :=
      if_pos (by simp [s₁, State.toDisconnected, setConnectedCallback, hdisconnected])
    exact (hstart.tail trivial hfirst).tail trivial hsecond

/-- A tunnel that has been given the callbacks of `DomainService`. -/
theorem reaches_listening [JavaChar] (E : Config) (D : RouterDomain) :
    (system E).Reaches (fun _ _ => True) start ((connectDomain E D).run start).2.listening :=
  ((reaches_connectDomain E D).tail (e := .onMessage) trivial rfl).tail (e := .onAuthenticated) trivial rfl

theorem signsInAs_listening [JavaChar] (E : Config) (D : RouterDomain) :
    SignsInAs E ((connectDomain E D).run start).2.listening
      (some (ProcessorUtils.resolveDomainUserId E.domainName)) where
  made := reaches_listening E D
  first s hs _ c m hm := by
    rcases (spoken_of_reaches hs).spoken c with hnone | ⟨rest, hrest, -⟩
    · rw [hnone] at hm
      cases hm
    · rw [hrest] at hm
      cases hm
      exact ⟨rfl, _, rfl, rfl⟩
  connected l s hs _ st hst c he := by
    refine ⟨fun hcalls => ?_, callsBack_of_ne hs hst he⟩
    obtain ⟨rest, hrest⟩ := written_of_connected hs hst he hcalls
    rw [hrest]
    exact List.cons_ne_nil _ _

end DomainTunnel

namespace DomainTunnelService

open DomainTunnel

variable {E : DomainTunnel.Config}

theorem createTunnel_ok {D : RouterDomain} {t : DomainTunnel.State}
    (h : createTunnel E (some D) = .ok t) : t = ((connectDomain E D).run start).2 := by
  simp only [createTunnel] at h
  split at h
  · next hrun =>
    rw [hrun]
    exact (Except.ok.inj h).symm
  · cases h

theorem exists_createTunnel {D : RouterDomain}
    (h : ∀ url ∈ D.getTcpUrl, ∀ u ∈ E.uri url, u.host.isSome ∧ 0 ≤ u.port ∧ u.port ≤ 65535) :
    ∃ t, createTunnel E (some D) = .ok t := by
  have hok := connectDomain_ok h
  simp only [createTunnel]
  split
  · exact ⟨_, rfl⟩
  · next hrun =>
    rw [hrun] at hok
    cases hok

theorem any_getName {tunnels : List DomainTunnel.State} {t : DomainTunnel.State} :
    (tunnels.any fun t' => t'.getName = t.getName) = true ↔ t.getName ∈ tunnels.map State.getName := by
  rw [List.any_eq_true, List.mem_map]
  simp only [decide_eq_true_eq]

/-- The tunnels that are collected have different names, and each was made for one of the domains. -/
theorem collect_ok {names : List String} {find : String → Option RouterDomain}
    {tunnels tunnels' : List DomainTunnel.State}
    (hfind : ∀ n ∈ names, ∃ D, find n = some D ∧ D.name = n)
    (h : collect E tunnels (names.map find) = .ok tunnels') (hnodup : (tunnels.map State.getName).Nodup) :
    (tunnels'.map State.getName).Nodup ∧
      tunnels'.map State.getName = tunnels.map State.getName ++ names.map some ∧
      ∀ t ∈ tunnels', t ∈ tunnels ∨ ∃ n ∈ names, createTunnel E (find n) = .ok t := by
  induction names generalizing tunnels with
  | nil =>
    cases h
    exact ⟨hnodup, (List.append_nil _).symm, fun t ht => .inl ht⟩
  | cons n names ih =>
    obtain ⟨D, hD, hname⟩ := hfind n List.mem_cons_self
    rw [List.map_cons, hD, collect] at h
    cases hmade : createTunnel E (some D) with
    | error e => rw [hmade] at h; cases h
    | ok t =>
      rw [hmade] at h
      simp only [bind, Except.bind] at h
      split_ifs at h with hnew
      rw [any_getName] at hnew
      have hgetName : t.getName = some n := by
        rw [createTunnel_ok hmade, State.getName, domain_connectDomain, Option.map_some, hname]
      have hmap : (tunnels ++ [t]).map State.getName = tunnels.map State.getName ++ [some n] := by
        rw [List.map_append, List.map_singleton, hgetName]
      obtain ⟨hnodup', hnames, hmem⟩ := ih (fun n' hn' => hfind n' (List.mem_cons_of_mem _ hn')) h
        (hmap ▸ hnodup.append (List.nodup_singleton _)
          (List.disjoint_singleton.2 (hgetName ▸ hnew)))
      refine ⟨hnodup', ?_, fun t' ht' => ?_⟩
      · rw [hnames, hmap, List.append_assoc]
        rfl
      · rcases hmem t' ht' with ht' | ⟨n', hn', hmade'⟩
        · rcases List.mem_append.1 ht' with ht' | ht'
          · exact .inl ht'
          · rw [List.mem_singleton.1 ht']
            exact .inr ⟨n, List.mem_cons_self, by rw [hD, hmade]⟩
        · exact .inr ⟨n', List.mem_cons_of_mem _ hn', hmade'⟩

theorem exists_collect (names : List String) (find : String → Option RouterDomain)
    (tunnels : List DomainTunnel.State)
    (hfind : ∀ n ∈ names, ∃ D, find n = some D ∧ D.name = n ∧ ∃ t, createTunnel E (some D) = .ok t)
    (hnodup : names.Nodup) (hnew : ∀ n ∈ names, some n ∉ tunnels.map State.getName) :
    ∃ tunnels', collect E tunnels (names.map find) = .ok tunnels' := by
  induction names generalizing tunnels with
  | nil => exact ⟨tunnels, rfl⟩
  | cons n names ih =>
    obtain ⟨D, hD, hname, t, hmade⟩ := hfind n List.mem_cons_self
    obtain ⟨hn, hnodup⟩ := List.nodup_cons.1 hnodup
    have hgetName : t.getName = some n := by
      rw [createTunnel_ok hmade, State.getName, domain_connectDomain, Option.map_some, hname]
    obtain ⟨tunnels', h⟩ := ih (tunnels ++ [t])
      (fun n' hn' => hfind n' (List.mem_cons_of_mem _ hn')) hnodup fun n' hn' hmem => by
        rw [List.map_append, List.map_singleton, hgetName] at hmem
        rcases List.mem_append.1 hmem with hmem | hmem
        · exact hnew n' (List.mem_cons_of_mem _ hn') hmem
        · exact hn (Option.some.inj (List.mem_singleton.1 hmem) ▸ hn')
    refine ⟨tunnels', ?_⟩
    rw [List.map_cons, hD, collect, hmade]
    exact (if_neg (mt any_getName.1 (hgetName ▸ hnew n List.mem_cons_self))).trans h

end DomainTunnelService

/-! ### The start -/

theorem exists_of_bind_eq_ok {ε α β : Type} {x : Except ε α} {f : α → Except ε β} {b : β}
    (h : (x >>= f) = .ok b) : ∃ a, x = .ok a ∧ f a = .ok b := by
  cases x with
  | error e => cases h
  | ok a => exact ⟨a, rfl, h⟩

theorem eq_ok_of_mapError {ε ε' α : Type} {x : Except ε α} {f : ε → ε'} {a : α}
    (h : x.mapError f = .ok a) : x = .ok a := by
  cases x with
  | error e => cases h
  | ok a' => cases h; rfl

section

open DomainGraphService DomainTunnelService ClientAppService MessageProcessorService ProcessorUtils
open DomainTunnel (State start connectDomain)

variable {dijkstra : ShortestPathAlgorithm} {uri : String → Option URI} {d n : String}
  {G : DomainGraph} {started : Started}

/-- **A domain that has started** has loaded the graph, and has one tunnel to each domain with which
there is a link. -/
theorem init_ok (h : DomainService.init dijkstra uri d (some G) = .ok started) :
    (∃ service, started.service = some service ∧ loadGraph dijkstra d G = .ok service) ∧
    (started.tunnels.map State.getName).Nodup ∧
    (∀ n, some n ∈ started.tunnels.map State.getName ↔ ⟨d, n⟩ ∈ G.links ∨ ⟨n, d⟩ ∈ G.links) ∧
    ∀ t ∈ started.tunnels, ∃ D ∈ G.domains, t.getName = some D.name ∧
      t = ((connectDomain ⟨some d, uri⟩ D).run start).2.listening := by
  obtain ⟨service, hservice, h⟩ := exists_of_bind_eq_ok h
  obtain ⟨linked, hlinked, h⟩ := exists_of_bind_eq_ok h
  obtain ⟨tunnels, htunnels, h⟩ := exists_of_bind_eq_ok h
  cases h
  have hload := eq_ok_of_mapError hservice
  obtain ⟨names, hnames, -, hmem⟩ := getCurrentLinkedDomains_loadGraph hload
  cases hnames.symm.trans (eq_ok_of_mapError hlinked)
  obtain ⟨hmap, hedge⟩ := hasEdge_loadGraph hload
  obtain ⟨-, hvertices, -, -⟩ := loadGraph_ok hload
  have hfind : ∀ n ∈ names, ∃ D ∈ G.domains,
      service.domainMap.find? (fun d => d.name = n) = some D ∧ D.name = n := by
    intro n hn
    refine find?_domainMap hmap ((hvertices n).1 ?_)
    rcases (hedge d n).2 ((hmem n).1 hn) with he | he
    · exact (service.graph.edges_mem _ he).2
    · exact (service.graph.edges_mem _ he).1
  obtain ⟨hnodup, hgetName, hmade⟩ := collect_ok (fun n hn => (hfind n hn).imp fun _ h => h.2) htunnels
    List.nodup_nil
  have hlistening : (tunnels.map State.listening).map State.getName = tunnels.map State.getName := by
    rw [List.map_map]
    rfl
  refine ⟨⟨service, rfl, hload⟩, hlistening ▸ hnodup, fun n => ?_, fun t ht => ?_⟩
  · rw [hlistening, hgetName, ← hmem n]
    simp
  · obtain ⟨tunnel, htunnel, rfl⟩ := List.mem_map.1 ht
    obtain ⟨n, hn, hcreate⟩ := (hmade tunnel htunnel).resolve_left List.not_mem_nil
    obtain ⟨D, hD, hD', -⟩ := hfind n hn
    rw [hD'] at hcreate
    obtain rfl := createTunnel_ok hcreate
    exact ⟨D, hD, congrArg (Option.map RouterDomain.name)
      (DomainTunnel.domain_connectDomain ⟨some d, uri⟩ D start), rfl⟩

/-- A domain of a well formed graph starts, where the TCP URLs that are URIs have a host and a port. -/
theorem exists_init (hnames : G.names.Nodup)
    (hlinks : ∀ l ∈ G.links, l.n1 ∈ G.names ∧ l.n2 ∈ G.names) (hname : d ∈ G.names)
    (hurls : ∀ D ∈ G.domains, ∀ url ∈ D.getTcpUrl, ∀ u ∈ uri url,
      u.host.isSome ∧ 0 ≤ u.port ∧ u.port ≤ 65535) :
    ∃ started, DomainService.init dijkstra uri d (some G) = .ok started := by
  obtain ⟨service, hload⟩ : ∃ s, loadGraph dijkstra d G = .ok s := exists_loadGraph hnames hlinks hname
  obtain ⟨names, hlinked, hnodup, hmem⟩ := getCurrentLinkedDomains_loadGraph hload
  obtain ⟨tunnels, htunnels⟩ := exists_collect (E := ⟨some d, uri⟩) names
    (fun n => service.domainMap.find? fun d => d.name = n) [] (fun n hn => by
      have hn' : n ∈ G.names := by
        rcases (hmem n).1 hn with hl | hl
        · exact (hlinks _ hl).2
        · exact (hlinks _ hl).1
      obtain ⟨D, hD, hfind, hDname⟩ := find?_domainMap (hasEdge_loadGraph hload).1 hn'
      exact ⟨D, hfind, hDname, exists_createTunnel (hurls D hD)⟩) hnodup fun _ _ => List.not_mem_nil
  refine ⟨⟨some service, tunnels.map State.listening⟩, ?_⟩
  rw [DomainService.init, hload]
  show (((service.getCurrentLinkedDomains d).mapError Throw.java) >>= _) = _
  rw [hlinked]
  show (loadDomains ⟨some d, uri⟩ _ >>= _) = _
  rw [loadDomains, htunnels]
  rfl

variable [JavaChar] {E : Environment} {startedOf : String → Started}

/-- Where a message for another domain is routed to. -/
theorem exists_neighbour
    (hstart : ∀ d ∈ G.names, DomainService.init dijkstra uri d (some G) = .ok (startedOf d))
    (hpaths : ∀ d ∈ G.names, ∀ g, ShortestPaths G.network d (dijkstra g d))
    (hname : E.domainName ∈ G.names)
    (hroutes : E.routes = (startedOf E.domainName).service.map getNextDomainName) {m : Message}
    {v : Option String} (hloc : isLocal E m = false) (hv : routedTo E m = some v) :
    ∃ n ∈ G.names, G.network.Adj E.domainName n ∧
      (∃ t ∈ (startedOf E.domainName).tunnels, t.getName = some n) ∧
      ∃ t ∈ (startedOf n).tunnels, t.getName = some E.domainName ∧
        DomainTunnel.SignsInAs ⟨some n, uri⟩ t v := by
  obtain ⟨⟨service, hservice, hload⟩, -, hlinked, -⟩ := init_ok (hstart _ hname)
  rw [hservice, Option.map_some] at hroutes
  unfold routedTo at hv
  rw [hloc, if_neg Bool.false_ne_true, hroutes, Option.bind_some] at hv
  split_ifs at hv with htype hblank
  cases hv
  -- the next domain on the way
  obtain ⟨n, hn⟩ : ∃ n, service.getNextDomainName (domainOf E m) = some n := by
    cases hnext : service.getNextDomainName (domainOf E m) with
    | none => rw [hnext] at hblank; exact absurd rfl hblank
    | some n => exact ⟨n, rfl⟩
  obtain ⟨t, ht⟩ : ∃ t, domainOf E m = some t := by
    cases hdomain : domainOf E m with
    | none => rw [hdomain] at hn; cases hn
    | some t => exact ⟨t, rfl⟩
  rw [ht] at hn
  have hadj : G.network.Adj E.domainName n := by
    rcases adj_of_getNextDomainName hload (hpaths _ hname _) hn with hadj | ⟨rfl, -⟩
    · exact hadj
    · -- the message would be local
      rw [isLocal, ht, equalsIgnoreCase_refl, Bool.or_true] at hloc
      cases hloc
  have hmem : n ∈ G.names := by
    obtain ⟨-, hvertices, hsimple, -⟩ := loadGraph_ok hload
    rw [← hsimple] at hadj
    rw [← hvertices]
    rcases hadj.2 with he | he
    · exact (service.graph.edges_mem _ he).2
    · exact (service.graph.edges_mem _ he).1
  obtain ⟨here, hhere, hnamed⟩ := List.mem_map.1 ((hlinked n).2 hadj.2)
  obtain ⟨-, -, hlinked', hmade⟩ := init_ok (hstart n hmem)
  obtain ⟨there, hthere, hnamed'⟩ := List.mem_map.1 ((hlinked' E.domainName).2 hadj.2.symm)
  obtain ⟨D, -, -, heq⟩ := hmade there hthere
  refine ⟨n, hmem, hadj, ⟨here, hhere, hnamed⟩, there, hthere, hnamed', ?_⟩
  rw [ht, hn, heq]
  exact DomainTunnel.signsInAs_listening ⟨some n, uri⟩ D

end

/-! ### Two domains -/

namespace SampleStart

open DomainGraphService ProcessorUtils ClientAppService
open DomainTunnel (State)

/-- Two linked domains. -/
def pair : DomainGraph where
  domains := [{ name := "domain-01", urls := ["tcp://localhost:9089"] },
    { name := "domain-02", urls := ["tcp://localhost:9189"] }]
  links := [⟨"domain-01", "domain-02"⟩]

def dijkstra : ShortestPathAlgorithm := fun _ source target =>
  if source = target then some [source]
  else if target ∈ pair.names then some [source, target]
  else none

theorem adj_of_ne {a b : String} (ha : a ∈ pair.names) (hb : b ∈ pair.names) (h : a ≠ b) :
    pair.network.Adj a b := by
  have hall : ∀ a ∈ pair.names, ∀ b ∈ pair.names, a ≠ b → ⟨a, b⟩ ∈ pair.links ∨ ⟨b, a⟩ ∈ pair.links := by
    decide
  exact ⟨h, hall a ha b hb h⟩

theorem mem_names_of_walk {a b : String} (p : pair.network.Walk a b) (ha : a ∈ pair.names) :
    b ∈ pair.names := by
  have hlinks : ∀ l ∈ pair.links, l.n1 ∈ pair.names ∧ l.n2 ∈ pair.names := by decide
  induction p with
  | nil => exact ha
  | cons hadj q ih =>
    refine ih ?_
    rcases hadj.2 with hl | hl
    · exact (hlinks _ hl).2
    · exact (hlinks _ hl).1

theorem dijkstra_shortest {d : String} (hd : d ∈ pair.names) (g : UndirectedGraph) :
    ShortestPaths pair.network d (dijkstra g d) where
  reachable t ht := by
    by_cases hne : d = t
    · subst hne
      exact ⟨.nil, by simp, if_pos rfl⟩
    · have hmem := mem_names_of_walk ht.some hd
      have hadj := adj_of_ne hd hmem hne
      exact ⟨.cons hadj .nil, (SimpleGraph.dist_eq_one_iff_adj.2 hadj).symm,
        (if_neg hne).trans (if_pos hmem)⟩
  unreachable t ht := by
    have hne : d ≠ t := fun h => ht (h ▸ .refl d)
    exact (if_neg hne).trans (if_neg fun hmem => ht (adj_of_ne hd hmem hne).reachable)

def uri (url : String) : Option URI :=
  if url = "tcp://localhost:9089" then some ⟨some "localhost", 9089⟩
  else if url = "tcp://localhost:9189" then some ⟨some "localhost", 9189⟩
  else none

def startedOf (d : String) : Started :=
  match DomainService.init dijkstra uri d (some pair) with
  | .ok started => started
  | .error _ => {}

theorem init_startedOf {d : String} (hd : d ∈ pair.names) :
    DomainService.init dijkstra uri d (some pair) = .ok (startedOf d) := by
  have hurls : ∀ D ∈ pair.domains, ∀ url ∈ D.getTcpUrl, ∀ u ∈ uri url,
      u.host.isSome ∧ 0 ≤ u.port ∧ u.port ≤ 65535 := by
    decide +kernel
  obtain ⟨started, hstarted⟩ : ∃ started, DomainService.init dijkstra uri d (some pair) = .ok started :=
    exists_init (by decide) (by decide) hd hurls
  rw [startedOf, hstarted]

def env : Environment :=
  { CustomGroupMessageProcessor.Sample.env "domain-01" with
    routes := (startedOf "domain-01").service.map getNextDomainName }

/-- A message in its wrapper, on the way to the other domain. -/
def outward : Message :=
  { newMessage "1" 1 with
    content := some (createMessageContent .INTERNAL_MESSAGE .null (some .RELIABLE))
    from_ := some "APP-7"
    to_ := some "APP-105"
    meta_ := some { targetAddress := some { domainName := some "domain-02" } } }

end SampleStart

section

attribute [local instance] JavaChar.ascii

open SampleStart ProcessorUtils DomainGraphService

/-- The user of the other domain is at a connector. -/
def online : Processor.State where
  channels u := if u = "domain2-1" then some [⟨some "domain-01", some "connector-01", some 7⟩] else none

end

end Linker.Processor
