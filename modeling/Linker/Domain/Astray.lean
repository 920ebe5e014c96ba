import Linker.Domain.PointToPoint

/-!
# Next domains that lead nowhere

A domain loads the graph once, when it starts.  If the graph has changed between the starts of two
domains, each can take the other for the next one on the way.  Only group messages come to an end then:
the TTL of a group message is counted down in every domain, but a message for a single user travels in
wrappers, which get a TTL of their own from the domain that makes them.

## Main definitions

* `Federation.After` : what holds after so many moves, whatever is in the stores of the domains.
* `Federation.Astray` : between these domains nothing moves to the target.

## Main results

* `never_home` : a message for one user is moved on for ever, a group message is gone after nine moves.
* `home_or_never` : a message for one user gets home or is moved on for ever.
-/

namespace Linker

open Processor ProcessorUtils ClientAppService MessageProcessorService Exec

namespace Federation

variable [JavaChar] (F : Federation)

/-- While the domain users are connected and the producers take the records, what begins in the domain
`d` is moved on so many times, and then `P` holds of the domain and of what its tunnel does. -/
def After (P : String → Proc Unit → Prop) : ℕ → String → Proc Unit → Prop
  | 0, d, x => P d x
  | k + 1, d, x => ∀ s, F.Ready d s → s.refused.headD false = false →
      ∃ n data, F.Forwards d x s n data ∧ After P k n (F.tunnel n data)

/-- The tunnel of one of the domains brings the message, in a wrapper. -/
def Travels (S : Set String) (i : Message) (d : String) (x : Proc Unit) : Prop :=
  d ∈ S ∧ x = F.tunnel d (.message i)

/-- The next domain on the way from one of the domains to `t` is one of them, and none of them is `t`. -/
structure Astray (S : Set String) (t : String) : Prop where
  away : ∀ d ∈ S, equalsIgnoreCase (some d) (some t) = false
  next : ∀ d ∈ S, ∃ n ∈ S, (F.services d).getNextDomainName (some t) = some n ∧ n ≠ d

variable {F} {S : Set String} {v home t d : String} {m i : Message} {f : MessageFeature}
  {payload : GroupMessage} {x : Proc Unit} {P : Message → Prop}

theorem After.mono {Q Q' : String → Proc Unit → Prop} (hQ : ∀ n x, Q n x → Q' n x) {k : ℕ}
    (h : F.After Q k d x) : F.After Q' k d x := by
  induction k generalizing d x with
  | zero => exact hQ d x h
  | succ k ih =>
    intro s hs hrefused
    obtain ⟨n, data, hforwards, hafter⟩ := h s hs hrefused
    exact ⟨n, data, hforwards, ih hafter⟩

/-- In a wrapper the message is what it was, so it can be moved on any number of times. -/
theorem travels_of_astray (h : F.Astray S home)
    (happs : ∀ d, LivesIn (F.domain d).env.clientApps v home) (hi : IsInner i v f) (hd : d ∈ S) (k : ℕ) :
    F.After (F.Travels S i) k d (F.tunnel d (.message i)) := by
  induction k generalizing d with
  | zero => exact ⟨hd, rfl⟩
  | succ k ih =>
    intro s hs hrefused
    obtain ⟨n, hn, hnext, hne⟩ := h.next d hd
    obtain ⟨w, -, hforwards, -⟩ := forwards_tunnel hi (happs d) (h.away d hd) hnext hne hs hrefused
    exact ⟨n, _, hforwards, ih hn⟩

/-- A group message has a move less in every domain. -/
theorem dropped_of_astray (h : F.Astray S t) {r : ℕ} (hcalls : Calls (F.domain d).env x P)
    (hP : ∀ i, P i → IsSubMessage t payload (r + 1 : ℕ) i) (hd : d ∈ S) (httl : r ≤ 10) :
    F.After (fun _ x => ∀ s, Dropped x s) r d x := by
  induction r generalizing d x P with
  | zero =>
    intro s
    obtain ⟨i, depth, s₁, handler, hi, hbegins, hrun⟩ := hcalls s
    have hdead := run_process_dead (E := (F.domain d).env) (hP i hi) (by rw [wrap32_pred httl]; simp)
      (depth + 1) s₁
    have hx : x.run s = (.ok (), s₁.noting i) := by
      rw [hrun, run_recover, hdead]
    constructor <;> rw [hx]
    exacts [hbegins.parcels, hbegins.messages, hbegins.channels, hbegins.httpCalls]
  | succ r ih =>
    intro s hs hrefused
    obtain ⟨n, hn, hnext, hne⟩ := h.next d hd
    have halive : 0 < wrap32 ((r + 1 + 1 : ℕ) - 1) := by
      rw [wrap32_pred httl]
      omega
    rcases saves_or_forwards hcalls hP halive (h.away d hd) hnext hne hs with
      ⟨-, hoffer⟩ | ⟨i, hi, hforwards⟩
    · rw [hrefused] at hoffer
      cases hoffer
    · have hi' := isSubMessage_touch (hP i hi) (by rw [wrap32_pred httl]; simp)
      refine ⟨n, _, hforwards, ih (calls_tunnel hi') ?_ hn (by omega)⟩
      rintro j rfl
      simpa using hi'

/-- **What the TTL ends.**  Where the next domains never lead home, a message for one user is moved on
any number of times, and a group message is dropped after nine moves. -/
theorem never_home (h : F.Astray S home) (hd : d ∈ S) :
    (∀ m v f, IsFresh m v f → LivesIn (F.domain d).env.clientApps v home →
      ∀ k, F.After (F.Travels S (m.touch.setTo (some v))) (k + 1) d
        (MessageProcessorService.process (F.domain d).env m)) ∧
    ∀ (m : Message) c u depth users data, m.content = some c → c.feature = some .RELIABLE →
      m.meta_ = some u →
      F.After (fun _ x => ∀ s, Dropped x s) 9 d
        (CustomGroupMessageProcessor.processOtherDomain (F.domain d).env
          (Processor.process (F.domain d).env (depth + 2)) (some home) users m data) := by
  refine ⟨fun m v f hm hv k s hs hrefused => ?_, fun m c u depth users data hc hf hu => ?_⟩
  · obtain ⟨n, hn, hnext, hne⟩ := h.next d hd
    obtain ⟨w, -, hforwards, -⟩ := forwards_sender hm hv (h.away d hd) hnext hne hs hrefused
    have happs : ∀ d', LivesIn (F.domain d').env.clientApps v home := fun d' => F.clientApps d d' ▸ hv
    exact ⟨n, _, hforwards, travels_of_astray h happs (isInner_of_isFresh hm) hn k⟩
  · exact dropped_of_astray h (r := 9) (calls_processOtherDomain hc hf hu depth home users data)
      (fun _ hi => hi) hd (by omega)

/-- One move more. -/
theorem handsOver_succ (hi : IsInner i v f) (happs : ∀ d, LivesIn (F.domain d).env.clientApps v home)
    (hloc : equalsIgnoreCase (some d) (some home) = false) {n : String}
    (hnext : (F.services d).getNextDomainName (some home) = some n) (hne : n ≠ d) {k : ℕ}
    (hn : F.HandsOver home i k n) : F.HandsOver home i (k + 1) d := by
  intro s hs hrefused
  obtain ⟨w, htype, hforwards, hjournal, -⟩ := forwards_tunnel hi (happs d) hloc hnext hne hs hrefused
  exact ⟨n, w, htype, hforwards, hjournal, hn⟩

/-- **Home, or for ever on the way.**  Among domains each of which has a next one on the way, a message
for one user is processed at home in the end, or there is no end. -/
theorem home_or_never {T : Set String}
    (hname : ∀ d ∈ T, equalsIgnoreCase (some d) (some home) = true → d = home)
    (hnext : ∀ d ∈ T, d ≠ home →
      ∃ n ∈ T, (F.services d).getNextDomainName (some home) = some n ∧ n ≠ d)
    (hd : d ∈ T) (hne : d ≠ home) (hv : LivesIn (F.domain d).env.clientApps v home)
    (hm : IsFresh m v f) {s : Processor.State} (hs : F.Ready d s)
    (hrefused : s.refused.headD false = false) :
    ∃ n, F.Forwards d (MessageProcessorService.process (F.domain d).env m) s n
        (.message (m.touch.setTo (some v))) ∧
      ((∃ k, F.HandsOver home (m.touch.setTo (some v)) k n) ∨
        ∀ k, F.After (F.Travels {n ∈ T | n ≠ home} (m.touch.setTo (some v))) k n
          (F.tunnel n (.message (m.touch.setTo (some v))))) := by
  have happs : ∀ d', LivesIn (F.domain d').env.clientApps v home := fun d' => F.clientApps d d' ▸ hv
  have hi := isInner_of_isFresh hm
  have haway : ∀ d ∈ T, d ≠ home → equalsIgnoreCase (some d) (some home) = false := by
    intro d hd hne
    by_contra heq
    exact hne (hname d hd (by simpa using heq))
  obtain ⟨n, hn, hmove, hnd⟩ := hnext d hd hne
  obtain ⟨w, -, hforwards, -⟩ := forwards_sender hm hv (haway d hd hne) hmove hnd hs hrefused
  refine ⟨n, hforwards, or_iff_not_imp_left.2 fun hhome k => ?_⟩
  -- the domains from which the message does not get home
  let S : Set String := {n ∈ T | ¬ ∃ k, F.HandsOver home (m.touch.setTo (some v)) k n}
  have hnothome : ∀ d ∈ S, d ≠ home := by
    rintro _ ⟨-, hlost⟩ rfl
    exact hlost ⟨0, handsOver_home hi (happs _)⟩
  have hastray : F.Astray S home := by
    refine ⟨fun d hd => haway d hd.1 (hnothome d hd), fun d hd => ?_⟩
    obtain ⟨n, hn, hmove, hnd⟩ := hnext d hd.1 (hnothome d hd)
    refine ⟨n, ⟨hn, fun ⟨k, hk⟩ => hd.2 ⟨k + 1, ?_⟩⟩, hmove, hnd⟩
    exact handsOver_succ hi happs (haway d hd.1 (hnothome d hd)) hmove hnd hk
  have htravels := travels_of_astray hastray happs hi ⟨hn, hhome⟩ k
  exact htravels.mono fun n x hx => ⟨⟨hx.1.1, hnothome n hx.1⟩, hx.2⟩

end Federation

/-! ### Two domains that started at different times -/

section

attribute [local instance] JavaChar.ascii

namespace SampleAstray

open SampleJourney

/-- The domain 3 was linked to 1 when 2 started, and to 2 when 1 started. -/
def paths : String → List (String × List String)
  | "2" => [("1", ["2", "1"]), ("2", ["2"]), ("3", ["2", "1", "3"])]
  | d => SampleGraph.paths d

def services (d : String) : DomainGraphService :=
  { SampleGraph.services d with path := fun t => (paths d).lookup t }

/-- There is no graph that both have loaded. -/
def federation : Federation where
  graph := { domains := [], links := [] }
  dijkstra _ := SampleGraph.dijkstra
  services := services
  domain := domain "1" "3" services
  domainName _ := rfl
  clientApps _ _ := rfl
  routes _ := rfl
  loaded _ hd := by cases hd
  shortest _ hd := by cases hd

theorem astray : federation.Astray {"1", "2"} "3" where
  away d hd := by
    rcases hd with rfl | rfl <;> decide +kernel
  next d hd := by
    rcases hd with rfl | rfl
    · exact ⟨"2", .inr rfl, by decide +kernel, by decide⟩
    · exact ⟨"1", .inl rfl, by decide +kernel, by decide⟩

/-- The next domains are among those that a domain has a path to. -/
theorem ready {d : String} (hd : d ∈ ["1", "2"]) : federation.Ready d (connected d) where
  online t n hnext _ := by
    have hvertices : ∀ d ∈ ["1", "2"], ∀ p ∈ paths d, ∀ n ∈ p.2, n ∈ ["1", "2", "3"] := by
      decide +kernel
    have hnames : ∀ n ∈ ["1", "2", "3"], isBlank (some n) = false ∧
        isConnectorUser (some (resolveDomainUserId (some n))) = false := by decide +kernel
    have hn : n ∈ ["1", "2", "3"] := by
      have hpath : (services d).getNextDomainName (some t) = some n := hnext
      unfold DomainGraphService.getNextDomainName DomainGraphService.computePath at hpath
      cases hlookup : (paths d).lookup t with
      | none => simp [services, hlookup] at hpath
      | some p =>
        obtain ⟨l₁, l₂, hl, -⟩ := List.lookup_eq_some_iff.1 hlookup
        refine hvertices d hd (t, p) (hl ▸ List.mem_append_right _ List.mem_cons_self) n ?_
        rcases p with _ | ⟨a, _ | ⟨b, p⟩⟩ <;> simp_all [services]
    refine ⟨(hnames n hn).1, (hnames n hn).2, _, rfl, List.cons_ne_nil _ _, ?_⟩
    intro a ha
    rw [List.mem_singleton.1 ha]
    exact Option.some_ne_none _

end SampleAstray

open SampleJourney

/-- The letter to APP-105 goes to and fro between 1 and 2, a group message only nine times. -/
theorem never_home_astray :
    (∀ d ∈ ["1", "2"], SampleAstray.federation.Ready d (connected d)) ∧
    (∀ k, SampleAstray.federation.After
      (SampleAstray.federation.Travels {"1", "2"} (letter.touch.setTo (some "APP-105"))) (k + 1) "1"
      (MessageProcessorService.process (SampleAstray.federation.domain "1").env letter)) ∧
    SampleAstray.federation.After (fun _ x => ∀ s, Federation.Dropped x s) 9 "1"
      (CustomGroupMessageProcessor.processOtherDomain (SampleAstray.federation.domain "1").env
        (Processor.process (SampleAstray.federation.domain "1").env 2) (some "3") [some "APP-105"]
        message ⟨some [some "APP-5", some "APP-105"], some "hello"⟩) := by
  have hv : LivesIn (SampleAstray.federation.domain "1").env.clientApps "APP-105" "3" := livesIn_letter
  obtain ⟨hsingle, hgroup⟩ := Federation.never_home SampleAstray.astray (d := "1") (.inl rfl)
  have hfresh : IsFresh letter "APP-105" .RELIABLE :=
    ⟨rfl, ⟨_, rfl, rfl, rfl⟩, ⟨_, rfl, rfl⟩⟩
  exact ⟨fun d hd => SampleAstray.ready hd, hsingle letter "APP-105" .RELIABLE hfresh hv,
    hgroup message _ _ 0 [some "APP-105"] ⟨some [some "APP-5", some "APP-105"], some "hello"⟩
      rfl rfl rfl⟩

/-- In a line of three domains the letter gets home. -/
theorem home_or_never_lineOfThree : ∃ n,
    lineOfThree.Forwards "1" (MessageProcessorService.process (lineOfThree.domain "1").env letter)
      (connected "1") n (.message (letter.touch.setTo (some "APP-105"))) ∧
    ((∃ k, lineOfThree.HandsOver "3" (letter.touch.setTo (some "APP-105")) k n) ∨
      ∀ k, lineOfThree.After
        (lineOfThree.Travels {n ∈ {d | d ∈ ["1", "2", "3"]} | n ≠ "3"}
          (letter.touch.setTo (some "APP-105"))) k n
        (lineOfThree.tunnel n (.message (letter.touch.setTo (some "APP-105"))))) := by
  have hnames : ∀ n ∈ lineOfThree.graph.names, isBlank (some n) = false ∧
      isConnectorUser (some (resolveDomainUserId (some n))) = false := by decide +kernel
  have hname : ∀ d ∈ ["1", "2", "3"], equalsIgnoreCase (some d) (some "3") = true → d = "3" := by
    decide +kernel
  have hnext : ∀ d ∈ ["1", "2", "3"], d ≠ "3" → ∃ n ∈ ["1", "2", "3"],
      (lineOfThree.services d).getNextDomainName (some "3") = some n ∧ n ≠ d := by decide +kernel
  have hfresh : IsFresh letter "APP-105" .RELIABLE :=
    ⟨rfl, ⟨_, rfl, rfl, rfl⟩, ⟨_, rfl, rfl⟩⟩
  have hhere : "1" ∈ {d | d ∈ ["1", "2", "3"]} := List.mem_cons_self
  exact Federation.home_or_never (F := lineOfThree) hname hnext hhere (by decide) livesIn_letter hfresh
    (ready_of_names (by decide +kernel) hnames) rfl

end

end Linker
