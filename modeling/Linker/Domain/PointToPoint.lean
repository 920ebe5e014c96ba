import Linker.Domain.Journey

/-!
# Messages to a user of another domain

A message for a single user is processed once where it is built and once in the home domain of the
recipient.  On the way it stays in a wrapper that every domain makes anew and addresses to the
recipient, so the domains on the way see from the recipient that the wrapper is not for them.

## Main definitions

* `LivesIn` : the distributions of the user's app name its home.
* `Federation.HandsOver` : what a tunnel brings ends with one call of `process` on the message, at home.

## Main result

* `forwarding_refines` : the whole way from the sender's domain.
-/

namespace Linker

open Processor ProcessorUtils ClientAppService MessageProcessorService Exec

namespace Processor

variable [JavaChar]

/-- The app of the user distributes it to the domain. -/
def LivesIn (clientApps : String → Option ClientApp) (v home : String) : Prop :=
  ∃ appName number app l d, NameRecord.parse (some v) = ⟨some appName, some number⟩ ∧
    isBlank (some appName) = false ∧ clientApps appName = some app ∧
    app.userDistributions = some l ∧ l.find? (covers number) = some d ∧ d.domainName = some home

/-- A message for one user as it is built, before any processor has touched it. -/
structure IsFresh (m : Message) (v : String) (f : MessageFeature) : Prop where
  recipient : recipient m = some v
  meta_ : ∃ t, m.meta_ = some t ∧ t.ttl = some 10 ∧ t.targetAddress = none
  content : ∃ c, m.content = some c ∧ c.feature = some f

/-- A message for one user as it travels in its wrappers. -/
structure IsInner (i : Message) (v : String) (f : MessageFeature) : Prop where
  to_ : i.to_ = some v
  meta_ : ∃ t, i.meta_ = some t ∧ t.targetAddress = none
  content : ∃ c, i.content = some c ∧ c.feature = some f

variable {E : Environment} {v home : String} {m i w : Message} {f : MessageFeature}

theorem LivesIn.isBlank (h : LivesIn E.clientApps v home) : isBlank (some v) = false := by
  obtain ⟨appName, number, app, l, d, hparse, -⟩ := h
  by_contra hblank
  rw [NameRecord.parse, if_pos (by simpa using hblank)] at hparse
  cases hparse

theorem LivesIn.resolveDomain (h : LivesIn E.clientApps v home) :
    resolveDomain E (some v) = some home := by
  have hblank := h.isBlank
  obtain ⟨appName, number, app, l, d, hparse, hname, happ, hl, hd, hhome⟩ := h
  have hempty : isEmpty (some v) = false := by
    rw [isEmpty]
    by_contra hnil
    have hv : v = "" := by simpa using hnil
    rw [hv] at hblank
    exact absurd hblank (by decide)
  have hvalid : (NameRecord.mk (some appName) (some number)).isValid = true := by
    simp [NameRecord.isValid, hname]
  have hget : getClientAppByUserId E (some v) = some app := by
    rw [getClientAppByUserId, hempty, if_neg Bool.false_ne_true, hparse, if_pos hvalid,
      getClientAppByName, hname, if_neg Bool.false_ne_true]
    exact happ
  rw [ClientAppService.resolveDomain, hget]
  simp only [hl, hparse, hd]
  exact hhome

omit [JavaChar] in
theorem isInner_of_isFresh (h : IsFresh m v f) : IsInner (m.touch.setTo (some v)) v f := by
  obtain ⟨t, ht, -, htarget⟩ := h.meta_
  obtain ⟨c, hc, hf⟩ := h.content
  refine ⟨rfl, ⟨t.touch, ?_, htarget⟩, ⟨c, hc, hf⟩⟩
  rw [MessageOf.setTo_meta, MessageOf.touch, MessageOf.updateMeta_meta, ht]
  rfl

/-- Without a target address, a message is for the home of whom it is for. -/
theorem domainOf_inner (hi : IsInner i v f) (hv : LivesIn E.clientApps v home) :
    domainOf E i = some home := by
  obtain ⟨t, ht, htarget⟩ := hi.meta_
  have hnone : i.targetAddress = none := by rw [MessageOf.targetAddress, ht]; exact htarget
  rw [domainOf, hnone, hi.to_]
  exact hv.resolveDomain

theorem isLocal_inner (hi : IsInner i v f) (hv : LivesIn E.clientApps v home) :
    isLocal E i = equalsIgnoreCase (some E.domainName) (some home) := by
  rw [isLocal, hi.to_, hv.isBlank, Bool.false_or, domainOf_inner hi hv]

/-- The wrapper that the sender's domain makes.  What `process` does with the message, it does with the
wrapper. -/
theorem exists_wrapper (hm : IsFresh m v f) (hv : LivesIn E.clientApps v home)
    (haway : equalsIgnoreCase (some E.domainName) (some home) = false) (s : State) :
    ∃ w depth, IsWrapper w (m.touch.setTo (some v)) f ∧ domainOf E w = some home ∧
      isLocal E w = false ∧
      ∀ s', (Processor.process E (depth + 1) w).run (s.noting m).next = (.ok (), s') →
        (MessageProcessorService.process E m).run s = (.ok (), s') := by
  obtain ⟨t, ht, httl, -⟩ := hm.meta_
  obtain ⟨c, hc, hf⟩ := hm.content
  have hinner := isInner_of_isFresh hm
  have hlocal : isLocal E (m.touch.setTo (some v)) = false := by
    rw [isLocal_inner hinner hv]
    exact haway
  have hw := isWrapper_internalMessage (E := E) s.serial (m.touch.setTo (some v)) f (some home)
  have hrun := fun process => run_processWith_outside (E := E) process ht
    (isAlive_touch httl (by decide)) hc hm.recipient hlocal s
  rw [domainOf_inner hinner hv, hf] at hrun
  generalize hwrap : internalMessage (E.blank s.serial) (m.touch.setTo (some v)) (some f)
    (some home) = w at hw hrun
  have hdomain : domainOf E w = some home := by rw [← hwrap]; rfl
  have haway' : isLocal E w = false := by
    rw [isLocal, hw.to_, hinner.to_, hv.isBlank, Bool.false_or, hdomain]
    exact haway
  obtain ⟨depth, hdepth⟩ : ∃ n, callDepth m = n + 2 :=
    ⟨callDepth m - 2, by unfold callDepth; omega⟩
  refine ⟨w, depth, hw, hdomain, haway', fun s' hs' => ?_⟩
  rw [MessageProcessorService.process, hdepth]
  refine (hrun (Processor.process E (depth + 1))).trans ?_
  rw [Proc.during, run_reraise_ok hs']

omit [JavaChar] in
/-- A wrapper takes one call of `process` more than what it holds. -/
theorem callDepth_wrapper {c : MessageContent} (hc : i.content = some c) (hw : w.data = .message i) :
    callDepth w = callDepth i + 1 := by
  obtain ⟨id, version, content, from_, to_, meta_, createdAt, state⟩ := i
  cases hc
  have hnesting : w.nesting = c.data.nesting + 1 := by
    rw [MessageOf.nesting, hw]
    rfl
  rw [callDepth, callDepth, hnesting]
  show _ = c.data.nesting + (2 ^ 31 + 8) + 1
  omega

end Processor

/-- Where nothing is thrown there is nothing to handle. -/
theorem run_recover_of_ok {x : Proc Unit} {s s' : Processor.State} (hx : x.run s = (.ok (), s'))
    (h : Thrown → Proc Unit) : (x.recover h).run s = (.ok (), s') := by
  rw [run_recover, hx]

/-- What a record begins with, where the processing of it begins with the other computation. -/
theorem exists_recover {x y z : Proc Unit} {s₀ s s' : Processor.State} {g h : Thrown → Proc Unit}
    (hz : z.run s₀ = (x.recover g).run s) (hx : x.run s = (y.recover h).run s') :
    ∃ h', z.run s₀ = (y.recover h').run s' :=
  ⟨_, hz.trans (run_recover_recover hx g)⟩

namespace Federation

variable [JavaChar] (F : Federation)

/-- What the tunnel brings to the domain `d` is passed on so many times, without a call of `process` on
the message `i` itself.  In the end there is one such call, in the home domain. -/
def HandsOver (home : String) (i : Message) : ℕ → String → Prop
  | 0, d => d = home ∧ ∀ s, ∃ w h, MessageOf.type w = some .INTERNAL_MESSAGE ∧
      (F.tunnel d (.message i)).run s =
        ((MessageProcessorService.process (F.domain d).env i).recover h).run (s.next.noting w)
  | k + 1, d => ∀ s, F.Ready d s → s.refused.headD false = false →
      ∃ n w, MessageOf.type w = some .INTERNAL_MESSAGE ∧
        F.Forwards d (F.tunnel d (.message i)) s n (.message i) ∧
        ((F.tunnel d (.message i)).run s).2.journal = s.journal ++ [.processing w] ∧
        HandsOver home i k n

variable {F} {v home d : String} {m i : Message} {f : MessageFeature} {s : Processor.State}

/-- All that is put on the topics is one internal message. -/
def SendsWrapper (x : Proc Unit) (s : Processor.State) : Prop :=
  ∃ p, (x.run s).2.parcels = s.parcels ++ [p] ∧ p.message.type = some .INTERNAL_MESSAGE

/-- A wrapper that a domain has made goes to the neighbour, and it is the last that the domain processes. -/
theorem forwards_wrapper {w : Message} {x : Proc Unit} (s₁ : Processor.State) {n : String}
    (hw : IsWrapper w i f) (hto : isBlank w.to_ = false)
    (hdom : domainOf (F.domain d).env w = some home)
    (hloc : equalsIgnoreCase (some d) (some home) = false)
    (hnext : (F.services d).getNextDomainName (some home) = some n) (hne : n ≠ d) (hs : F.Ready d s)
    (hchannels : s₁.channels = s.channels) (hmessages : s₁.messages = s.messages)
    (hparcels : s₁.parcels = s.parcels) (hrefused : s₁.refused.headD false = false) (depth : ℕ)
    (hx : ∀ s', (Processor.process (F.domain d).env (depth + 1) w).run s₁ = (.ok (), s') →
      x.run s = (.ok (), s')) :
    F.Forwards d x s n (.message i) ∧ (x.run s).2.journal = s₁.journal ++ [.processing w] ∧
      SendsWrapper x s := by
  have hwloc : isLocal (F.domain d).env w = false := by
    rw [isLocal, hto, Bool.false_or, hdom, F.domainName]
    exact hloc
  obtain ⟨hnonblank, huser, l, hl, hnil, hnamed⟩ := hs.online home n hnext hne
  have hneighbour : Neighbour (F.domain d).env s₁ (domainOf (F.domain d).env w) n l :=
    ⟨⟨_, F.routes d, hdom ▸ hnext⟩, hnonblank, huser, hchannels ▸ hl, hnil, hnamed⟩
  obtain ⟨a, ha, picks, hsend⟩ := run_process_onward hw hwloc hneighbour depth
  have hrun := hx _ hsend
  have hrefused' : ((s₁.noting w).picking picks).refused.headD false = false := hrefused
  refine ⟨forwards_of_offer hw hrun hmessages hparcels hrefused hl ha (hnamed a ha), ?_,
    copyTo f (sentOn (F.domain d).env n w.touch) a, ?_, ?_⟩
  · rw [hrun, State.offer_accepted hrefused']
    rfl
  · rw [hrun, State.offer_accepted hrefused']
    exact congrArg (· ++ [copyTo f (sentOn (F.domain d).env n w.touch) a]) hparcels
  · obtain ⟨c, hc, htype, -⟩ := content_sentOn (E := (F.domain d).env) hw n
    show (sentOn (F.domain d).env n w.touch).content.bind (·.type) = _
    rw [hc]
    exact htype

/-- The sender's domain wraps the message and sends it on. -/
theorem forwards_sender (hm : IsFresh m v f) (hv : LivesIn (F.domain d).env.clientApps v home)
    (hloc : equalsIgnoreCase (some d) (some home) = false) {n : String}
    (hnext : (F.services d).getNextDomainName (some home) = some n) (hne : n ≠ d) (hs : F.Ready d s)
    (hrefused : s.refused.headD false = false) :
    ∃ w, MessageOf.type w = some .INTERNAL_MESSAGE ∧
      F.Forwards d (MessageProcessorService.process (F.domain d).env m) s n
        (.message (m.touch.setTo (some v))) ∧
      ((MessageProcessorService.process (F.domain d).env m).run s).2.journal =
        s.journal ++ [.processing m, .processing w] ∧
      SendsWrapper (MessageProcessorService.process (F.domain d).env m) s := by
  have haway : equalsIgnoreCase (some (F.domain d).env.domainName) (some home) = false := by
    rw [F.domainName]
    exact hloc
  obtain ⟨w, depth, hw, hdomain, -, hx⟩ := exists_wrapper hm hv haway s
  have hto : isBlank w.to_ = false := hw.to_ ▸ hv.isBlank
  obtain ⟨hforwards, hjournal, hsends⟩ := forwards_wrapper (s.noting m).next hw hto hdomain hloc hnext
    hne hs rfl rfl rfl hrefused depth hx
  refine ⟨w, hw.type, hforwards, hjournal.trans ?_, hsends⟩
  show (s.journal ++ [.processing m]) ++ [.processing w] = _
  rw [List.append_assoc]
  rfl

/-- A domain on the way makes a new wrapper and sends it on. -/
theorem forwards_tunnel (hi : IsInner i v f) (hv : LivesIn (F.domain d).env.clientApps v home)
    (hloc : equalsIgnoreCase (some d) (some home) = false) {n : String}
    (hnext : (F.services d).getNextDomainName (some home) = some n) (hne : n ≠ d) (hs : F.Ready d s)
    (hrefused : s.refused.headD false = false) :
    ∃ w, MessageOf.type w = some .INTERNAL_MESSAGE ∧
      F.Forwards d (F.tunnel d (.message i)) s n (.message i) ∧
      ((F.tunnel d (.message i)).run s).2.journal = s.journal ++ [.processing w] ∧
      SendsWrapper (F.tunnel d (.message i)) s := by
  obtain ⟨t, ht, htarget⟩ := hi.meta_
  obtain ⟨c, hc, hf⟩ := hi.content
  have hrun := run_handleInternalMessage (E := (F.domain d).env) ht hc s
  have hw := isWrapper_msgWrapper (E := (F.domain d).env) (i := i) (t := t) hf s.serial
  generalize hwrap : DomainService.msgWrapper ((F.domain d).env.blank s.serial) i
    (some .INTERNAL_MESSAGE) (.message i) t c = w at hw hrun
  have hto : w.to_ = some v := hw.to_.trans hi.to_
  have hdom : domainOf (F.domain d).env w = some home := by
    have hnone : w.targetAddress = none := by rw [← hwrap]; rfl
    rw [domainOf, hnone, hto]
    exact hv.resolveDomain
  obtain ⟨depth, hdepth⟩ : ∃ n, callDepth w = n + 1 :=
    ⟨callDepth w - 1, by unfold callDepth; omega⟩
  have hx : ∀ s', (Processor.process (F.domain d).env (depth + 1) w).run s.next = (.ok (), s') →
      (F.tunnel d (.message i)).run s = (.ok (), s') := by
    intro s' hs'
    rw [PostOffice.onMessageArrived, PostOffice.onMessageArrivedWith, MessageProcessorService.process,
      hdepth] at hrun
    exact hrun.trans (Proc.run_catchException_ok hs' _)
  obtain ⟨hforwards, hjournal, hsends⟩ := forwards_wrapper s.next hw (hto ▸ hv.isBlank) hdom hloc
    hnext hne hs rfl rfl rfl hrefused depth hx
  exact ⟨w, hw.type, hforwards, hjournal, hsends⟩

/-- The home domain takes the wrapper off and processes the message. -/
theorem handsOver_home (hi : IsInner i v f) (hv : LivesIn (F.domain home).env.clientApps v home) :
    F.HandsOver home i 0 home := by
  refine ⟨rfl, fun s => ?_⟩
  obtain ⟨t, ht, htarget⟩ := hi.meta_
  obtain ⟨c, hc, hf⟩ := hi.content
  have hrun := run_handleInternalMessage (E := (F.domain home).env) ht hc s
  have hw := isWrapper_msgWrapper (E := (F.domain home).env) (i := i) (t := t) hf s.serial
  generalize hwrap : DomainService.msgWrapper ((F.domain home).env.blank s.serial) i
    (some .INTERNAL_MESSAGE) (.message i) t c = w at hw hrun
  have hto : w.to_ = some v := hw.to_.trans hi.to_
  have hlocal : isLocal (F.domain home).env w.touch = true := by
    have hnone : w.targetAddress = none := by rw [← hwrap]; rfl
    rw [isLocal_touch, isLocal, domainOf, hnone, hto]
    simp only
    rw [hv.resolveDomain, F.domainName, equalsIgnoreCase_refl, Bool.or_true]
  obtain ⟨u, hu, httl⟩ := hw.meta_
  obtain ⟨c', hc', htype, hdata, -⟩ := hw.content
  have hdepth : ∀ depth, (Processor.process (F.domain home).env (depth + 1) w).run s.next =
      ((Processor.process (F.domain home).env depth i).recover
        fun e => fail ⟨e.exception, w.touch⟩).run (s.next.noting w) := by
    intro depth
    show (processWith _ (Processor.process _ depth) w).run s.next = _
    rw [run_processWith_wrapper _ hu (isAlive_touch httl (by decide)) hc' htype hdata
      (by rw [hto]; exact hv.isBlank), hlocal, if_pos rfl]
    rfl
  have hproc : (MessageProcessorService.process (F.domain home).env w).run s.next =
      ((MessageProcessorService.process (F.domain home).env i).recover
        fun e => fail ⟨e.exception, w.touch⟩).run (s.next.noting w) := by
    rw [MessageProcessorService.process, MessageProcessorService.process, callDepth_wrapper hc hw.data]
    generalize callDepth i = depth
    exact hdepth depth
  rw [PostOffice.onMessageArrived, PostOffice.onMessageArrivedWith] at hrun
  obtain ⟨h, hcall⟩ := exists_recover hrun hproc
  exact ⟨w, h, hw.type, hcall⟩

/-- From a domain on the way to the home of the recipient. -/
theorem handsOver_of_dist (happs : ∀ d, LivesIn (F.domain d).env.clientApps v home)
    (hdistinct : ∀ a ∈ F.graph.names, ∀ b ∈ F.graph.names,
      equalsIgnoreCase (some a) (some b) = true → a = b) (hhome : home ∈ F.graph.names)
    (hi : IsInner i v f) {k : ℕ} (hd : d ∈ F.graph.names)
    (hreach : F.graph.network.Reachable d home) (hdist : F.graph.network.dist d home = k) :
    F.HandsOver home i k d := by
  induction k generalizing d with
  | zero =>
    rw [hreach.dist_eq_zero_iff.1 hdist]
    exact handsOver_home hi (happs home)
  | succ k ih =>
    intro s hs hrefused
    obtain ⟨n, hnext, hne, hn, hreach', hdist'⟩ := exists_next hd hreach hdist
    have hloc : equalsIgnoreCase (some d) (some home) = false := by
      by_contra heq
      rw [hdistinct d hd home hhome (by simpa using heq), SimpleGraph.dist_self] at hdist
      omega
    obtain ⟨w, htype, hforwards, hjournal, -⟩ := forwards_tunnel hi (happs d) hloc hnext hne hs hrefused
    exact ⟨n, w, htype, hforwards, hjournal, ih hn hreach' hdist'⟩

end Federation

/-! ### From 1 to 3 -/

section

attribute [local instance] JavaChar.ascii

namespace SampleJourney

def letter : Message :=
  { newMessage "1" 1 with
    content := some (createMessageContent .MESSAGE
      (.messageRequest ⟨some "APP-105", some "hello"⟩) (some .RELIABLE))
    from_ := some "APP-5"
    meta_ := some {} }

theorem livesIn_letter : LivesIn (lineOfThree.domain "1").env.clientApps "APP-105" "3" := by
  have happ : ∃ app, clientApps "1" "3" "APP" = some app ∧ app.userDistributions =
      some [⟨some "1", some 1, some 100⟩, ⟨some "3", some 101, none⟩] := by
    rw [clientApps, if_pos rfl]
    exact ⟨_, rfl, rfl⟩
  obtain ⟨app, happ, hl⟩ := happ
  refine ⟨"APP", 105, app, _, ⟨some "3", some 101, none⟩, ?_, ?_, happ, hl, ?_, rfl⟩
  · decide +kernel
  · decide +kernel
  · decide +kernel

end SampleJourney

open SampleJourney

end

end Linker
