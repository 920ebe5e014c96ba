import Linker.Common.Names
import Linker.Processor.ClientAppService

/-!
# The home of a user

The distributions of an app say which numbers live in which domain, and all domains that share the client
apps are to come to the same home.  `resolveDomain` falls back to the domain that asks where it finds no
distribution, which depends on how the user id is read.

## Main definitions

* `InRange`, `firstFor` : the first distribution whose range has a number.
* `HasOneHome` : every domain comes to the domain of that distribution.

## Main result

* `hasOneHome_iff` : the users with one home.
-/

namespace Linker.Processor

open ClientAppService

/-- The number is in the inclusive range of the distribution, which may be open at its end. -/
def InRange (d : UserDistribution) (n : ℕ) : Prop :=
  d.from_.getD 0 ≤ n ∧ ∀ t ∈ d.to_, (n : ℤ) ≤ t

instance (d : UserDistribution) (n : ℕ) : Decidable (InRange d n) := by
  unfold InRange
  infer_instance

/-- The first distribution whose range has the number. -/
def firstFor (l : List UserDistribution) (n : ℕ) : Option UserDistribution :=
  l.find? fun d => InRange d n

/-- The distributions cover all numbers. -/
def CoversAll (l : List UserDistribution) : Prop := ∀ n, ∃ d ∈ l, InRange d n

theorem exists_firstFor {l : List UserDistribution} (h : CoversAll l) (n : ℕ) :
    ∃ d, firstFor l n = some d := by
  obtain ⟨d, hd, hn⟩ := h n
  have hsome : (firstFor l n).isSome = true := List.find?_isSome.2 ⟨d, hd, by simpa using hn⟩
  exact Option.isSome_iff_exists.1 hsome

section

variable [JavaChar]

omit [JavaChar] in
/-- Within the bounds of `Long` the filter of `resolveDomain` is the range. -/
theorem covers_eq {n : ℕ} (h : (n : ℤ) ≤ longMax) (d : UserDistribution) :
    covers n d = decide (InRange d n) := by
  rw [Bool.eq_iff_iff, covers, Bool.and_eq_true, decide_eq_true_eq, decide_eq_true_eq, decide_eq_true_eq]
  refine and_congr_right fun _ => ?_
  cases d.to_ with
  | none => simpa using h
  | some t => simp

omit [JavaChar] in
theorem find?_covers {n : ℕ} (h : (n : ℤ) ≤ longMax) (l : List UserDistribution) :
    l.find? (covers n) = firstFor l n := by
  have hsame : covers (n : ℤ) = fun d => decide (InRange d n) := funext (covers_eq h)
  rw [hsame, firstFor]

/-- The distribution that `resolveDomain` finds, whatever domain asks. -/
def distributionOf (apps : String → Option ClientApp) (userId : String) : Option UserDistribution :=
  let r := NameRecord.parse (some userId)
  if isEmpty (some userId) || !r.isValid then none
  else r.appName.bind fun name => (apps name).bind fun app =>
    app.userDistributions.bind fun l => r.number.bind fun number => l.find? (covers number)

theorem resolveDomain_eq (E : Environment) (userId : String) : resolveDomain E (some userId) =
    match distributionOf E.clientApps userId with
    | some d => d.domainName
    | none => some E.domainName := by
  rw [distributionOf]
  cases hempty : isEmpty (some userId) with
  | true =>
    rw [resolveDomain, getClientAppByUserId, if_pos hempty]
    rfl
  | false =>
    have hclient : getClientAppByUserId E (some userId) =
        if (NameRecord.parse (some userId)).isValid then
          getClientAppByName E (NameRecord.parse (some userId)).appName else none := by
      rw [getClientAppByUserId, if_neg (by simp [hempty])]
    cases hvalid : (NameRecord.parse (some userId)).isValid with
    | false =>
      rw [resolveDomain, hclient, hvalid]
      rfl
    | true =>
      obtain ⟨app, n, hparse, happ⟩ := NameRecord.isValid_iff.1 hvalid
      have hname : getClientAppByUserId E (some userId) = E.clientApps app := by
        rw [hclient, if_pos hvalid, hparse, getClientAppByName, if_neg (by simp [happ])]
        rfl
      rw [resolveDomain, hname, hparse]
      simp only [Bool.not_true, Bool.or_self, Bool.false_eq_true, if_false, Option.bind_some]
      rcases E.clientApps app with _ | a
      · rfl
      · simp only [Option.bind_some]
        rcases a.userDistributions with _ | l
        · rfl
        · rcases hfind : l.find? (covers n) with _ | d <;> simp [hfind]

/-- A domain with the client apps. -/
def askedIn (apps : String → Option ClientApp) (domainName : String) : Environment where
  domainName
  processorName := ""
  clientApps := apps
  routes := none
  acceptsUrl _ := true
  keyOrder := id
  keyOrder_perm := perm_id
  uuid _ := ""
  now _ := 0

/-- The user with the number `n` has one home: all domains come to the domain of the first distribution
that has the number. -/
structure HasOneHome (apps : String → Option ClientApp) (l : List UserDistribution) (n : ℕ)
    (userId : String) : Prop where
  same : ∀ E E' : Environment, E.clientApps = apps → E'.clientApps = apps →
    resolveDomain E (some userId) = resolveDomain E' (some userId)
  home : ∀ E : Environment, E.clientApps = apps → ∀ d, firstFor l n = some d →
    resolveDomain E (some userId) = d.domainName

/-- There is one home where a distribution is found that sends the user there. -/
theorem hasOneHome_iff_distributionOf {apps : String → Option ClientApp} {l : List UserDistribution}
    {n : ℕ} {d : UserDistribution} (hd : firstFor l n = some d) {userId : String} :
    HasOneHome apps l n userId ↔
      ∃ d', distributionOf apps userId = some d' ∧ d'.domainName = d.domainName := by
  refine ⟨fun h => ?_, ?_⟩
  · -- a domain that falls back comes to itself, and there are two domains
    rcases hfound : distributionOf apps userId with _ | d'
    · have hback : ∀ name, resolveDomain (askedIn apps name) (some userId) = some name := fun name => by
        rw [resolveDomain_eq]
        show (match distributionOf apps userId with
          | some d => d.domainName
          | none => some name) = _
        rw [hfound]
      have hsame := h.same (askedIn apps "a") (askedIn apps "b") rfl rfl
      rw [hback, hback] at hsame
      exact absurd hsame (by decide)
    · have hhome := h.home (askedIn apps "") rfl d hd
      rw [resolveDomain_eq] at hhome
      have hfound' : distributionOf (askedIn apps "").clientApps userId = some d' := hfound
      rw [hfound'] at hhome
      exact ⟨d', rfl, hhome⟩
  · rintro ⟨d', hfound, hname⟩
    have hhome : ∀ E : Environment, E.clientApps = apps →
        resolveDomain E (some userId) = d.domainName := fun E hE => by
      rw [resolveDomain_eq, hE, hfound]
      exact hname
    refine ⟨fun E E' hE hE' => (hhome E hE).trans (hhome E' hE').symm, fun E hE e he => ?_⟩
    cases hd.symm.trans he
    exact hhome E hE

/-- The name without the separators at its ends, and there is none inside. -/
def Trimmed (name name' : String) : Prop :=
  '-' ∉ name'.toList ∧ ∃ i k, name.toList = List.replicate i '-' ++ name'.toList ++ List.replicate k '-'

/-- The distribution that is found for an app name, a `-` and digits. -/
theorem distributionOf_eq_some {apps : String → Option ClientApp} {name ds : String}
    (hne : ds.toList ≠ []) (hds : ∀ c ∈ ds.toList, c.isDigit = true) {d' : UserDistribution} :
    distributionOf apps (name ++ "-" ++ ds) = some d' ↔
      (Nat.ofDigitChars 10 ds.toList 0 : ℤ) ≤ longMax ∧ ∃ name' app' l', Trimmed name name' ∧
        isBlank (some name') = false ∧ apps name' = some app' ∧ app'.userDistributions = some l' ∧
        firstFor l' (Nat.ofDigitChars 10 ds.toList 0) = some d' := by
  have htoken := NameRecord.isToken_of_isDigit hne hds
  have hdigits : split ds = [ds] := split_eq_singleton.2 ⟨htoken, 0, 0, by simp⟩
  have hempty : isEmpty (some (name ++ "-" ++ ds)) = false := by
    simp [isEmpty, String.toList_append]
  -- the digits are the last token, so the tokens of the name have to be one
  have hparse : ∀ name' number, isBlank (some name') = false →
      (NameRecord.parse (some (name ++ "-" ++ ds)) = ⟨some name', some number⟩ ↔
        Trimmed name name' ∧ parseLong ds = some number) := fun name' number hname => by
    rw [NameRecord.parse_eq_of_split hname, split_append, hdigits]
    refine ⟨?_, ?_⟩
    · rintro ⟨num, hsplit, hnum⟩
      have hlists : split name ++ [ds] = [name'] ++ [num] := hsplit
      obtain ⟨hs, heq⟩ := List.append_inj' hlists rfl
      cases heq
      obtain ⟨htrim, hik⟩ := split_eq_singleton.1 hs
      exact ⟨⟨htrim.not_mem, hik⟩, hnum⟩
    · rintro ⟨⟨hsep, hik⟩, hnum⟩
      refine ⟨ds, ?_, hnum⟩
      rw [split_eq_singleton.2 ⟨NameRecord.isToken_of_app hname hsep, hik⟩]
      rfl
  have hlong := parseLong_of_isDigit hne hds
  rw [distributionOf]
  simp only [hempty, Bool.false_or, Bool.not_eq_true']
  refine ⟨fun h => ?_, ?_⟩
  · split_ifs at h with hinvalid
    obtain ⟨name', number, hrec, hname⟩ := NameRecord.isValid_iff.1 (by simpa using hinvalid)
    obtain ⟨htrim, hnum⟩ := (hparse name' number hname).1 hrec
    rw [hlong] at hnum
    split_ifs at hnum with hbound
    cases hnum
    rw [hrec] at h
    simp only [Option.bind_some] at h
    obtain ⟨app', happ', h⟩ := Option.bind_eq_some_iff.1 h
    obtain ⟨l', hl', h⟩ := Option.bind_eq_some_iff.1 h
    refine ⟨hbound, name', app', l', htrim, hname, happ', hl', ?_⟩
    rw [← h, find?_covers hbound]
  · rintro ⟨hbound, name', app', l', htrim, hname, happ', hl', hfirst⟩
    have hrec := (hparse name' _ hname).2 ⟨htrim, by rw [hlong, if_pos hbound]⟩
    have hvalid : ¬ (NameRecord.parse (some (name ++ "-" ++ ds))).isValid = false := by
      rw [NameRecord.isValid_iff.2 ⟨name', _, hrec, hname⟩]
      decide
    rw [if_neg hvalid, hrec]
    simp only [Option.bind_some, happ', hl']
    rw [← hfirst, find?_covers hbound]

/-- The app has distributions that cover all numbers. -/
structure Distributed (apps : String → Option ClientApp) (name : String) (l : List UserDistribution) :
    Prop where
  app : ∃ app, apps name = some app ∧ app.userDistributions = some l
  covers : CoversAll l

/-- The app that is found, under the name without separators at its ends, sends the number to the same
domain. -/
def FoundAlike (apps : String → Option ClientApp) (l : List UserDistribution) (n : ℕ) (name : String) :
    Prop :=
  ∃ name' app' l', Trimmed name name' ∧ isBlank (some name') = false ∧ apps name' = some app' ∧
    app'.userDistributions = some l' ∧
      (firstFor l' n).map (·.domainName) = (firstFor l n).map (·.domainName)

variable {apps : String → Option ClientApp} {name ds : String} {l : List UserDistribution}

omit [JavaChar] in
/-- An app with an ordinary name is found itself. -/
theorem Distributed.foundAlike (h : Distributed apps name l) (hblank : isBlank (some name) = false)
    (hsep : '-' ∉ name.toList) (n : ℕ) : FoundAlike apps l n name := by
  obtain ⟨app, happ, hl⟩ := h.app
  exact ⟨name, app, l, ⟨hsep, 0, 0, by simp⟩, hblank, happ, hl, rfl⟩

/-- **Every user has one home** where its number is within the bounds of `Long` and its app is found by
the name that is read. -/
theorem hasOneHome_iff (h : Distributed apps name l) (hne : ds.toList ≠ [])
    (hds : ∀ c ∈ ds.toList, c.isDigit = true) :
    HasOneHome apps l (Nat.ofDigitChars 10 ds.toList 0) (name ++ "-" ++ ds) ↔
      (Nat.ofDigitChars 10 ds.toList 0 : ℤ) ≤ longMax ∧
        FoundAlike apps l (Nat.ofDigitChars 10 ds.toList 0) name := by
  obtain ⟨d, hd⟩ := exists_firstFor h.covers (Nat.ofDigitChars 10 ds.toList 0)
  rw [hasOneHome_iff_distributionOf hd]
  refine ⟨?_, ?_⟩
  · rintro ⟨d', hfound, hname⟩
    obtain ⟨hbound, name', app', l', htrim, hblank, happ', hl', hfirst⟩ :=
      (distributionOf_eq_some hne hds).1 hfound
    refine ⟨hbound, name', app', l', htrim, hblank, happ', hl', ?_⟩
    rw [hfirst, hd, Option.map_some, Option.map_some, hname]
  · rintro ⟨hbound, name', app', l', htrim, hblank, happ', hl', hdomain⟩
    rw [hd, Option.map_some] at hdomain
    obtain ⟨d', hfirst, hname⟩ := Option.map_eq_some_iff.1 hdomain
    exact ⟨d', (distributionOf_eq_some hne hds).2
      ⟨hbound, name', app', l', htrim, hblank, happ', hl', hfirst⟩, hname⟩

end

/-! ### A number that is too long -/

section

attribute [local instance] JavaChar.ascii

namespace SampleHomes

/-- The distributions of an app over two domains, the last of them open. -/
def distributions : List UserDistribution :=
  [{ domainName := some "domain-01", from_ := some 0, to_ := some 999999 },
    { domainName := some "domain-02", from_ := some 1000000 }]

def apps (name : String) : Option ClientApp :=
  if name = "ANZ" then
    some { appName := some "ANZ", appId := some "id", masterUserId := some "ANZ-1"
           userDistributions := some distributions }
  else none

theorem distributed : Distributed apps "ANZ" distributions where
  app := ⟨_, rfl, rfl⟩
  covers n := by
    by_cases hn : n ≤ 999999
    · refine ⟨_, List.mem_cons_self, by simp, ?_⟩
      have hle : (n : ℤ) ≤ 999999 := by omega
      simpa using hle
    · refine ⟨_, List.mem_cons_of_mem _ List.mem_cons_self, ?_, by simp⟩
      have hpos : (1000000 : ℤ) ≤ n := by omega
      simpa using hpos

end SampleHomes

open SampleHomes

/-- A user of the second domain has one home. -/
theorem hasOneHome_two : HasOneHome apps distributions 2000000 "ANZ-2000000" := by
  have hall : "2000000".toList.all Char.isDigit = true := by decide
  have hdigits : ∀ c ∈ "2000000".toList, c.isDigit = true := List.all_eq_true.1 hall
  have hne : "2000000".toList ≠ [] := by decide
  have hiff := hasOneHome_iff distributed hne hdigits
  exact hiff.2 ⟨by decide, distributed.foundAlike (by decide) (by decide) _⟩

/-- **A number past the bounds of `Long`** makes the home of a user the domain that asks. -/
theorem not_hasOneHome : Distributed apps "ANZ" distributions ∧
    ¬ HasOneHome apps distributions 9223372036854775808 "ANZ-9223372036854775808" := by
  refine ⟨distributed, fun h => ?_⟩
  have hsame := h.same (askedIn apps "domain-01") (askedIn apps "domain-02") rfl rfl
  have hone : resolveDomain (askedIn apps "domain-01") (some "ANZ-9223372036854775808") =
      some "domain-01" := by decide +kernel
  have htwo : resolveDomain (askedIn apps "domain-02") (some "ANZ-9223372036854775808") =
      some "domain-02" := by decide +kernel
  rw [hone, htwo] at hsame
  exact absurd hsame (by decide)

end

end Linker.Processor
