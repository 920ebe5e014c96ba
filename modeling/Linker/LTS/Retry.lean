import Linker.LTS.Basic
import Mathlib.Data.List.Count
import Mathlib.Data.List.Perm.Basic

/-!
# Sending again to the addresses that are left

A message is sent to registered addresses, to all of them or to one.  A copy for a stale address is
lost and reported; whoever takes up the report strikes the address out and sends the message again to
the addresses that are left, or stores it where none is left.

## Main definitions

* `Retry`, `Retry.system` : the copies and reports on their way, in any order.
* `Retry.start` : the message has been sent for the first time.

## Main results

* `Retry.settled` : what has come of the message when nothing is on its way any more.
* `Retry.atMostOnce_iff` : in every order each address gets the message at most once, exactly if it is
  sent to one address at a time, or no address is stale, or none is live.
-/

namespace Linker

/-- How a message is sent, and which addresses are live. -/
structure Retry (α : Type*) where
  /-- To all addresses, not to one of them. -/
  toAll : Bool
  live : α → Bool

namespace Retry

variable {α : Type*} [DecidableEq α]

structure State (α : Type*) where
  registry : List α
  /-- The addresses of the copies on their way. -/
  copies : List α := []
  /-- The addresses of the lost copies, where nobody has taken up the report. -/
  lost : List α := []
  /-- The addresses that have got a copy. -/
  received : List α := []
  stored : Bool := false

inductive Event where
  /-- A copy arrives. -/
  | arrive (k : ℕ)
  /-- The report of a lost copy is taken up. -/
  | resend (k : ℕ) (pick : ℕ)

variable (R : Retry α)

/-- All addresses, or the one that is drawn. -/
def chosen (l : List α) (pick : ℕ) : List α :=
  if R.toAll then l else l[pick % l.length]?.toList

def send (pick : ℕ) (s : State α) : State α :=
  if s.registry = [] then { s with stored := true }
  else { s with copies := s.copies ++ R.chosen s.registry pick }

def step (s : State α) : Event → Option (State α)
  | .arrive k => s.copies[k]?.map fun a =>
    let s := { s with copies := s.copies.eraseIdx k }
    if R.live a then { s with received := s.received ++ [a] } else { s with lost := s.lost ++ [a] }
  | .resend k pick => s.lost[k]?.map fun a =>
    R.send pick { s with lost := s.lost.eraseIdx k, registry := s.registry.filter (· ≠ a) }

def system : System (State α) Event where
  step := R.step

/-- The message is sent for the first time. -/
def start (addresses : List α) (pick : ℕ) : State α := R.send pick { registry := addresses }

variable {R} {s s' : State α} {a : α} {l addresses : List α} {pick : ℕ}

/-! ### What is chosen -/

omit [DecidableEq α] in
theorem mem_of_mem_chosen (h : a ∈ R.chosen l pick) : a ∈ l := by
  unfold chosen at h
  split_ifs at h
  · exact h
  · exact List.mem_of_getElem? (Option.mem_toList.1 h)

omit [DecidableEq α] in
theorem chosen_of_toAll (h : R.toAll = true) : R.chosen l pick = l := if_pos h

omit [DecidableEq α] in
theorem length_chosen (h : R.toAll = false) (hl : l ≠ []) : (R.chosen l pick).length = 1 := by
  have hlt : pick % l.length < l.length := Nat.mod_lt _ (List.length_pos_iff.2 hl)
  rw [chosen, h, if_neg Bool.false_ne_true, List.getElem?_eq_getElem hlt]
  rfl

/-! ### What a step does -/

theorem step_cases {e : Event} (h : R.system.step s e = some s') :
    (∃ k a, s.copies[k]? = some a ∧ R.live a = true ∧
      s' = { s with copies := s.copies.eraseIdx k, received := s.received ++ [a] }) ∨
    (∃ k a, s.copies[k]? = some a ∧ R.live a = false ∧
      s' = { s with copies := s.copies.eraseIdx k, lost := s.lost ++ [a] }) ∨
    ∃ k a pick, s.lost[k]? = some a ∧ s' = R.send pick
      { s with lost := s.lost.eraseIdx k, registry := s.registry.filter (· ≠ a) } := by
  cases e with
  | arrive k =>
    obtain ⟨a, ha, rfl⟩ := Option.map_eq_some_iff.1 h
    cases hlive : R.live a with
    | true => exact .inl ⟨k, a, ha, hlive, if_pos rfl⟩
    | false => exact .inr (.inl ⟨k, a, ha, hlive, if_neg Bool.false_ne_true⟩)
  | resend k pick =>
    obtain ⟨a, ha, rfl⟩ := Option.map_eq_some_iff.1 h
    exact .inr (.inr ⟨k, a, pick, ha, rfl⟩)

/-! ### What holds throughout -/

/-- What holds whichever way the message is sent. -/
structure Sound (R : Retry α) (addresses : List α) (s : State α) : Prop where
  registry : ∀ a ∈ s.registry, a ∈ addresses
  copies : ∀ a ∈ s.copies, a ∈ addresses
  /-- Only stale addresses are struck out. -/
  live : ∀ a ∈ addresses, R.live a = true → a ∈ s.registry
  lost : ∀ a ∈ s.lost, R.live a = false
  received : ∀ a ∈ s.received, a ∈ addresses ∧ R.live a = true
  stored : s.stored = true ↔ s.registry = []

omit [DecidableEq α] in
theorem sound_send (s : State α) (hregistry : ∀ a ∈ s.registry, a ∈ addresses)
    (hcopies : ∀ a ∈ s.copies, a ∈ addresses)
    (hlive : ∀ a ∈ addresses, R.live a = true → a ∈ s.registry)
    (hlost : ∀ a ∈ s.lost, R.live a = false)
    (hreceived : ∀ a ∈ s.received, a ∈ addresses ∧ R.live a = true)
    (hstored : s.stored = true → s.registry = []) (pick : ℕ) : Sound R addresses (R.send pick s) := by
  unfold send
  split_ifs with hnil
  · exact ⟨hregistry, hcopies, hlive, hlost, hreceived, fun _ => hnil, fun _ => rfl⟩
  · refine ⟨hregistry, fun a ha => ?_, hlive, hlost, hreceived, hstored, fun h => absurd h hnil⟩
    rcases List.mem_append.1 ha with ha | ha
    · exact hcopies a ha
    · exact hregistry a (mem_of_mem_chosen ha)

omit [DecidableEq α] in
theorem sound_start : Sound R addresses (R.start addresses pick) :=
  sound_send { registry := addresses } (fun _ h => h) (fun _ h => by cases h) (fun _ h _ => h)
    (fun _ h => by cases h) (fun _ h => by cases h) (fun h => by cases h) pick

theorem Sound.step {e : Event} (h : Sound R addresses s) (hst : R.system.step s e = some s') :
    Sound R addresses s' := by
  rcases step_cases hst with ⟨k, a, ha, hlive, rfl⟩ | ⟨k, a, ha, hlive, rfl⟩ | ⟨k, a, pick, ha, rfl⟩
  · refine ⟨h.registry, fun b hb => h.copies b (List.mem_of_mem_eraseIdx hb), h.live, h.lost,
      fun b hb => ?_, h.stored⟩
    rcases List.mem_append.1 hb with hb | hb
    · exact h.received b hb
    · rw [List.mem_singleton.1 hb]
      exact ⟨h.copies a (List.mem_of_getElem? ha), hlive⟩
  · refine ⟨h.registry, fun b hb => h.copies b (List.mem_of_mem_eraseIdx hb), h.live, fun b hb => ?_,
      h.received, h.stored⟩
    rcases List.mem_append.1 hb with hb | hb
    · exact h.lost b hb
    · rw [List.mem_singleton.1 hb]
      exact hlive
  · have hstale : R.live a = false := h.lost a (List.mem_of_getElem? ha)
    refine sound_send { s with lost := s.lost.eraseIdx k, registry := s.registry.filter (· ≠ a) }
      (fun b hb => h.registry b (List.mem_of_mem_filter hb)) h.copies
      (fun b hb hlive => ?_) (fun b hb => h.lost b (List.mem_of_mem_eraseIdx hb)) h.received
      (fun hs => ?_) pick
    · refine List.mem_filter.2 ⟨h.live b hb hlive, decide_eq_true fun hab => ?_⟩
      rw [hab, hstale] at hlive
      cases hlive
    · rw [h.stored.1 hs]
      rfl

theorem sound_of_reaches (h : R.system.Reaches (fun _ _ => True) (R.start addresses pick) s) :
    Sound R addresses s :=
  h.invariant sound_start fun _ _ _ hs _ hst => hs.step hst

/-! ### To all addresses -/

/-- A registered address has got a copy, or one is on its way, or lost. -/
def Pending (s : State α) : Prop := ∀ a ∈ s.registry, a ∈ s.copies ∨ a ∈ s.lost ∨ a ∈ s.received

omit [DecidableEq α] in
theorem pending_send (hall : R.toAll = true) (s : State α) (pick : ℕ) : Pending (R.send pick s) := by
  unfold send
  split_ifs with hnil
  · intro a ha
    rw [show _ = [] from hnil] at ha
    cases ha
  · exact fun a ha => .inl (List.mem_append_right _ ((chosen_of_toAll hall).symm ▸ ha))

theorem Pending.step {e : Event} (hall : R.toAll = true) (h : Pending s)
    (hst : R.system.step s e = some s') : Pending s' := by
  have hcopy : ∀ {k a b}, s.copies[k]? = some a → b ∈ s.copies → b ∈ s.copies.eraseIdx k ∨ b = a := by
    intro k a b ha hb
    by_cases hba : b = a
    · exact .inr hba
    · refine .inl ((List.mem_eraseIdx_iff_getElem?).2 ?_)
      obtain ⟨i, hi⟩ := List.getElem?_of_mem hb
      refine ⟨i, fun hik => ?_, hi⟩
      rw [hik, ha] at hi
      exact hba (Option.some.inj hi).symm
  rcases step_cases hst with ⟨k, a, ha, -, rfl⟩ | ⟨k, a, ha, -, rfl⟩ | ⟨k, a, pick, -, rfl⟩
  · intro b hb
    rcases h b hb with hc | hl | hr
    · rcases hcopy ha hc with hc | rfl
      · exact .inl hc
      · exact .inr (.inr (List.mem_append_right _ (List.mem_singleton_self b)))
    · exact .inr (.inl hl)
    · exact .inr (.inr (List.mem_append_left _ hr))
  · intro b hb
    rcases h b hb with hc | hl | hr
    · rcases hcopy ha hc with hc | rfl
      · exact .inl hc
      · exact .inr (.inl (List.mem_append_right _ (List.mem_singleton_self b)))
    · exact .inr (.inl (List.mem_append_left _ hl))
    · exact .inr (.inr hr)
  · exact pending_send hall _ pick

/-! ### To one address at a time -/

/-- There is one copy, on its way, lost, received, or in the store. -/
def Single (s : State α) : Prop :=
  s.copies.length + s.lost.length + s.received.length + (if s.stored then 1 else 0) = 1

omit [DecidableEq α] in
theorem single_send (hone : R.toAll = false) (hstored : s.stored = false)
    (hnone : s.copies.length + s.lost.length + s.received.length = 0) (pick : ℕ) :
    Single (R.send pick s) := by
  unfold send
  split_ifs with hnil
  · simpa [Single] using hnone
  · have hlen : (R.chosen s.registry pick).length = 1 := length_chosen hone hnil
    simp only [Single, List.length_append, hlen, hstored, Bool.false_eq_true, if_false]
    omega

theorem Single.step {e : Event} (hone : R.toAll = false) (h : Single s)
    (hst : R.system.step s e = some s') : Single s' := by
  have herase : ∀ {l : List α} {k a}, l[k]? = some a → (l.eraseIdx k).length + 1 = l.length := by
    intro l k a ha
    have hlt := (List.getElem?_eq_some_iff.1 ha).1
    rw [List.length_eraseIdx, if_pos hlt]
    omega
  unfold Single at h
  rcases step_cases hst with ⟨k, a, ha, -, rfl⟩ | ⟨k, a, ha, -, rfl⟩ | ⟨k, a, pick, ha, rfl⟩
  · have hlen := herase ha
    simp only [Single, List.length_append, List.length_singleton]
    omega
  · have hlen := herase ha
    simp only [Single, List.length_append, List.length_singleton]
    omega
  · -- the lost copy is the only one
    have hlen := herase ha
    have hstored : s.stored = false := by
      by_contra hs
      rw [Bool.not_eq_false] at hs
      rw [if_pos hs] at h
      omega
    rw [hstored, if_neg Bool.false_ne_true] at h
    refine single_send (s := { s with
      lost := s.lost.eraseIdx k, registry := s.registry.filter (· ≠ a) }) hone hstored ?_ pick
    simp only
    omega

/-! ### In the end -/

/-- **What has come of the message** when nothing is on its way.  Where an address is live, the message
is not stored, and all live addresses have got it, or one of them has, once; where none is, it is
stored, and no address is registered. -/
theorem settled (h : R.system.Reaches (fun _ _ => True) (R.start addresses pick) s)
    (hcopies : s.copies = []) (hlost : s.lost = []) :
    ((∃ a ∈ addresses, R.live a = true) → s.stored = false ∧
      (R.toAll = true → ∀ a ∈ addresses, R.live a = true → a ∈ s.received) ∧
      (R.toAll = false → ∃ a ∈ addresses, R.live a = true ∧ s.received = [a])) ∧
    ((∀ a ∈ addresses, R.live a = false) → s.stored = true ∧ s.registry = [] ∧ s.received = []) := by
  have hsound := sound_of_reaches h
  have hpending : R.toAll = true → Pending s := fun hall =>
    h.invariant (pending_send hall _ pick) fun _ _ _ hs _ hst => hs.step hall hst
  have hsingle : R.toAll = false → Single s := fun hone =>
    h.invariant (single_send hone rfl rfl pick) fun _ _ _ hs _ hst => hs.step hone hst
  refine ⟨fun ⟨a, ha, hlive⟩ => ?_, fun hstale => ?_⟩
  · have hstored : s.stored = false := by
      by_contra hs
      rw [Bool.not_eq_false] at hs
      have hmem := hsound.live a ha hlive
      rw [hsound.stored.1 hs] at hmem
      cases hmem
    refine ⟨hstored, fun hall b hb hb' => ?_, fun hone => ?_⟩
    · rcases hpending hall b (hsound.live b hb hb') with hc | hl | hr
      · rw [hcopies] at hc; cases hc
      · rw [hlost] at hl; cases hl
      · exact hr
    · have hlen := hsingle hone
      rw [Single, hcopies, hlost, hstored, if_neg Bool.false_ne_true, List.length_nil] at hlen
      obtain ⟨b, hb⟩ := List.length_eq_one_iff.1 (by omega : s.received.length = 1)
      obtain ⟨hmem, hlive'⟩ := hsound.received b (hb ▸ List.mem_singleton_self b)
      exact ⟨b, hmem, hlive', hb⟩
  · have hreceived : s.received = [] := by
      refine List.eq_nil_iff_forall_not_mem.2 fun a ha => ?_
      obtain ⟨hmem, hlive⟩ := hsound.received a ha
      rw [hstale a hmem] at hlive
      cases hlive
    have hregistry : s.registry = [] := by
      cases hall : R.toAll with
      | true =>
        refine List.eq_nil_iff_forall_not_mem.2 fun a ha => ?_
        rcases hpending hall a ha with hc | hl | hr
        · rw [hcopies] at hc; cases hc
        · rw [hlost] at hl; cases hl
        · rw [hreceived] at hr; cases hr
      | false =>
        have hlen := hsingle hall
        rw [Single, hcopies, hlost, hreceived, List.length_nil] at hlen
        refine hsound.stored.1 ?_
        by_contra hs
        rw [if_neg hs] at hlen
        omega
    exact ⟨hsound.stored.2 hregistry, hregistry, hreceived⟩

/-! ### How often an address gets the message -/

theorem exists_arrive (ha : a ∈ s.copies) : ∃ k, s.copies[k]? = some a ∧ R.system.step s (.arrive k) =
    some (if R.live a then { s with copies := s.copies.eraseIdx k, received := s.received ++ [a] }
      else { s with copies := s.copies.eraseIdx k, lost := s.lost ++ [a] }) := by
  obtain ⟨k, hk⟩ := List.getElem?_of_mem ha
  exact ⟨k, hk, by simp [system, step, hk]⟩

/-- With a stale address and a live one, a message to all of them may get to the live one twice. -/
theorem exists_twice {b : α} (hall : R.toAll = true) (ha : a ∈ addresses) (hlive : R.live a = true)
    (hb : b ∈ addresses) (hstale : R.live b = false) (pick : ℕ) :
    ∃ s, R.system.Reaches (fun _ _ => True) (R.start addresses pick) s ∧ s.received = [a, a] := by
  have hne : a ≠ b := by
    rintro rfl
    rw [hlive] at hstale
    cases hstale
  have hstart : R.start addresses pick = { registry := addresses, copies := addresses } := by
    rw [start, send, if_neg (List.ne_nil_of_mem ha), chosen_of_toAll hall, List.nil_append]
  -- the live address gets the message, the copy for the stale one is lost, and its report taken up
  rw [hstart]
  let s₀ : State α := { registry := addresses, copies := addresses }
  obtain ⟨i, hi, h₁⟩ := exists_arrive (R := R) (s := s₀) ha
  rw [hlive, if_pos rfl] at h₁
  let s₁ : State α := { s₀ with copies := addresses.eraseIdx i, received := [a] }
  have hb' : b ∈ s₁.copies := by
    obtain ⟨j, hj⟩ := List.getElem?_of_mem hb
    refine List.mem_eraseIdx_iff_getElem?.2 ⟨j, fun hji => hne ?_, hj⟩
    rw [hji] at hj
    exact Option.some.inj (hi.symm.trans hj)
  obtain ⟨j, -, h₂⟩ := exists_arrive (R := R) (s := s₁) hb'
  rw [hstale, if_neg Bool.false_ne_true] at h₂
  have hleft : a ∈ addresses.filter (· ≠ b) := List.mem_filter.2 ⟨ha, decide_eq_true hne⟩
  let s₂ : State α := { s₁ with copies := s₁.copies.eraseIdx j, lost := [b] }
  let s₃ : State α :=
    { s₂ with
      registry := addresses.filter (· ≠ b)
      copies := s₂.copies ++ addresses.filter (· ≠ b)
      lost := [] }
  have h₃ : R.system.step s₂ (.resend 0 pick) = some s₃ := by
    refine congrArg some ?_
    show R.send pick { s₂ with lost := [], registry := addresses.filter (· ≠ b) } = _
    rw [send, if_neg (List.ne_nil_of_mem hleft), chosen_of_toAll hall]
  obtain ⟨k, -, h₄⟩ := exists_arrive (R := R) (s := s₃) (List.mem_append_right _ hleft)
  rw [hlive, if_pos rfl] at h₄
  have hreach : R.system.Reaches (fun _ _ => True) s₀ s₂ :=
    (System.Reaches.refl.tail trivial h₁).tail trivial h₂
  exact ⟨_, (hreach.tail trivial h₃).tail trivial h₄, rfl⟩

/-- Where no address is stale, every address has got its copy, or it is on its way. -/
structure Clean (R : Retry α) (addresses : List α) (s : State α) : Prop where
  nodup : (s.copies ++ s.received).Nodup
  lost : s.lost = []
  copies : ∀ a ∈ s.copies, a ∈ addresses

theorem Clean.step {e : Event} (hlive : ∀ a ∈ addresses, R.live a = true) (h : Clean R addresses s)
    (hst : R.system.step s e = some s') : Clean R addresses s' := by
  rcases step_cases hst with ⟨k, a, ha, -, rfl⟩ | ⟨k, a, ha, hstale, rfl⟩ | ⟨k, a, pick, ha, rfl⟩
  · refine ⟨?_, h.lost, fun b hb => h.copies b (List.mem_of_mem_eraseIdx hb)⟩
    obtain ⟨hlt, hget⟩ := List.getElem?_eq_some_iff.1 ha
    have hperm : (s.copies.eraseIdx k ++ (s.received ++ [a])).Perm (s.copies ++ s.received) := by
      have hcons := (List.getElem_cons_eraseIdx_perm hlt).append_right s.received
      rw [hget] at hcons
      refine List.Perm.trans ?_ hcons
      rw [← List.append_assoc]
      exact List.perm_append_singleton a _
    exact hperm.nodup_iff.2 h.nodup
  · rw [hlive a (h.copies a (List.mem_of_getElem? ha))] at hstale
    cases hstale
  · rw [h.lost] at ha
    cases ha

/-- **At most once.**  In every order each address gets the message at most once, exactly if it is sent
to one address at a time, or no address is stale, or none is live. -/
theorem atMostOnce_iff (hnodup : addresses.Nodup) :
    (∀ pick s, R.system.Reaches (fun _ _ => True) (R.start addresses pick) s → s.received.Nodup) ↔
      R.toAll = false ∨ (∀ a ∈ addresses, R.live a = true) ∨ ∀ a ∈ addresses, R.live a = false := by
  constructor
  · intro h
    by_contra hnot
    simp only [not_or, not_forall, Bool.not_eq_false, Bool.not_eq_true] at hnot
    obtain ⟨hall, ⟨b, hb, hstale⟩, a, ha, hlive⟩ := hnot
    obtain ⟨s, hs, hreceived⟩ := exists_twice hall ha hlive hb hstale 0
    have hnodup' := h 0 s hs
    rw [hreceived] at hnodup'
    simp at hnodup'
  · intro hcases pick s hs
    have hsound := sound_of_reaches hs
    rcases hcases with hone | hlive | hstale
    · have hsingle : Single s :=
        hs.invariant (single_send hone rfl rfl pick) fun _ _ _ h _ hst => h.step hone hst
      have hlen : s.received.length ≤ 1 := by
        rw [Single] at hsingle
        omega
      rcases hreceived : s.received with _ | ⟨a, _ | ⟨b, l⟩⟩
      · exact List.nodup_nil
      · simp
      · rw [hreceived] at hlen
        simp at hlen
    · have hclean : Clean R addresses s := by
        refine hs.invariant ?_ fun _ _ _ h _ hst => h.step hlive hst
        unfold start send
        split_ifs with hnil
        · exact ⟨List.nodup_nil, rfl, fun a ha => by cases ha⟩
        · cases hall : R.toAll with
          | true =>
            simp only [chosen_of_toAll hall]
            exact ⟨by simpa using hnodup, rfl, fun a ha => by simpa using ha⟩
          | false =>
            have hlength : (R.chosen addresses pick).length = 1 := length_chosen hall hnil
            obtain ⟨a, ha⟩ := List.length_eq_one_iff.1 hlength
            refine ⟨by simp [ha], rfl, fun b hb => mem_of_mem_chosen (by simpa using hb)⟩
      exact (List.nodup_append.1 hclean.nodup).2.1
    · have hnil : s.received = [] := by
        refine List.eq_nil_iff_forall_not_mem.2 fun a ha => ?_
        obtain ⟨hmem, hlive⟩ := hsound.received a ha
        rw [hstale a hmem] at hlive
        cases hlive
      rw [hnil]
      exact List.nodup_nil

end Retry

end Linker
