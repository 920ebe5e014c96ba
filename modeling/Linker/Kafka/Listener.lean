import Linker.Exec.Basic
import Linker.Kafka.Repetition

/-!
# The listener of a consumer

The listener of a consumer is a handler of a service.  What it throws ends `runConsumer`, which closes
the consumer; the other threads of the service go on meanwhile.  Started again, the consumer begins at
the committed offset.

## Main definitions

* `Listener.step`, `Listener.system` : a consumer together with its service.
* `Survives` : no record ends the consumer, and what is polled gets committed.

## Main results

* `Listener.reaches_consumer` : the consumer of a service moves as one that may crash at any time.
* `survives_iff` : the values that may be on the topic.
-/

namespace Linker.Kafka

open Exec

/-- How a `runConsumer` has ended. -/
inductive Ending (ε : Type) where
  /-- A `WakeupException`, caught. -/
  | wakeup
  /-- An exception of the listener. -/
  | thrown (e : ε)

/-- A consumer, and the state of the service that its listener belongs to. -/
structure Served (σ ε V : Type) where
  service : σ
  consumer : State V
  /-- How the last `runConsumer` has ended. -/
  ending : Option (Ending ε) := none

/-- The record that the next statement hands to the listener. -/
def State.arriving {V : Type} (s : State V) : Option (ConsumerRecord V) :=
  match s.phase with
  | .looping _ duplicateKeys (r :: _) => if r.key ∈ duplicateKeys then none else some r
  | _ => none

/-- What a `wakeup` interrupts. -/
def Phase.isBlocking {V : Type} : Phase V → Bool
  | .polling => true
  | .processed _ => true
  | _ => false

namespace Listener

inductive Event (σ V : Type) where
  /-- What happens to the consumer and its topic. -/
  | consumer (e : Kafka.Event V)
  /-- Other threads of the service. -/
  | elsewhere (service : σ)
  /-- `stopConsumer` -/
  | wakeup

variable {σ ε V : Type}

/-- The next statement of a consumer whose listener is `f`. -/
def advance (f : V → Exec σ ε Unit) (s : Served σ ε V) : Option (Served σ ε V) := do
  let consumer ← s.consumer.advance
  match s.consumer.arriving with
  | none => pure { s with consumer }
  | some r =>
    match (f r.value).run s.service with
    | (.ok (), service) => pure { s with service, consumer }
    | (.error e, service) => do
      let consumer ← Kafka.step consumer .crash
      pure { service, consumer, ending := some (.thrown e) }

def step (f : V → Exec σ ε Unit) (s : Served σ ε V) : Event σ V → Option (Served σ ε V)
  | .consumer .advance => advance f s
  | .consumer e => (Kafka.step s.consumer e).map fun consumer => { s with consumer }
  | .elsewhere service => some { s with service }
  | .wakeup =>
    if s.consumer.phase.isBlocking then
      (Kafka.step s.consumer .crash).map fun consumer => { s with consumer, ending := some .wakeup }
    else none

/-- A consumer with its service. -/
def system (f : V → Exec σ ε Unit) : System (Served σ ε V) (Event σ V) where
  step := step f

/-- What comes onto the topic is in `T`. -/
def Event.Puts (T : V → Prop) : Event σ V → Prop
  | .consumer (.produce _ value) => T value
  | _ => True

end Listener

variable {σ ε V : Type}

/-- A service whose topic has only values in `T`, before its consumer starts. -/
structure Starts (T : V → Prop) (s : Served σ ε V) : Prop where
  consumer : Initial s.consumer
  values : ∀ r ∈ s.consumer.log.records, T r.value
  ending : s.ending = none

/-- **Survival** of a consumer whose topic has only values in `T`: no exception ends it, and what it
polls is committed before it polls again. -/
structure Survives (f : V → Exec σ ε Unit) (T : V → Prop) : Prop where
  not_thrown : ∀ s₀ s : Served σ ε V, Starts T s₀ →
    (Listener.system f).Reaches (fun _ e => e.Puts T) s₀ s → ∀ e, s.ending ≠ some (.thrown e)
  commits : ∀ (s₀ s : Served σ ε V) (records : List (ConsumerRecord V)), Starts T s₀ →
    (Listener.system f).Reaches (fun _ e => e.Puts T) s₀ s → s.consumer.phase = .polled records →
    ∃ n s', (Listener.system f).run s (List.replicate n (.consumer .advance)) = some s' ∧
      s'.consumer.phase = .polling ∧ s'.consumer.committed = s.consumer.position

/-! ### The statements of the consumer -/

section

variable {s s' : State V}

theorem log_advance (h : s.advance = some s') : s'.log = s.log := by
  rw [State.advance] at h
  split at h
  · cases h
  · cases h
  · cases h; rfl
  · cases h; rfl
  · split at h <;> cases h <;> rfl
  · cases h; rfl
  · obtain ⟨last, -, rfl⟩ := Option.map_eq_some_iff.1 h
    rfl
  · cases h; rfl

/-- A record has been on the topic, or it has just been produced. -/
theorem mem_log_step {e : Event V} (h : step s e = some s') {r : ConsumerRecord V}
    (hr : r ∈ s'.log.records) : r ∈ s.log.records ∨ ∃ key, e = .produce key r.value := by
  cases e with
  | produce key value =>
    rw [step] at h
    split at h
    · cases h
      rcases List.mem_append.1 hr with hr | hr
      · exact .inl hr
      · cases List.mem_singleton.1 hr
        exact .inr ⟨key, rfl⟩
    · cases h
  | advance =>
    have hlog := log_advance h
    exact .inl (hlog ▸ hr)
  | crash => cases h; exact .inl hr
  | poll n =>
    simp only [step] at h
    split at h
    · split at h <;> cases h
      exact .inl hr
    · cases h
  | start =>
    simp only [step] at h
    split at h <;> cases h
    exact .inl hr
  | addElsewhere key | deleteElsewhere key =>
    cases h
    exact .inl hr

theorem mem_of_arriving (hinv : Inv s) {r : ConsumerRecord V} (h : s.arriving = some r) :
    r ∈ s.log.records := by
  have hlocated := hinv.located
  rw [State.arriving] at h
  split at h
  · next hphase =>
    rw [hphase] at hlocated
    obtain ⟨hahead, -⟩ := hlocated
    split at h
    · cases h
    · cases h
      exact (hahead.mem_iff.1 (List.mem_append_right _ List.mem_cons_self)).1
  · cases h

/-- What is polled is committed, if nothing interrupts the consumer. -/
theorem run_polled (hinv : Inv s) {records : List (ConsumerRecord V)}
    (h : s.phase = .polled records) :
    ∃ n s', (system V).run s (List.replicate n .advance) = some s' ∧ s'.phase = .polling ∧
      s'.committed = s.position := by
  have hahead : Ahead s.log s.committed s.position records := by
    have hlocated := hinv.located
    rw [h] at hlocated
    exact hlocated
  obtain ⟨last, hlast⟩ : ∃ last, records.getLast? = some last :=
    Option.ne_none_iff_exists'.1 fun hnone => hahead.ne_nil (List.getLast?_eq_none_iff.1 hnone)
  obtain ⟨n, hn⟩ := run_processRecords h
  let s₁ : State V := { processRecords records s with phase := .processed records }
  have h₁ : s₁.advance = some { s₁ with committed := last.offset + 1, phase := .committed records } := by
    simp only [State.advance, s₁, hlast, Option.map_some]
  let s₂ : State V := { s₁ with
    committed := last.offset + 1
    redis := RedisKafkaCache.deleteItems (records.map ConsumerRecord.key) s₁.redis
    phase := .polling }
  refine ⟨n + 2, s₂, ?_, rfl, hahead.getLast?_offset hlast⟩
  rw [← List.replicate_append_replicate, System.run_append hn]
  exact System.run_cons_eq_some.2 ⟨_, h₁, System.run_cons_eq_some.2 ⟨s₂, rfl, rfl⟩⟩

end

/-! ### The consumer with its service -/

namespace Listener

variable {f : V → Exec σ ε Unit} {s s' : Served σ ε V} {T : V → Prop}

theorem advance_returns {c : State V} (hadvance : s.consumer.advance = some c)
    (h : ∀ r, s.consumer.arriving = some r → ((f r.value).run s.service).1 = .ok ()) :
    ∃ service, advance f s = some { s with service, consumer := c } := by
  rw [advance, hadvance]
  rcases harriving : s.consumer.arriving with _ | r
  · exact ⟨s.service, rfl⟩
  · have hok := h r harriving
    rcases hrun : (f r.value).run s.service with ⟨result, service⟩
    rw [hrun] at hok
    cases hok
    refine ⟨service, ?_⟩
    simp [hrun]

/-- Where no value makes the listener throw, the consumer goes on statement by statement. -/
theorem run_advance (hreturns : ∀ v, T v → ∀ service, ((f v).run service).1 = .ok ()) (n : ℕ)
    (hinv : Inv s.consumer) (hvalues : ∀ r ∈ s.consumer.log.records, T r.value) {c : State V}
    (h : (Kafka.system V).run s.consumer (List.replicate n .advance) = some c) :
    ∃ service, (system f).run s (List.replicate n (.consumer .advance)) =
      some { s with service, consumer := c } := by
  induction n generalizing s with
  | zero => cases h; exact ⟨s.service, rfl⟩
  | succ n ih =>
    obtain ⟨c₁, hadvance, h⟩ := System.run_cons_eq_some.1 h
    have hadvance : s.consumer.advance = some c₁ := hadvance
    obtain ⟨service, hstep⟩ := advance_returns (f := f) hadvance fun r hr =>
      hreturns _ (hvalues r (mem_of_arriving hinv hr)) _
    have hvalues₁ : ∀ r ∈ c₁.log.records, T r.value := by
      rw [log_advance hadvance]
      exact hvalues
    obtain ⟨service', hrun⟩ := ih (s := { s with service, consumer := c₁ }) (hinv.advance hadvance)
      hvalues₁ h
    refine ⟨service', ?_⟩
    rw [List.replicate_succ, System.run_cons_eq_some]
    exact ⟨_, hstep, hrun⟩

theorem step_consumer {e : Kafka.Event V} (he : e ≠ .advance) :
    (system f).step s (.consumer e) =
      (Kafka.step s.consumer e).map fun consumer => { s with consumer } := by
  cases e <;> first | rfl | exact absurd rfl he

/-- **The consumer of a service** moves as one that may crash at any time. -/
theorem reaches_consumer {ok : Served σ ε V → Event σ V → Prop} {s₀ : Served σ ε V}
    (h : (system f).Reaches ok s₀ s) :
    (Kafka.system V).Reaches (fun _ _ => True) s₀.consumer s.consumer := by
  induction h with
  | refl => exact .refl
  | @tail s s' e _ _ hst ih =>
    cases e with
    | consumer e =>
      by_cases he : e = .advance
      · subst he
        obtain ⟨c, hadvance, hst⟩ := Option.bind_eq_some_iff.1 hst
        have hadvance : (Kafka.system V).step s.consumer .advance = some c := hadvance
        have hnext := ih.tail trivial hadvance
        split at hst
        · cases hst; exact hnext
        · split at hst
          · cases hst; exact hnext
          · -- what the listener throws is a crash after its record
            obtain ⟨c', hcrash, hst⟩ := Option.bind_eq_some_iff.1 hst
            cases hst
            have hcrash : (Kafka.system V).step c .crash = some c' := hcrash
            exact hnext.tail trivial hcrash
      · rw [step_consumer he] at hst
        obtain ⟨c, hstep, rfl⟩ := Option.map_eq_some_iff.1 hst
        exact ih.tail trivial hstep
    | elsewhere service => cases hst; exact ih
    | wakeup =>
      simp only [system, Listener.step] at hst
      split at hst
      · obtain ⟨c, hcrash, rfl⟩ := Option.map_eq_some_iff.1 hst
        have hcrash : (Kafka.system V).step s.consumer .crash = some c := hcrash
        exact ih.tail trivial hcrash
      · cases hst

/-- What holds of a consumer in every run in which the listener does not throw. -/
structure Sound (T : V → Prop) (s : Served σ ε V) : Prop where
  inv : Inv s.consumer
  values : ∀ r ∈ s.consumer.log.records, T r.value
  ending : ∀ e, s.ending ≠ some (.thrown e)

theorem sound_starts (h : Starts T s) : Sound T s where
  inv := inv_initial h.consumer
  values := h.values
  ending e := by
    rw [h.ending]
    exact (Option.some_ne_none _).symm

namespace Sound

/-- What the consumer does by itself. -/
theorem consumer (hs : Sound T s) {e : Kafka.Event V} (hputs : (Event.consumer e : Event σ V).Puts T)
    {c : State V} (h : Kafka.step s.consumer e = some c) (service : σ) :
    Sound T { s with service, consumer := c } where
  inv := hs.inv.step h
  values r hr := by
    rcases mem_log_step h hr with hr | ⟨key, rfl⟩
    · exact hs.values r hr
    · exact hputs
  ending := hs.ending

theorem step (hs : Sound T s) (hreturns : ∀ v, T v → ∀ service, ((f v).run service).1 = .ok ())
    {e : Event σ V} (hputs : e.Puts T) (h : (system f).step s e = some s') : Sound T s' := by
  cases e with
  | consumer e =>
    by_cases he : e = .advance
    · subst he
      obtain ⟨c, hadvance, -⟩ := Option.bind_eq_some_iff.1 h
      obtain ⟨service, hstep⟩ := advance_returns (f := f) hadvance fun r hr =>
        hreturns _ (hs.values r (mem_of_arriving hs.inv hr)) _
      cases hstep.symm.trans h
      exact hs.consumer hputs hadvance service
    · rw [step_consumer he] at h
      obtain ⟨c, hstep, rfl⟩ := Option.map_eq_some_iff.1 h
      exact hs.consumer hputs hstep s.service
  | elsewhere service => cases h; exact ⟨hs.inv, hs.values, hs.ending⟩
  | wakeup =>
    simp only [system, Listener.step] at h
    split at h
    · obtain ⟨c, hstep, rfl⟩ := Option.map_eq_some_iff.1 h
      obtain ⟨hinv, hvalues, -⟩ := hs.consumer (e := .crash) trivial hstep s.service
      exact ⟨hinv, hvalues, fun e he => by cases he⟩
    · cases h

theorem reaches (hreturns : ∀ v, T v → ∀ service, ((f v).run service).1 = .ok ())
    {s₀ : Served σ ε V} (h₀ : Starts T s₀)
    (h : (system f).Reaches (fun _ e => e.Puts T) s₀ s) : Sound T s :=
  h.invariant (sound_starts h₀) fun _ _ _ hs hputs hstep => hs.step hreturns hputs hstep

end Sound

/-- A value that makes the listener throw ends the consumer. -/
theorem exists_thrown {v : V} (hv : T v) {service service' : σ} {e : ε}
    (hthrows : (f v).run service = (.error e, service')) :
    ∃ s₀ s : Served σ ε V, Starts T s₀ ∧ (system f).Reaches (fun _ e => e.Puts T) s₀ s ∧
      s.ending = some (.thrown e) := by
  let L : Log V := Log.empty.append "key" v (by simp [Log.keys, Log.empty])
  let s₀ : Served σ ε V := ⟨service, { log := L, committed := 0 }, none⟩
  have hstarts : Starts T s₀ := by
    refine ⟨⟨rfl, Nat.zero_le _, fun r hr => ?_, rfl, rfl, rfl⟩, fun r hr => ?_, rfl⟩
    · cases List.mem_singleton.1 hr
      exact ⟨(by decide : "key" ≠ RedisKafkaCache.CACHE_NAME), rfl⟩
    · cases List.mem_singleton.1 hr
      exact hv
  let events : List (Event σ V) :=
    [.consumer .start, .consumer (.poll 1), .consumer .advance, .consumer .advance]
  have hrun : ((system f).run s₀ events).map (·.ending) = some (some (.thrown e)) := by
    simp [events, s₀, L, System.run, system, Listener.step, Listener.advance, Kafka.step, State.advance,
      State.arriving, Log.fetch, Log.append, Log.empty, Log.length, RedisKafkaCache.getDuplicateItems,
      SetOperations.intersect, hthrows]
  obtain ⟨s, hs, hending⟩ := Option.map_eq_some_iff.1 hrun
  refine ⟨s₀, s, hstarts, System.reaches_of_run hs fun e he _ => ?_, hending⟩
  simp only [events, List.mem_cons, List.not_mem_nil, or_false] at he
  rcases he with rfl | rfl | rfl | rfl <;> trivial

end Listener

open Listener in
/-- **Survival**: a consumer survives exactly if its listener returns on every value that may be on
the topic, whatever the service is doing. -/
theorem survives_iff {f : V → Exec σ ε Unit} {T : V → Prop} :
    Survives f T ↔ ∀ v, T v → ∀ service, ((f v).run service).1 = .ok () := by
  constructor
  · intro h v hv service
    rcases hrun : (f v).run service with ⟨e | _, service'⟩
    · obtain ⟨s₀, s, hstarts, hreaches, hending⟩ := exists_thrown hv hrun
      exact absurd hending (h.not_thrown s₀ s hstarts hreaches e)
    · rfl
  · intro hreturns
    refine ⟨fun s₀ s h₀ h => (Sound.reaches hreturns h₀ h).ending, fun s₀ s records h₀ h hphase => ?_⟩
    have hs := Sound.reaches hreturns h₀ h
    obtain ⟨n, c, hrun, hpolling, hcommitted⟩ := run_polled hs.inv hphase
    obtain ⟨service, hrun⟩ := run_advance hreturns n hs.inv hs.values hrun
    exact ⟨n, _, hrun, hpolling, hcommitted⟩

end Linker.Kafka
