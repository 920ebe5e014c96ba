import Linker.Kafka.Consumer

/-!
# What a consumer hands over again

A consumer that starts again after a crash hands over once more what it has not committed, whether the
key is in the cache or not.

## Main definitions

* `Located` : what holds of the records where the consumer is.
* `Inv` : what has been handed to the listener, in every state of a run.
* `Timely` : a crash comes while no record is between its `addItem` and `commitSync`.

## Main results

* `Inv.step` : the invariant is kept by every step.
* `handed_once` : every record below the committed offset has been handed to the listener; no record
  more often than once and once again for each crash between its `onMessageArrived` and its `addItem`
  as long as the crashes are timely; and any other crash makes a record be handed over more often.
-/

namespace Linker.Kafka

open RedisKafkaCache

variable {V : Type}

/-! ### Where the consumer is -/

theorem Log.getElem?_offset {L : Log V} {r : ConsumerRecord V} (h : r ∈ L.records) :
    L.records[r.offset]? = some r := by
  obtain ⟨i, hi, hr⟩ := List.getElem_of_mem h
  have hsome : L.records[i]? = some r := List.getElem?_eq_some_iff.2 ⟨hi, hr⟩
  rw [L.offset_eq i r hsome, hsome]

/-- The records are the next ones of the partition from the committed offset on, and the consumer is
past them. -/
structure Ahead (L : Log V) (committed position : ℕ) (records : List (ConsumerRecord V)) : Prop where
  ne_nil : records ≠ []
  isPrefix : records <+: L.records.drop committed
  position : position = committed + records.length

namespace Ahead

variable {L : Log V} {committed position : ℕ} {records rest : List (ConsumerRecord V)}

theorem getElem? (h : Ahead L committed position records) {i : ℕ} (hi : i < records.length) :
    L.records[committed + i]? = records[i]? := by
  obtain ⟨rest, hrest⟩ := h.isPrefix
  rw [← List.getElem?_drop, ← hrest, List.getElem?_append_left hi]

theorem mem_iff (h : Ahead L committed position records) {r : ConsumerRecord V} :
    r ∈ records ↔ r ∈ L.records ∧ committed ≤ r.offset ∧
      r.offset < committed + records.length := by
  refine ⟨fun hr => ?_, fun ⟨hr, hle, hlt⟩ => ?_⟩
  · obtain ⟨i, hi, rfl⟩ := List.getElem_of_mem hr
    have hget : L.records[committed + i]? = some records[i] := by
      rw [h.getElem? hi, List.getElem?_eq_getElem hi]
    have hoffset := L.offset_eq _ _ hget
    exact ⟨List.mem_of_getElem? hget, by omega, by omega⟩
  · have hget := h.getElem? (i := r.offset - committed) (by omega)
    rw [Nat.add_sub_cancel' hle, Log.getElem?_offset hr] at hget
    exact List.mem_of_getElem? hget.symm

theorem length_le (h : Ahead L committed position records) :
    committed + records.length ≤ L.length := by
  have hlen := h.isPrefix.length_le
  have hpos := List.length_pos_iff.2 h.ne_nil
  rw [List.length_drop] at hlen
  rw [Log.length]
  omega

/-- The offsets of the first of the records. -/
theorem offsets (h : Ahead L committed position (records ++ rest)) :
    records.map ConsumerRecord.offset = List.range' committed records.length := by
  refine List.ext_getElem (by simp) fun i hi _ => ?_
  rw [List.length_map] at hi
  have hget := h.getElem? (i := i) (by rw [List.length_append]; omega)
  rw [List.getElem?_append_left hi, List.getElem?_eq_getElem hi] at hget
  simp only [List.getElem_map, List.getElem_range', Nat.one_mul, L.offset_eq _ _ hget]

/-- The offset that is committed after the records. -/
theorem getLast?_offset (h : Ahead L committed position records) {r : ConsumerRecord V}
    (hr : records.getLast? = some r) : r.offset + 1 = position := by
  have hpos := List.length_pos_iff.2 h.ne_nil
  rw [List.getLast?_eq_getElem?] at hr
  have hget := h.getElem? (i := records.length - 1) (by omega)
  rw [hr] at hget
  have hoffset := L.offset_eq _ _ hget
  have hposition := h.position
  omega

theorem append (h : Ahead L committed position records) {key : String} {value : V}
    (hkey : key ∉ L.keys) : Ahead (L.append key value hkey) committed position records := by
  refine ⟨h.ne_nil, h.isPrefix.trans ?_, h.position⟩
  have hle : committed ≤ L.records.length := Nat.le_trans (Nat.le_add_right _ _) h.length_le
  rw [Log.append, List.drop_append_of_le_length hle]
  exact List.prefix_append _ _

end Ahead

theorem Log.length_append {L : Log V} {key : String} {value : V} (h : key ∉ L.keys) :
    (L.append key value h).length = L.length + 1 := by
  simp [Log.length, Log.append]

/-- What a log with one more record has for keys. -/
theorem Log.forall_append {L : Log V} {key : String} {value : V} (h : key ∉ L.keys)
    {P : String → Prop} (hL : ∀ r ∈ L.records, P r.key) (hkey : P key) :
    ∀ r ∈ (L.append key value h).records, P r.key := by
  intro r hr
  rcases List.mem_append.1 hr with hr | hr
  · exact hL r hr
  · cases List.mem_singleton.1 hr
    exact hkey

/-- The records handed over since the last commit. -/
def Phase.given : Phase V → List (ConsumerRecord V)
  | .looping done _ _ => done
  | .arrived done _ record _ => done ++ [record]
  | .processed records => records
  | _ => []

/-- Some of them are in the cache, and one may still be about to. -/
theorem Phase.offsets_given (phase : Phase V) :
    phase.given.map ConsumerRecord.offset = phase.added ++ phase.pending.toList := by
  cases phase <;> simp [given, added, pending]

/-- What holds of the records where the consumer is.  It knows of no duplicates. -/
def Located (L : Log V) (committed position : ℕ) : Phase V → Prop
  | .down => True
  | .polling => position = committed
  | .polled records => Ahead L committed position records
  | .looping done duplicateKeys todo =>
    Ahead L committed position (done ++ todo) ∧ duplicateKeys = []
  | .arrived done duplicateKeys r todo =>
    Ahead L committed position (done ++ r :: todo) ∧ duplicateKeys = []
  | .processed records => Ahead L committed position records
  | .committed _ => position = committed

namespace Located

variable {L : Log V} {committed position : ℕ} {phase : Phase V}

theorem append {key : String} {value : V} (h : Located L committed position phase)
    (hkey : key ∉ L.keys) : Located (L.append key value hkey) committed position phase := by
  cases phase with
  | down => trivial
  | polling => exact h
  | polled records => exact Ahead.append h hkey
  | looping done duplicateKeys todo => exact ⟨h.1.append hkey, h.2⟩
  | arrived done duplicateKeys r todo => exact ⟨h.1.append hkey, h.2⟩
  | processed records => exact Ahead.append h hkey
  | committed records => exact h

/-- What has been handed over are the first of the records. -/
theorem exists_ahead (h : Located L committed position phase) (hgiven : phase.given ≠ []) :
    ∃ rest, Ahead L committed position (phase.given ++ rest) := by
  cases phase with
  | looping done duplicateKeys todo => exact ⟨todo, h.1⟩
  | arrived done duplicateKeys r todo => exact ⟨todo, by simpa [Phase.given] using h.1⟩
  | processed records =>
    have hahead : Ahead L committed position records := h
    exact ⟨[], by simpa [Phase.given] using hahead⟩
  | _ => exact absurd rfl hgiven

theorem offsets (h : Located L committed position phase) :
    phase.given.map ConsumerRecord.offset = List.range' committed phase.given.length := by
  by_cases hgiven : phase.given = []
  · rw [hgiven]
    rfl
  · obtain ⟨rest, hahead⟩ := h.exists_ahead hgiven
    exact hahead.offsets

theorem given_le (h : Located L committed position phase) (hle : committed ≤ L.length) :
    committed + phase.given.length ≤ L.length := by
  by_cases hgiven : phase.given = []
  · rwa [hgiven]
  · obtain ⟨rest, hahead⟩ := h.exists_ahead hgiven
    have hlength := hahead.length_le
    rw [List.length_append] at hlength
    omega

end Located

/-- What has been handed to the listener: every record below the committed offset, what has been given
to it since, and what crashes have left. -/
structure Inv (s : State V) : Prop where
  committed_le : s.committed ≤ s.log.length
  unused : ∀ r ∈ s.log.records, IsUnused s.redis r.key
  located : Located s.log s.committed s.position s.phase
  handed : s.handed.Perm (List.range s.committed ++ s.phase.given.map ConsumerRecord.offset ++
    (s.interrupted ++ s.uncommitted))

/-- The offset of the record that is handed over next. -/
def State.frontier (s : State V) : ℕ := s.committed + s.phase.given.length

/-! ### The steps -/

namespace Inv

variable {s s' : State V}

theorem frontier_le (h : Inv s) : s.frontier ≤ s.log.length := h.located.given_le h.committed_le

/-- The records below the frontier have been handed over, and once more what crashes have left. -/
theorem perm (h : Inv s) :
    s.handed.Perm (List.range s.frontier ++ (s.interrupted ++ s.uncommitted)) := by
  have hrange : List.range s.frontier = List.range s.committed ++ List.range' s.committed
      s.phase.given.length := by
    rw [State.frontier, List.range_eq_range', List.range_eq_range', ← List.range'_append_1,
      Nat.zero_add]
  have hhanded := h.handed
  rwa [h.located.offsets, ← hrange] at hhanded

/-- How often a record has been handed over. -/
theorem count (h : Inv s) (i : ℕ) : s.handed.count i =
    s.interrupted.count i + s.uncommitted.count i + if i < s.frontier then 1 else 0 := by
  have hcount : (List.range s.frontier).count i = if i < s.frontier then 1 else 0 := by
    simp only [List.nodup_range.count, List.mem_range]
  rw [h.perm.count_eq, List.count_append, List.count_append, hcount]
  omega

/-- A statement that hands over nothing, and leaves the committed offset. -/
theorem goto (h : Inv s) {position : ℕ} {redis : Redis} {phase : Phase V}
    (hgiven : phase.given = s.phase.given) (hloc : Located s.log s.committed position phase)
    (hunused : ∀ r ∈ s.log.records, IsUnused redis r.key) :
    Inv { s with position, redis, phase } where
  committed_le := h.committed_le
  unused := hunused
  located := hloc
  handed := by
    simp only [hgiven]
    exact h.handed

/-- A record is handed to the listener. -/
theorem handOver (h : Inv s) {r : ConsumerRecord V} {phase : Phase V}
    (hgiven : phase.given = s.phase.given ++ [r])
    (hloc : Located s.log s.committed s.position phase) :
    Inv { s.onMessageArrived r with phase } where
  committed_le := h.committed_le
  unused := h.unused
  located := hloc
  handed := by
    refine List.perm_iff_count.2 fun i => ?_
    have hcount := h.handed.count_eq i
    simp only [State.onMessageArrived, hgiven, List.map_append, List.map_singleton,
      List.count_append] at hcount ⊢
    omega

/-- The offset after the records is committed. -/
theorem commit (h : Inv s) {records : List (ConsumerRecord V)} (hphase : s.phase = .processed records) :
    Inv { s with committed := s.position, phase := .committed records } := by
  have hahead : Ahead s.log s.committed s.position records := by
    have hloc := h.located
    rw [hphase] at hloc
    exact hloc
  have hfrontier : s.frontier = s.position := by
    rw [State.frontier, hphase]
    exact hahead.position.symm
  refine ⟨hahead.position ▸ hahead.length_le, h.unused, rfl, ?_⟩
  have hperm := h.perm
  rw [hfrontier] at hperm
  simpa [Phase.given] using hperm

theorem produce (h : Inv s) {key : String} {value : V} (hkey : key ∉ s.log.keys)
    (hunused : IsUnused s.redis key) : Inv { s with log := s.log.append key value hkey } where
  committed_le := Log.length_append hkey ▸ Nat.le_succ_of_le h.committed_le
  unused := Log.forall_append hkey h.unused hunused
  located := h.located.append hkey
  handed := h.handed

/-- What has been given to the listener since the last commit is left. -/
theorem crash (h : Inv s) : Inv s.crash where
  committed_le := h.committed_le
  unused := h.unused
  located := trivial
  handed := by
    refine List.perm_iff_count.2 fun i => ?_
    have hcount := h.handed.count_eq i
    rw [s.phase.offsets_given] at hcount
    have hdown : (Phase.down : Phase V).given = [] := rfl
    simp only [State.crash, hdown, List.map_nil, List.append_nil, List.count_append] at hcount ⊢
    omega

/-- The next statement of the consumer. -/
theorem advance (h : Inv s) (hs : s.advance = some s') : Inv s' := by
  have hloc := h.located
  rw [State.advance] at hs
  split at hs
  · cases hs
  · cases hs
  · next records hphase =>
    cases hs
    rw [hphase] at hloc
    have hahead : Ahead s.log s.committed s.position records := hloc
    refine h.goto (by rw [hphase]; rfl) ⟨hahead, getDuplicateItems_eq_nil ?_ fun key hkey => ?_⟩
      h.unused
    · exact mt List.map_eq_nil_iff.1 hahead.ne_nil
    · obtain ⟨r, hr, rfl⟩ := List.mem_map.1 hkey
      exact h.unused r (hahead.mem_iff.1 hr).1
  · next done duplicateKeys hphase =>
    cases hs
    rw [hphase] at hloc
    exact h.goto (by rw [hphase]; rfl) (List.append_nil done ▸ hloc.1) h.unused
  · next done duplicateKeys r todo hphase =>
    rw [hphase] at hloc
    obtain ⟨hahead, rfl⟩ := hloc
    rw [if_neg List.not_mem_nil] at hs
    cases hs
    exact h.handOver (by rw [hphase]; rfl) ⟨hahead, rfl⟩
  · next done duplicateKeys r todo hphase =>
    cases hs
    rw [hphase] at hloc
    obtain ⟨hahead, hdup⟩ := hloc
    exact h.goto (by rw [hphase]; rfl) ⟨by rwa [List.append_assoc], hdup⟩
      fun r' hr' => (h.unused r' hr').addItem r.key
  · next records hphase =>
    obtain ⟨last, hlast, rfl⟩ := Option.map_eq_some_iff.1 hs
    rw [hphase] at hloc
    rw [Ahead.getLast?_offset hloc hlast]
    exact h.commit hphase
  · next records hphase =>
    cases hs
    rw [hphase] at hloc
    exact h.goto (by rw [hphase]; rfl) hloc fun r hr => (h.unused r hr).deleteItems _

/-- Every step. -/
theorem step (h : Inv s) {e : Event V} (hs : (system V).step s e = some s') : Inv s' := by
  cases e with
  | produce key value =>
    simp only [system, Kafka.step] at hs
    split_ifs at hs with hkey
    cases hs
    exact h.produce hkey.1 hkey.2
  | start =>
    simp only [system, Kafka.step] at hs
    split at hs
    · next hphase =>
      cases hs
      exact h.goto (by rw [hphase]; rfl) rfl h.unused
    · cases hs
  | poll n =>
    simp only [system, Kafka.step] at hs
    split at hs
    · next hphase =>
      split_ifs at hs with hnil
      cases hs
      have hposition : s.position = s.committed := by
        have hloc := h.located
        rw [hphase] at hloc
        exact hloc
      refine h.goto (by rw [hphase]; rfl) ⟨hnil, ?_, by rw [hposition]⟩ h.unused
      rw [Log.fetch, hposition]
      exact List.take_prefix n _
    · cases hs
  | advance => exact h.advance hs
  | crash =>
    cases hs
    exact h.crash
  | addElsewhere key =>
    cases hs
    exact h.goto rfl h.located fun r hr => (h.unused r hr).addItem key
  | deleteElsewhere key =>
    cases hs
    exact h.goto rfl h.located fun r hr => (h.unused r hr).deleteItems [key]

theorem reaches {ok : State V → Event V → Prop} (h : Inv s) (hs : (system V).Reaches ok s s') :
    Inv s' :=
  hs.invariant h fun _ _ _ hI _ hst => hI.step hst

theorem run {es : List (Event V)} (h : Inv s) (hs : (system V).run s es = some s') : Inv s' :=
  h.reaches (System.reaches_of_run hs fun _ _ _ => trivial : (system V).Reaches (fun _ _ => True) s s')

end Inv

/-! ### Runs -/

/-- No consumer is running; what is below the committed offset has been handed over once, and no set
has the key of a record for its name. -/
structure Initial (s : State V) : Prop where
  phase : s.phase = .down
  committed_le : s.committed ≤ s.log.length
  unused : ∀ r ∈ s.log.records, IsUnused s.redis r.key
  handed : s.handed = List.range s.committed
  interrupted : s.interrupted = []
  uncommitted : s.uncommitted = []

theorem inv_initial {s : State V} (h : Initial s) : Inv s where
  committed_le := h.committed_le
  unused := h.unused
  located := by
    rw [h.phase]
    trivial
  handed := by
    rw [h.handed, h.phase, h.interrupted, h.uncommitted]
    simp [Phase.given]

/-- A crash comes while no record is between its `addItem` and `commitSync`. -/
def Timely (s : State V) : Event V → Prop
  | .crash => s.phase.added = []
  | _ => True

/-- Only a crash leaves records. -/
theorem uncommitted_advance {s s' : State V} (hs : s.advance = some s') :
    s'.uncommitted = s.uncommitted := by
  rw [State.advance] at hs
  split at hs
  · cases hs
  · cases hs
  · cases hs; rfl
  · cases hs; rfl
  · split_ifs at hs <;> cases hs <;> rfl
  · cases hs; rfl
  · obtain ⟨last, -, rfl⟩ := Option.map_eq_some_iff.1 hs
    rfl
  · cases hs; rfl

/-- A timely step leaves no record uncommitted. -/
theorem Timely.uncommitted {s s' : State V} {e : Event V} (h : Timely s e)
    (hs : (system V).step s e = some s') : s'.uncommitted = s.uncommitted := by
  cases e with
  | produce key value =>
    simp only [system, step] at hs
    split_ifs at hs
    cases hs
    rfl
  | start =>
    simp only [system, step] at hs
    split at hs <;> cases hs
    rfl
  | poll n =>
    simp only [system, step] at hs
    split at hs
    · split_ifs at hs
      cases hs
      rfl
    · cases hs
  | advance => exact uncommitted_advance hs
  | crash =>
    cases hs
    have hadded : s.phase.added = [] := h
    simp only [State.crash, hadded, List.append_nil]
  | addElsewhere key => cases hs; rfl
  | deleteElsewhere key => cases hs; rfl

theorem uncommitted_of_timely {s₀ s : State V} (h₀ : Initial s₀) (h : (system V).Reaches Timely s₀ s) :
    s.uncommitted = [] :=
  h.invariant (I := fun s => s.uncommitted = []) h₀.uncommitted fun _ _ _ hnil htimely hst =>
    (htimely.uncommitted hst).trans hnil

/-- The first record after the committed offset has been handed over, if any. -/
theorem Inv.added_eq_cons {s : State V} (h : Inv s) (hadded : s.phase.added ≠ []) :
    s.committed ∈ s.phase.added ∧ s.committed < s.log.length := by
  have hoffsets := h.located.offsets
  rw [s.phase.offsets_given] at hoffsets
  obtain ⟨i, rest, hi⟩ := List.exists_cons_of_ne_nil hadded
  have hfrontier := h.frontier_le
  rw [State.frontier] at hfrontier
  cases hn : s.phase.given.length with
  | zero =>
    rw [hn, hi] at hoffsets
    cases hoffsets
  | succ n =>
    rw [hn, hi, List.range'_succ, List.cons_append] at hoffsets
    rw [hi, (List.cons.inj hoffsets).1]
    exact ⟨List.mem_cons_self, by omega⟩

/-- **Repetition.**  After a crash that is not timely the next consumer hands a record over that is in
the cache. -/
theorem Inv.exists_repeated {s : State V} (h : Inv s) (hadded : s.phase.added ≠ []) :
    ∃ es s' i, (system V).run s (.crash :: es) = some s' ∧
      1 + s'.interrupted.count i < s'.handed.count i := by
  obtain ⟨hmem, hlt⟩ := h.added_eq_cons hadded
  let r := s.log.records[s.committed]
  have hfetch : s.log.fetch s.committed 1 = [r] := by
    rw [Log.fetch, List.drop_eq_getElem_cons hlt]
    rfl
  have hfree : getDuplicateItems [r.key] s.redis = [] := by
    refine getDuplicateItems_eq_nil (List.cons_ne_nil _ _) fun key hkey => ?_
    rw [List.mem_singleton.1 hkey]
    exact h.unused r (List.getElem_mem hlt)
  let s' : State V :=
    { s.crash.onMessageArrived r with
      position := s.committed + 1
      phase := .arrived [] [] r [] }
  have hrun : (system V).run s [.crash, .start, .poll 1, .advance, .advance] = some s' := by
    simp only [System.run, system, Kafka.step, State.crash, State.advance, State.onMessageArrived, hfetch,
      hfree, s', reduceCtorEq, List.map_cons, List.map_nil, List.length_singleton, List.not_mem_nil,
      if_false, Option.bind_some]
  refine ⟨_, s', s.committed, hrun, ?_⟩
  have hcount := (h.run hrun).count s.committed
  have huncommitted : 0 < s'.uncommitted.count s.committed :=
    List.count_pos_iff.2 (List.mem_append_right _ hmem)
  have hfrontier : s.committed < s'.frontier := Nat.lt_succ_self s.committed
  rw [if_pos hfrontier] at hcount
  omega

/-- **Consumption**, however it is batched and wherever the consumer crashes: what is below the
committed offset has been handed to the listener.  As long as no crash comes between an `addItem` and
the `commitSync` after it, no record is handed over more often than once and once again for each crash
between its `onMessageArrived` and its `addItem`.  After a crash that does come there, a record is handed
over more often than that. -/
theorem handed_once {s₀ : State V} (h₀ : Initial s₀) :
    (∀ es s, (system V).run s₀ es = some s → ∀ i < s.committed, i ∈ s.handed) ∧
    (∀ s, (system V).Reaches Timely s₀ s →
      (∀ i, s.handed.count i ≤ 1 + s.interrupted.count i) ∧
        ∀ i < s.committed, i ∉ s.interrupted → s.handed.count i = 1) ∧
    ∀ es s, (system V).run s₀ es = some s → ¬ Timely s .crash →
      ∃ es' s' i, (system V).run s (.crash :: es') = some s' ∧
        1 + s'.interrupted.count i < s'.handed.count i := by
  refine ⟨fun es s hrun i hi => ?_, fun s h => ?_, fun es s hrun hcrash => ?_⟩
  · have hlt : i < s.frontier := Nat.lt_add_right _ hi
    have hcount := ((inv_initial h₀).run hrun).count i
    rw [if_pos hlt] at hcount
    exact List.count_pos_iff.1 (by omega)
  · have hcount := ((inv_initial h₀).reaches h).count
    rw [uncommitted_of_timely h₀ h] at hcount
    refine ⟨fun i => ?_, fun i hi hnot => ?_⟩
    · rw [hcount, List.count_nil]
      split_ifs <;> omega
    · have hlt : i < s.frontier := Nat.lt_add_right _ hi
      rw [hcount, if_pos hlt, List.count_eq_zero.2 hnot, List.count_nil]
  · exact ((inv_initial h₀).run hrun).exists_repeated hcrash

namespace Sample

def log : Log Unit := (Log.empty.append "key-0" () (by decide)).append "key-1" () (by decide)

/-- A crash before the key of the first record is in the cache. -/
def interrupted : List (Event Unit) :=
  [.start, .poll 2, .advance, .advance, .crash,
    .start, .poll 1, .advance, .advance, .advance, .advance, .advance, .advance]

/-- A crash after it. -/
def uncommitted : List (Event Unit) :=
  [.start, .poll 2, .advance, .advance, .advance, .crash, .start, .poll 2, .advance, .advance]

def timely (s : State Unit) : Event Unit → Bool
  | .crash => s.phase.added.isEmpty
  | _ => true

theorem timely_of_timely {s : State Unit} {e : Event Unit} (h : timely s e = true) : Timely s e := by
  cases e with
  | crash => exact List.isEmpty_iff.1 h
  | _ => trivial

theorem initial : Initial ({ log, committed := 0 } : State Unit) where
  phase := rfl
  committed_le := by decide
  unused := by decide
  handed := rfl
  interrupted := rfl
  uncommitted := rfl

end Sample

open Sample

/-- The key of the first record is in the cache when the consumer crashes; the next consumer hands it over
again, and no crash has come between its `onMessageArrived` and its `addItem`. -/
theorem not_handed_once_uncommitted : ∃ s, (system Unit).run { log, committed := 0 } uncommitted = some s ∧
    s.redis CACHE_NAME = ["key-0"] ∧ s.handed = [0, 0] ∧ s.interrupted = [] ∧
    ¬ s.handed.count 0 ≤ 1 + s.interrupted.count 0 := by
  have hrun : ((system Unit).run { log, committed := 0 } uncommitted).map
      (fun s => (s.redis CACHE_NAME, s.handed, s.interrupted)) = some (["key-0"], [0, 0], []) := by
    decide +kernel
  obtain ⟨s, hs, hend⟩ := Option.map_eq_some_iff.1 hrun
  simp only [Prod.mk.injEq] at hend
  obtain ⟨hcache, hhanded, hinterrupted⟩ := hend
  refine ⟨s, hs, hcache, hhanded, hinterrupted, ?_⟩
  rw [hhanded, hinterrupted]
  decide

theorem handed_once_interrupted : ∃ s, (system Unit).run { log, committed := 0 } interrupted = some s ∧
    s.committed = 1 ∧ 0 ∈ s.handed ∧ s.interrupted = [0] ∧ s.handed.count 0 ≤ 2 ∧
    ∃ es s', (system Unit).run { log, committed := 0 } (uncommitted.take 5 ++ .crash :: es) = some s' ∧
      ∃ i, 1 + s'.interrupted.count i < s'.handed.count i := by
  obtain ⟨hall, hmost, hrepeated⟩ := handed_once initial
  have hrun : ((system Unit).runIf timely { log, committed := 0 } interrupted).map
      (fun s => (s.committed, s.interrupted)) = some (1, [0]) := by
    decide +kernel
  obtain ⟨s, hs, hend⟩ := Option.map_eq_some_iff.1 hrun
  obtain ⟨hcommitted, hinterrupted⟩ := Prod.mk.inj hend
  have hcount := (hmost s (System.reaches_of_runIf (fun _ _ => timely_of_timely) hs)).1 0
  rw [hinterrupted] at hcount
  refine ⟨s, System.run_of_runIf hs, hcommitted, hall _ s (System.run_of_runIf hs) 0 (by omega),
    hinterrupted, hcount, ?_⟩
  have hbefore : ((system Unit).run { log, committed := 0 } (uncommitted.take 5)).map
      (fun s => s.phase.added) = some [0] := by
    decide +kernel
  obtain ⟨t, ht, hadded⟩ := Option.map_eq_some_iff.1 hbefore
  obtain ⟨es, s', i, hs', hi⟩ := hrepeated _ t ht fun htimely => by
    cases hadded.symm.trans htimely
  exact ⟨es, s', (System.run_append ht).trans hs', i, hi⟩

end Linker.Kafka
