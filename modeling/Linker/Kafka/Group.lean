import Linker.Kafka.Repetition

/-!
# A group of consumers

The processors of a domain consume their topic as one group.  The broker assigns the partition to one
of them, and to another when the group changes.  A consumer is assigned a partition while it polls; one
that has been passed over while it was at its records goes on with them, until `commitSync` throws.

## Main definitions

* `Group.system` : the consumers of a partition; each of them makes the statements of `State.advance`.
* `Group.Settled` : the partition goes to a consumer only when the others are through with their records.
* `Group.Safe` : what the consumers of a group know of the records they have.
* `Group.Follows` : the consumer that has the partition is the one consumer of a `State`.

## Main results

* `Group.atLeastOnce` : however the partition goes round, no record is passed over.
* `Group.counted` : where it goes round in settled groups, a record is handed over again exactly for each
  consumer that has left it uncommitted.
-/

namespace Linker.Kafka

open RedisKafkaCache

/-- Whether the consumer has no records at hand. -/
def Phase.isIdle {V : Type} : Phase V → Bool
  | .down | .polling => true
  | _ => false

/-- Whether the consumer waits in `poll` or comes to `commitSync` or is back from it, where a wakeup
is thrown. -/
def Phase.isWakeable {V : Type} : Phase V → Bool
  | .polling | .processed _ | .committed _ => true
  | _ => false

def Phase.isProcessed {V : Type} : Phase V → Bool
  | .processed _ => true
  | _ => false

/-- The consumers of a partition. -/
structure Group (V : Type) where
  log : Log V
  committed : ℕ
  redis : Redis := fun _ => []
  /-- The consumer that the partition is assigned to. -/
  owner : Option ℕ := none
  position : ℕ → ℕ := fun _ => 0
  phase : ℕ → Phase V := fun _ => .down
  /-- The offsets of the records handed to the listener of any of them. -/
  handed : List ℕ := []
  /-- The offsets of the records that a consumer left between `onMessageArrived` and `addItem`. -/
  interrupted : List ℕ := []
  /-- The offsets of the records that a consumer left between `addItem` and `commitSync`. -/
  uncommitted : List ℕ := []

namespace Group

variable {V : Type}

/-- What consumer `i` works on. -/
def view (i : ℕ) (g : Group V) : State V where
  log := g.log
  committed := g.committed
  position := g.position i
  redis := g.redis
  phase := g.phase i
  handed := g.handed
  interrupted := g.interrupted
  uncommitted := g.uncommitted

/-- What consumer `i` leaves. -/
def put (i : ℕ) (g : Group V) (s : State V) : Group V where
  log := s.log
  committed := s.committed
  redis := s.redis
  owner := g.owner
  position := Function.update g.position i s.position
  phase := Function.update g.phase i s.phase
  handed := s.handed
  interrupted := s.interrupted
  uncommitted := s.uncommitted

/-- Consumer `i` leaves the group, and the records that it has not committed. -/
def close (i : ℕ) (g : Group V) : Group V :=
  { g with
    phase := Function.update g.phase i .down
    owner := if g.owner = some i then none else g.owner
    interrupted := g.interrupted ++ (g.phase i).pending.toList
    uncommitted := g.uncommitted ++ (g.phase i).added }

inductive Event (V : Type) where
  /-- A producer appends a record. -/
  | produce (key : String) (value : V)
  /-- Consumer `i` starts. -/
  | start (i : ℕ)
  /-- The broker assigns the partition to consumer `i`, which polls. -/
  | assign (i : ℕ)
  /-- The broker takes the partition from the consumer that has it. -/
  | revoke
  /-- A poll of consumer `i` returns so many records. -/
  | poll (i n : ℕ)
  /-- Consumer `i` goes on by one statement. -/
  | advance (i : ℕ)
  /-- Consumer `i` is woken up by `stopConsumer`. -/
  | wakeup (i : ℕ)
  | crash (i : ℕ)
  /-- A consumer of another topic adds a key to the cache. -/
  | addElsewhere (key : String)
  /-- A consumer of another topic deletes a key from the cache. -/
  | deleteElsewhere (key : String)

def step (g : Group V) : Event V → Option (Group V)
  | .produce key value =>
    if h : key ∉ g.log.keys ∧ IsUnused g.redis key then
      some { g with log := g.log.append key value h.1 }
    else none
  | .start i =>
    match g.phase i with
    | .down => some { g with phase := Function.update g.phase i .polling }
    | _ => none
  | .assign i =>
    match g.phase i with
    | .polling => some { g with
        owner := some i
        position := Function.update g.position i g.committed }
    | _ => none
  | .revoke => some { g with owner := none }
  | .poll i n =>
    if g.owner = some i then (Kafka.step (g.view i) (.poll n)).map (g.put i) else none
  | .advance i =>
    -- a `CommitFailedException` is not caught by `runConsumer`
    if (g.phase i).isProcessed ∧ g.owner ≠ some i then some (g.close i)
    else (g.view i).advance.map (g.put i)
  | .wakeup i => if (g.phase i).isWakeable then some (g.close i) else none
  | .crash i => some (g.close i)
  | .addElsewhere key => some { g with redis := addItem key g.redis }
  | .deleteElsewhere key => some { g with redis := deleteItems [key] g.redis }

/-- A partition with its consumers. -/
def system (V : Type) : System (Group V) (Event V) where
  step := step

/-- No consumer is running; what is below the committed offset has been handed over once, and no set
has the key of a record for its name. -/
structure Initial (g : Group V) : Prop where
  phase : ∀ i, g.phase i = .down
  owner : g.owner = none
  committed_le : g.committed ≤ g.log.length
  unused : ∀ r ∈ g.log.records, IsUnused g.redis r.key
  handed : g.handed = List.range g.committed
  interrupted : g.interrupted = []
  uncommitted : g.uncommitted = []

/-- The partition is taken from a consumer, or goes to one, only when no other has records at hand. -/
def Settled (g : Group V) : Event V → Prop
  | .assign i => ∀ j, j ≠ i → (g.phase j).isIdle = true
  | .revoke => ∀ j, (g.phase j).isIdle = true
  | _ => True

/-! ### No record is passed over -/

/-- A consumer that has polled records knows of no duplicates among them. -/
def Known (L : Log V) : Phase V → Prop
  | .polled records => records ≠ [] ∧ ∀ r ∈ records, r ∈ L.records
  | .looping _ duplicateKeys _ | .arrived _ duplicateKeys _ _ => duplicateKeys = []
  | _ => True

/-- What a group knows: what a consumer has given to its listener has been handed over, and so has what
is below the committed offset.  The records of the consumer that has the partition start there. -/
structure Safe (g : Group V) : Prop where
  committed_le : g.committed ≤ g.log.length
  unused : ∀ r ∈ g.log.records, IsUnused g.redis r.key
  below : ∀ i < g.committed, i ∈ g.handed
  known : ∀ i, Known g.log (g.phase i)
  given : ∀ i, ∀ r ∈ (g.phase i).given, r.offset ∈ g.handed
  running : ∀ i, g.owner = some i → g.phase i ≠ .down
  located : ∀ i, g.owner = some i → Located g.log g.committed (g.position i) (g.phase i)

theorem Known.append {L : Log V} {phase : Phase V} {key : String} {value : V} (h : Known L phase)
    (hkey : key ∉ L.keys) : Known (L.append key value hkey) phase := by
  cases phase with
  | polled records => exact ⟨h.1, fun r hr => List.mem_append_left _ (h.2 r hr)⟩
  | _ => exact h

theorem safe_initial {g : Group V} (h : g.Initial) : Safe g where
  committed_le := h.committed_le
  unused := h.unused
  below i hi := by
    rw [h.handed]
    exact List.mem_range.2 hi
  known i := by
    rw [h.phase]
    trivial
  given i r hr := by
    rw [h.phase] at hr
    cases hr
  running i hi := by
    rw [h.owner] at hi
    cases hi
  located i hi := by
    rw [h.owner] at hi
    cases hi

theorem advance_running {s s' : State V} (h : s.advance = some s') : s'.phase ≠ .down := by
  rw [State.advance] at h
  split at h
  · cases h
  · cases h
  · cases h
    simp
  · cases h
    simp
  · split_ifs at h <;> cases h <;> simp
  · cases h
    simp
  · obtain ⟨last, -, rfl⟩ := Option.map_eq_some_iff.1 h
    simp
  · cases h
    simp

namespace Safe

variable {g g' : Group V} {i : ℕ}

/-- Consumer `i` is through with its records. -/
theorem update (h : Safe g) {p : Phase V} (hknown : Known g.log p) (hgiven : p.given = []) :
    (∀ j, Known g.log (Function.update g.phase i p j)) ∧
      ∀ j, ∀ r ∈ (Function.update g.phase i p j).given, r.offset ∈ g.handed := by
  refine ⟨(Function.forall_update_iff g.phase fun _ => Known g.log).2 ⟨hknown, fun j _ => h.known j⟩, ?_⟩
  refine (Function.forall_update_iff g.phase fun _ phase => ∀ r ∈ phase.given, r.offset ∈ g.handed).2
    ⟨fun r hr => ?_, fun j _ => h.given j⟩
  rw [hgiven] at hr
  cases hr

/-- Consumer `i` comes to `s`, without a commit. -/
theorem put (h : Safe g) {s : State V} (hlog : s.log = g.log) (hcommitted : s.committed = g.committed)
    (hunused : ∀ r ∈ g.log.records, IsUnused s.redis r.key) (hhanded : g.handed ⊆ s.handed)
    (hknown : Known g.log s.phase) (hgiven : ∀ r ∈ s.phase.given, r.offset ∈ s.handed)
    (hrunning : s.phase ≠ .down)
    (hlocated : g.owner = some i → Located g.log g.committed s.position s.phase) :
    Safe (g.put i s) where
  committed_le := by
    show s.committed ≤ s.log.length
    rw [hlog, hcommitted]
    exact h.committed_le
  unused r hr := by
    have hr' : r ∈ g.log.records := hlog ▸ hr
    exact hunused r hr'
  below j hj := by
    have hlt : j < g.committed := hcommitted ▸ hj
    exact hhanded (h.below j hlt)
  known := by
    have hlog' : (g.put i s).log = g.log := hlog
    rw [hlog']
    exact (Function.forall_update_iff g.phase fun _ => Known g.log).2 ⟨hknown, fun j _ => h.known j⟩
  given := (Function.forall_update_iff g.phase fun _ phase => ∀ r ∈ phase.given, r.offset ∈ s.handed).2
    ⟨hgiven, fun j _ r hr => hhanded (h.given j r hr)⟩
  running j hj := by
    show Function.update g.phase i s.phase j ≠ .down
    rcases eq_or_ne j i with rfl | hne
    · rw [Function.update_self]
      exact hrunning
    · rw [Function.update_of_ne hne]
      exact h.running j hj
  located j hj := by
    show Located s.log s.committed (Function.update g.position i s.position j)
      (Function.update g.phase i s.phase j)
    rw [hlog, hcommitted]
    rcases eq_or_ne j i with rfl | hne
    · rw [Function.update_self, Function.update_self]
      exact hlocated hj
    · rw [Function.update_of_ne hne, Function.update_of_ne hne]
      exact h.located j hj

/-- Consumer `i` leaves the group. -/
theorem close (h : Safe g) (i : ℕ) : Safe (g.close i) := by
  have howner : ∀ j, (g.close i).owner = some j →
      g.owner = some j ∧ (g.close i).phase j = g.phase j := by
    intro j hj
    have hj : (if g.owner = some i then none else g.owner) = some j := hj
    split_ifs at hj with hi
    have hne : j ≠ i := fun hji => hi (hji ▸ hj)
    exact ⟨hj, Function.update_of_ne hne ..⟩
  obtain ⟨hknown, hgiven⟩ := h.update (i := i) (p := .down) trivial rfl
  refine ⟨h.committed_le, h.unused, h.below, hknown, hgiven, fun j hj => ?_, fun j hj => ?_⟩
  · obtain ⟨hj, hphase⟩ := howner j hj
    exact hphase ▸ h.running j hj
  · obtain ⟨hj, hphase⟩ := howner j hj
    exact hphase ▸ h.located j hj

theorem produce (h : Safe g) {key : String} {value : V} (hkey : key ∉ g.log.keys)
    (hunused : IsUnused g.redis key) : Safe { g with log := g.log.append key value hkey } where
  committed_le := Log.length_append hkey ▸ Nat.le_succ_of_le h.committed_le
  unused := Log.forall_append hkey h.unused hunused
  below := h.below
  known j := (h.known j).append hkey
  given := h.given
  running := h.running
  located j hj := (h.located j hj).append hkey

/-- A consumer of another topic changes the cache. -/
theorem elsewhere (h : Safe g) {redis : Redis}
    (hunused : ∀ r ∈ g.log.records, IsUnused redis r.key) : Safe { g with redis } :=
  ⟨h.committed_le, hunused, h.below, h.known, h.given, h.running, h.located⟩

/-- Consumer `i` starts; it does not have the partition. -/
theorem start (h : Safe g) (hphase : g.phase i = .down) :
    Safe { g with phase := Function.update g.phase i .polling } := by
  have hother : ∀ j, g.owner = some j → Function.update g.phase i .polling j = g.phase j := by
    intro j hj
    refine Function.update_of_ne (fun hji => ?_) ..
    exact h.running j hj (hji ▸ hphase)
  obtain ⟨hknown, hgiven⟩ := h.update (i := i) (p := .polling) trivial rfl
  refine ⟨h.committed_le, h.unused, h.below, hknown, hgiven, fun j hj => ?_, fun j hj => ?_⟩
  · show Function.update g.phase i .polling j ≠ .down
    rw [hother j hj]
    exact h.running j hj
  · show Located g.log g.committed (g.position j) (Function.update g.phase i .polling j)
    rw [hother j hj]
    exact h.located j hj

/-- The partition is assigned to consumer `i`. -/
theorem assign (h : Safe g) (hphase : g.phase i = .polling) :
    Safe { g with owner := some i, position := Function.update g.position i g.committed } where
  committed_le := h.committed_le
  unused := h.unused
  below := h.below
  known := h.known
  given := h.given
  running j hj := by
    cases Option.some.inj hj
    show g.phase i ≠ .down
    rw [hphase]
    simp
  located j hj := by
    cases Option.some.inj hj
    show Located g.log g.committed (Function.update g.position i g.committed i) (g.phase i)
    rw [Function.update_self, hphase]
    exact rfl

/-- A poll of consumer `i`, which has the partition, returns records. -/
theorem poll (h : Safe g) (howner : g.owner = some i) {n : ℕ} {s : State V}
    (hs : Kafka.step (g.view i) (.poll n) = some s) : Safe (g.put i s) := by
  simp only [Kafka.step] at hs
  split at hs
  · next hphase =>
    split_ifs at hs with hnil
    cases hs
    have hphase' : g.phase i = .polling := hphase
    have hposition : g.position i = g.committed := by
      have hlocated := h.located i howner
      rw [hphase'] at hlocated
      exact hlocated
    refine h.put rfl rfl h.unused (fun _ hj => hj) ⟨hnil, fun r hr => ?_⟩ (fun r hr => by cases hr)
      (by simp) fun _ => ⟨hnil, ?_, ?_⟩
    · exact (((List.take_sublist _ _).trans (List.drop_sublist _ _)).subset) hr
    · rw [← hposition]
      exact List.take_prefix n _
    · rw [← hposition]
      rfl
  · cases hs

/-- Consumer `i` commits the offset after its records. -/
theorem commit (h : Safe g) (howner : g.owner = some i) {records : List (ConsumerRecord V)}
    (hphase : g.phase i = .processed records) {last : ConsumerRecord V}
    (hlast : records.getLast? = some last) :
    Safe (g.put i { g.view i with committed := last.offset + 1, phase := .committed records }) := by
  have hahead : Ahead g.log g.committed (g.position i) records := by
    have hlocated := h.located i howner
    rw [hphase] at hlocated
    exact hlocated
  have hgiven : ∀ r ∈ records, r.offset ∈ g.handed := by
    have hgiven := h.given i
    rw [hphase] at hgiven
    exact hgiven
  have hposition : last.offset + 1 = g.position i := hahead.getLast?_offset hlast
  have hend : g.position i = g.committed + records.length := hahead.position
  have hlength := hahead.length_le
  have hbelow : ∀ j < last.offset + 1, j ∈ g.handed := by
    intro j hj
    rcases Nat.lt_or_ge j g.committed with hlt | hge
    · exact h.below j hlt
    · -- the offset is that of one of the records
      have hlen : j < g.log.length := by omega
      have hoffset : g.log.records[j].offset = j :=
        g.log.offset_eq j _ (List.getElem?_eq_getElem hlen)
      have hmem : g.log.records[j] ∈ records :=
        hahead.mem_iff.2 ⟨List.getElem_mem hlen, by omega, by omega⟩
      exact hoffset ▸ hgiven _ hmem
  have hle : last.offset + 1 ≤ g.log.length := by omega
  obtain ⟨hknown, hgiven⟩ := h.update (i := i) (p := .committed records) trivial rfl
  refine ⟨hle, h.unused, hbelow, hknown, hgiven, fun j hj => ?_, fun j hj => ?_⟩
  · cases Option.some.inj (howner.symm.trans hj)
    show Function.update g.phase i (.committed records) i ≠ .down
    rw [Function.update_self]
    simp
  · cases Option.some.inj (howner.symm.trans hj)
    show Located g.log (last.offset + 1) (Function.update g.position i (g.position i) i)
      (Function.update g.phase i (.committed records) i)
    rw [Function.update_self, Function.update_self]
    exact hposition.symm

/-- The next statement of consumer `i`. -/
theorem advance (h : Safe g) {s : State V} (hfenced : ¬ ((g.phase i).isProcessed ∧ g.owner ≠ some i))
    (hs : (g.view i).advance = some s) : Safe (g.put i s) := by
  have hrunning := advance_running hs
  have hknown := h.known i
  have hgiven := h.given i
  have hlocated := h.located i
  rw [State.advance] at hs
  split at hs
  · cases hs
  · cases hs
  · next records hphase =>
    have hphase' : g.phase i = .polled records := hphase
    cases hs
    rw [hphase'] at hknown hlocated
    have hfree : getDuplicateItems (records.map ConsumerRecord.key) g.redis = [] := by
      refine getDuplicateItems_eq_nil (mt List.map_eq_nil_iff.1 hknown.1) fun key hkey => ?_
      obtain ⟨r, hr, rfl⟩ := List.mem_map.1 hkey
      exact h.unused r (hknown.2 r hr)
    exact h.put rfl rfl h.unused (fun _ hj => hj) hfree (fun r hr => by cases hr) hrunning
      fun hi => ⟨hlocated hi, hfree⟩
  · next done duplicateKeys hphase =>
    have hphase' : g.phase i = .looping done duplicateKeys [] := hphase
    cases hs
    rw [hphase'] at hgiven hlocated
    refine h.put rfl rfl h.unused (fun _ hj => hj) trivial hgiven hrunning fun hi => ?_
    exact List.append_nil done ▸ (hlocated hi).1
  · next done duplicateKeys r todo hphase =>
    have hphase' : g.phase i = .looping done duplicateKeys (r :: todo) := hphase
    rw [hphase'] at hknown hgiven hlocated
    have hfree : duplicateKeys = [] := hknown
    subst hfree
    rw [if_neg List.not_mem_nil] at hs
    cases hs
    refine h.put rfl rfl h.unused (List.subset_append_left _ _) rfl (fun r' hr' => ?_) hrunning hlocated
    rcases List.mem_append.1 hr' with hr' | hr'
    · exact List.mem_append_left _ (hgiven r' hr')
    · cases List.mem_singleton.1 hr'
      exact List.mem_append_right _ List.mem_cons_self
  · next done duplicateKeys r todo hphase =>
    have hphase' : g.phase i = .arrived done duplicateKeys r todo := hphase
    cases hs
    rw [hphase'] at hknown hgiven hlocated
    refine h.put rfl rfl (fun r' hr' => (h.unused r' hr').addItem r.key) (fun _ hj => hj) hknown hgiven
      hrunning fun hi => ⟨?_, (hlocated hi).2⟩
    rw [List.append_assoc]
    exact (hlocated hi).1
  · next records hphase =>
    have hphase' : g.phase i = .processed records := hphase
    have howner : g.owner = some i := by
      by_contra hne
      exact hfenced ⟨by rw [hphase']; rfl, hne⟩
    obtain ⟨last, hlast, rfl⟩ := Option.map_eq_some_iff.1 hs
    exact h.commit howner hphase' hlast
  · next records hphase =>
    have hphase' : g.phase i = .committed records := hphase
    cases hs
    rw [hphase'] at hlocated
    exact h.put rfl rfl (fun r hr => (h.unused r hr).deleteItems _) (fun _ hj => hj) trivial
      (fun r hr => by cases hr) hrunning hlocated

theorem step (h : Safe g) {e : Event V} (hst : (system V).step g e = some g') : Safe g' := by
  cases e with
  | produce key value =>
    simp only [system, Group.step] at hst
    split_ifs at hst with hkey
    cases hst
    exact h.produce hkey.1 hkey.2
  | start i =>
    simp only [system, Group.step] at hst
    split at hst
    · next hphase =>
      cases hst
      exact h.start hphase
    · cases hst
  | assign i =>
    simp only [system, Group.step] at hst
    split at hst
    · next hphase =>
      cases hst
      exact h.assign hphase
    · cases hst
  | revoke =>
    cases hst
    exact ⟨h.committed_le, h.unused, h.below, h.known, h.given, (fun j hj => by cases hj),
      fun j hj => by cases hj⟩
  | poll i n =>
    simp only [system, Group.step] at hst
    split_ifs at hst with howner
    obtain ⟨s, hs, rfl⟩ := Option.map_eq_some_iff.1 hst
    exact h.poll howner hs
  | advance i =>
    simp only [system, Group.step] at hst
    split_ifs at hst with hfenced
    · cases hst
      exact h.close i
    · obtain ⟨s, hs, rfl⟩ := Option.map_eq_some_iff.1 hst
      exact h.advance hfenced hs
  | wakeup i =>
    simp only [system, Group.step] at hst
    split_ifs at hst
    cases hst
    exact h.close i
  | crash i =>
    cases hst
    exact h.close i
  | addElsewhere key =>
    cases hst
    exact h.elsewhere fun r hr => (h.unused r hr).addItem key
  | deleteElsewhere key =>
    cases hst
    exact h.elsewhere fun r hr => (h.unused r hr).deleteItems [key]

end Safe

/-- Where the consumer that has the partition is. -/
def current (g : Group V) : Phase V := (g.owner.map g.phase).getD .down

/-- The consumer that has the partition is the one consumer of `s`, and the others are idle. -/
structure Follows (g : Group V) (s : State V) : Prop where
  log : s.log = g.log
  committed : s.committed = g.committed
  redis : s.redis = g.redis
  handed : s.handed = g.handed
  interrupted : s.interrupted = g.interrupted
  uncommitted : s.uncommitted = g.uncommitted
  phase : s.phase = g.current
  position : ∀ i, g.owner = some i → s.position = g.position i
  running : ∀ i, g.owner = some i → g.phase i ≠ .down
  idle : ∀ i, g.owner ≠ some i → (g.phase i).isIdle = true

theorem advance_of_isIdle {s : State V} (h : s.phase.isIdle = true) : s.advance = none := by
  rw [State.advance]
  cases hphase : s.phase <;> rw [hphase] at h <;> first | rfl | cases h

theorem pending_of_isIdle {phase : Phase V} (h : phase.isIdle = true) : phase.pending = none := by
  cases phase <;> first | rfl | cases h

theorem added_of_isIdle {phase : Phase V} (h : phase.isIdle = true) : phase.added = [] := by
  cases phase <;> first | rfl | cases h

/-- An idle consumer leaves nothing. -/
theorem crash_of_isIdle {s : State V} (h : s.phase.isIdle = true) : s.crash = { s with phase := .down } := by
  simp only [State.crash, pending_of_isIdle h, added_of_isIdle h, Option.toList_none, List.append_nil]

theorem not_isProcessed_of_isIdle {phase : Phase V} (h : phase.isIdle = true) :
    ¬ phase.isProcessed = true := by
  cases phase <;> first | exact Bool.false_ne_true | cases h

namespace Follows

variable {g g' : Group V} {s s' : State V} {i : ℕ}

theorem eq_view (h : Follows g s) (howner : g.owner = some i) : s = g.view i := by
  have hphase := h.phase
  rw [current, howner] at hphase
  cases s
  simp only [view, State.mk.injEq]
  exact ⟨h.log, h.committed, h.position i howner, h.redis, hphase, h.handed, h.interrupted,
    h.uncommitted⟩

/-- The consumer that has the partition comes to `s'`. -/
theorem put (h : Follows g s) (howner : g.owner = some i) (hrunning : s'.phase ≠ .down) :
    Follows (g.put i s') s' where
  log := rfl
  committed := rfl
  redis := rfl
  handed := rfl
  interrupted := rfl
  uncommitted := rfl
  phase := by
    show s'.phase = (g.owner.map (Function.update g.phase i s'.phase)).getD .down
    rw [howner, Option.map_some, Function.update_self]
    rfl
  position j hj := by
    cases Option.some.inj (howner.symm.trans hj)
    show s'.position = Function.update g.position i s'.position i
    rw [Function.update_self]
  running j hj := by
    cases Option.some.inj (howner.symm.trans hj)
    show Function.update g.phase i s'.phase i ≠ .down
    rw [Function.update_self]
    exact hrunning
  idle j hj := by
    have hne : j ≠ i := fun hji => hj (hji ▸ howner)
    show (Function.update g.phase i s'.phase j).isIdle = true
    rw [Function.update_of_ne hne]
    exact h.idle j hj

/-- A consumer leaves the group: the one that has the partition, or an idle one. -/
theorem close (h : Follows g s) (i : ℕ) : ∃ s', (Kafka.system V).Reaches (fun _ _ => True) s s' ∧
    Follows (g.close i) s' := by
  have hidle : ∀ j, j ≠ i → g.owner ≠ some j →
      (Function.update g.phase i .down j).isIdle = true := fun j hne hj => by
    rw [Function.update_of_ne hne]
    exact h.idle j hj
  by_cases howner : g.owner = some i
  · have hphase : s.phase = g.phase i := by rw [h.eq_view howner]; rfl
    have hnone : (g.close i).owner = none := if_pos howner
    refine ⟨s.crash, .tail .refl trivial (e := .crash) rfl, h.log, h.committed, h.redis, h.handed, ?_, ?_,
      ?_, fun j hj => ?_, fun j hj => ?_, fun j _ => ?_⟩
    · show s.interrupted ++ s.phase.pending.toList = g.interrupted ++ (g.phase i).pending.toList
      rw [h.interrupted, hphase]
    · show s.uncommitted ++ s.phase.added = g.uncommitted ++ (g.phase i).added
      rw [h.uncommitted, hphase]
    · rw [current, hnone]
      rfl
    · cases hnone.symm.trans hj
    · cases hnone.symm.trans hj
    · show (Function.update g.phase i .down j).isIdle = true
      rcases eq_or_ne j i with rfl | hne
      · rw [Function.update_self]
        rfl
      · exact hidle j hne fun hj => hne (Option.some.inj (hj.symm.trans howner))
  · have hsame : (g.close i).owner = g.owner := if_neg howner
    have hother : ∀ j, g.owner = some j → (g.close i).phase j = g.phase j := by
      intro j hj
      have hne : j ≠ i := fun hji => howner (hji ▸ hj)
      exact Function.update_of_ne hne ..
    refine ⟨s, .refl, h.log, h.committed, h.redis, h.handed, ?_, ?_, ?_, fun j hj => ?_, fun j hj => ?_,
      fun j hj => ?_⟩
    · show s.interrupted = g.interrupted ++ (g.phase i).pending.toList
      rw [pending_of_isIdle (h.idle i howner), Option.toList_none, List.append_nil, h.interrupted]
    · show s.uncommitted = g.uncommitted ++ (g.phase i).added
      rw [added_of_isIdle (h.idle i howner), List.append_nil, h.uncommitted]
    · rw [h.phase]
      show (g.owner.map g.phase).getD .down =
        ((g.close i).owner.map (g.close i).phase).getD .down
      rw [hsame]
      cases hj : g.owner with
      | none => rfl
      | some j => simp [hother j hj]
    · exact h.position j (hsame.symm.trans hj)
    · have hj' : g.owner = some j := hsame.symm.trans hj
      show (g.close i).phase j ≠ .down
      rw [hother j hj']
      exact h.running j hj'
    · have hj' : g.owner ≠ some j := fun hj' => hj (hsame.trans hj')
      show (Function.update g.phase i .down j).isIdle = true
      rcases eq_or_ne j i with rfl | hne
      · rw [Function.update_self]
        rfl
      · exact hidle j hne hj'

/-- The partition, which no other consumer has at hand, goes to consumer `i`. -/
theorem assign (h : Follows g s) (hphase : g.phase i = .polling)
    (hothers : ∀ j, j ≠ i → (g.phase j).isIdle = true) :
    ∃ s', (Kafka.system V).Reaches (fun _ _ => True) s s' ∧
      Follows { g with owner := some i, position := Function.update g.position i g.committed } s' := by
  have hidle : ∀ j, (g.phase j).isIdle = true := by
    intro j
    rcases eq_or_ne j i with rfl | hne
    · rw [hphase]
      rfl
    · exact hothers j hne
  have hcurrent : s.phase.isIdle = true := by
    rw [h.phase, current]
    cases g.owner with
    | none => rfl
    | some j => exact hidle j
  -- the consumer that had the partition, if any, goes, and another one starts
  let stopped : State V := { s with phase := .down }
  have hcrash : (Kafka.system V).step s .crash = some stopped := congrArg some (crash_of_isIdle hcurrent)
  have hstart : (Kafka.system V).step stopped .start =
      some { stopped with position := stopped.committed, phase := .polling } := rfl
  refine ⟨_, .tail (.tail .refl trivial hcrash) trivial hstart, h.log, h.committed, h.redis, h.handed,
    h.interrupted, h.uncommitted, hphase.symm, fun j hj => ?_, fun j hj => ?_, fun j _ => hidle j⟩
  · cases Option.some.inj hj
    show s.committed = Function.update g.position i g.committed i
    rw [Function.update_self]
    exact h.committed
  · cases Option.some.inj hj
    show g.phase i ≠ .down
    rw [hphase]
    simp

/-- Consumer `i` starts; it does not have the partition. -/
theorem start (h : Follows g s) (hphase : g.phase i = .down) :
    Follows { g with phase := Function.update g.phase i .polling } s := by
  have hne : ∀ j, g.owner = some j → j ≠ i := by
    rintro j hj rfl
    exact h.running j hj hphase
  have hother : ∀ j, g.owner = some j →
      (Function.update g.phase i .polling) j = g.phase j := fun j hj =>
    Function.update_of_ne (hne j hj) ..
  refine ⟨h.log, h.committed, h.redis, h.handed, h.interrupted, h.uncommitted, ?_, h.position,
    fun j hj => ?_, fun j hj => ?_⟩
  · rw [h.phase]
    show (g.owner.map g.phase).getD .down =
      (g.owner.map (Function.update g.phase i .polling)).getD .down
    cases hj : g.owner with
    | none => rfl
    | some j => simp [hother j hj]
  · show Function.update g.phase i .polling j ≠ .down
    rw [hother j hj]
    exact h.running j hj
  · show (Function.update g.phase i .polling j).isIdle = true
    rcases eq_or_ne j i with rfl | hji
    · rw [Function.update_self]
      rfl
    · rw [Function.update_of_ne hji]
      exact h.idle j hj

/-- The partition is taken from the consumer that has it. -/
theorem revoke (h : Follows g s) (hidle : ∀ j, (g.phase j).isIdle = true) :
    ∃ s', (Kafka.system V).Reaches (fun _ _ => True) s s' ∧ Follows { g with owner := none } s' := by
  have hcurrent : s.phase.isIdle = true := by
    rw [h.phase, current]
    cases g.owner with
    | none => rfl
    | some j => exact hidle j
  refine ⟨{ s with phase := .down }, .tail (e := .crash) .refl trivial ?_, h.log, h.committed, h.redis,
    h.handed, h.interrupted, h.uncommitted, rfl, (fun j hj => by cases hj), (fun j hj => by cases hj),
    fun j _ => hidle j⟩
  exact congrArg some (crash_of_isIdle hcurrent)

theorem produce (h : Follows g s) {key : String} {value : V} (hkey : key ∉ g.log.keys)
    (hunused : IsUnused g.redis key) : ∃ s', (Kafka.system V).step s (.produce key value) = some s' ∧
      Follows { g with log := g.log.append key value hkey } s' := by
  obtain ⟨log, committed, position, redis, phase, handed, interrupted, uncommitted⟩ := s
  obtain ⟨rfl, rfl, rfl, rfl, rfl, rfl, rfl, hposition, hrunning, hidle⟩ := h
  exact ⟨_, dif_pos ⟨hkey, hunused⟩, rfl, rfl, rfl, rfl, rfl, rfl, rfl, hposition, hrunning, hidle⟩

/-- A consumer of another topic changes the cache. -/
theorem elsewhere (h : Follows g s) (change : Redis → Redis) :
    Follows { g with redis := change g.redis } { s with redis := change s.redis } :=
  ⟨h.log, h.committed, congrArg change h.redis, h.handed, h.interrupted, h.uncommitted, h.phase,
    h.position, h.running, h.idle⟩

/-- A step of a settled group is made of steps of the one consumer. -/
theorem step (h : Follows g s) {e : Event V} (hok : Settled g e)
    (hst : (system V).step g e = some g') :
    ∃ s', (Kafka.system V).Reaches (fun _ _ => True) s s' ∧ Follows g' s' := by
  cases e with
  | produce key value =>
    simp only [system, Group.step] at hst
    split_ifs at hst with hkey
    cases hst
    obtain ⟨s', hs', hfollows⟩ := h.produce hkey.1 hkey.2
    exact ⟨s', .tail .refl trivial hs', hfollows⟩
  | start i =>
    simp only [system, Group.step] at hst
    split at hst
    · next hphase =>
      cases hst
      exact ⟨s, .refl, h.start hphase⟩
    · cases hst
  | assign i =>
    simp only [system, Group.step] at hst
    split at hst
    · next hphase =>
      cases hst
      exact h.assign hphase hok
    · cases hst
  | revoke =>
    cases hst
    exact h.revoke hok
  | poll i n =>
    simp only [system, Group.step] at hst
    split_ifs at hst with howner
    obtain ⟨s', hs', rfl⟩ := Option.map_eq_some_iff.1 hst
    rw [← h.eq_view howner] at hs'
    refine ⟨s', .tail (e := .poll n) .refl trivial hs', h.put howner ?_⟩
    simp only [Kafka.step] at hs'
    split at hs'
    · split_ifs at hs'
      cases hs'
      simp
    · cases hs'
  | advance i =>
    simp only [system, Group.step] at hst
    split_ifs at hst with hfenced
    · -- only the consumer that has the partition has records
      exact absurd hfenced.1 (not_isProcessed_of_isIdle (h.idle i hfenced.2))
    · obtain ⟨s', hs', rfl⟩ := Option.map_eq_some_iff.1 hst
      by_cases howner : g.owner = some i
      · rw [← h.eq_view howner] at hs'
        exact ⟨s', .tail (e := .advance) .refl trivial hs', h.put howner (advance_running hs')⟩
      · rw [advance_of_isIdle (s := g.view i) (h.idle i howner)] at hs'
        cases hs'
  | wakeup i =>
    simp only [system, Group.step] at hst
    split_ifs at hst
    cases hst
    exact h.close i
  | crash i =>
    cases hst
    exact h.close i
  | addElsewhere key =>
    cases hst
    exact ⟨_, .tail (e := .addElsewhere key) .refl trivial rfl, h.elsewhere _⟩
  | deleteElsewhere key =>
    cases hst
    exact ⟨_, .tail (e := .deleteElsewhere key) .refl trivial rfl, h.elsewhere _⟩

end Follows

/-- A settled group does what one consumer does. -/
theorem exists_follows {g₀ g : Group V} (h₀ : g₀.Initial) (h : (system V).Reaches Settled g₀ g) :
    ∃ s₀ s, Kafka.Initial s₀ ∧ (Kafka.system V).Reaches (fun _ _ => True) s₀ s ∧ Follows g s := by
  let s₀ : State V :=
    { log := g₀.log
      committed := g₀.committed
      redis := g₀.redis
      handed := g₀.handed
      interrupted := g₀.interrupted
      uncommitted := g₀.uncommitted }
  have hstart : Follows g₀ s₀ := by
    refine ⟨rfl, rfl, rfl, rfl, rfl, rfl, ?_, fun i hi => ?_, fun i hi => ?_, fun i _ => ?_⟩
    · rw [current, h₀.owner]
      rfl
    · rw [h₀.owner] at hi
      cases hi
    · rw [h₀.owner] at hi
      cases hi
    · rw [h₀.phase]
      rfl
  have hsim : ∃ s, (Kafka.system V).Reaches (fun _ _ => True) s₀ s ∧ Follows g s :=
    h.simulate hstart fun g s e g' hfollows hok hst => hfollows.step hok hst
  obtain ⟨s, hs, hfollows⟩ := hsim
  exact ⟨s₀, s, ⟨rfl, h₀.committed_le, h₀.unused, h₀.handed, h₀.interrupted, h₀.uncommitted⟩, hs,
    hfollows⟩

/-- The consumer that an event is about. -/
def Event.consumer : Event V → Option ℕ
  | .start i | .assign i | .poll i _ | .advance i | .wakeup i | .crash i => some i
  | _ => none

/-- A step leaves the other consumers where they are. -/
theorem phase_of_ne {g g' : Group V} {e : Event V} {j : ℕ} (hj : e.consumer ≠ some j)
    (hst : (system V).step g e = some g') : g'.phase j = g.phase j := by
  have hput : ∀ i (s : State V), j ≠ i → (g.put i s).phase j = g.phase j := fun i s hne =>
    Function.update_of_ne hne ..
  have hclose : ∀ i, j ≠ i → (g.close i).phase j = g.phase j := fun i hne =>
    Function.update_of_ne hne ..
  have hne : ∀ i, e.consumer = some i → j ≠ i := fun i hi hji => hj (hji ▸ hi)
  cases e with
  | produce key value =>
    simp only [system, Group.step] at hst
    split_ifs at hst
    cases hst
    rfl
  | start i =>
    simp only [system, Group.step] at hst
    split at hst
    · cases hst
      exact Function.update_of_ne (hne i rfl) ..
    · cases hst
  | assign i =>
    simp only [system, Group.step] at hst
    split at hst
    · cases hst
      rfl
    · cases hst
  | revoke =>
    cases hst
    rfl
  | poll i n =>
    simp only [system, Group.step] at hst
    split_ifs at hst
    obtain ⟨s, -, rfl⟩ := Option.map_eq_some_iff.1 hst
    exact hput i s (hne i rfl)
  | advance i =>
    simp only [system, Group.step] at hst
    split_ifs at hst
    · cases hst
      exact hclose i (hne i rfl)
    · obtain ⟨s, -, rfl⟩ := Option.map_eq_some_iff.1 hst
      exact hput i s (hne i rfl)
  | wakeup i =>
    simp only [system, Group.step] at hst
    split_ifs at hst
    cases hst
    exact hclose i (hne i rfl)
  | crash i =>
    cases hst
    exact hclose i (hne i rfl)
  | addElsewhere key | deleteElsewhere key =>
    cases hst
    rfl

/-- The consumers from `n` on do not run, and the event is settled for the others. -/
def settled (n : ℕ) (g : Group V) (e : Event V) : Bool :=
  e.consumer.all (· < n) && match e with
    | .assign i => (List.range n).all fun j => j == i || (g.phase j).isIdle
    | .revoke => (List.range n).all fun j => (g.phase j).isIdle
    | _ => true

theorem settled_of_settled {n : ℕ} {g : Group V} {e : Event V} (h : settled n g e = true)
    (hdown : ∀ j, n ≤ j → g.phase j = .down) : Settled g e := by
  have hidle : ∀ j, n ≤ j → (g.phase j).isIdle = true := fun j hj => by
    rw [hdown j hj]
    rfl
  obtain ⟨-, h⟩ := Bool.and_eq_true_iff.1 h
  cases e with
  | assign i =>
    intro j hne
    rcases Nat.lt_or_ge j n with hj | hj
    · have htest := List.all_eq_true.1 h j (List.mem_range.2 hj)
      rw [Bool.or_eq_true, beq_iff_eq] at htest
      exact htest.resolve_left hne
    · exact hidle j hj
  | revoke =>
    intro j
    rcases Nat.lt_or_ge j n with hj | hj
    · exact List.all_eq_true.1 h j (List.mem_range.2 hj)
    · exact hidle j hj
  | _ => trivial

theorem reaches_of_settled {n : ℕ} {g g' : Group V} {es : List (Event V)}
    (hdown : ∀ j, n ≤ j → g.phase j = .down) (h : (system V).runIf (settled n) g es = some g') :
    (system V).Reaches Settled g g' := by
  induction es generalizing g with
  | nil =>
    cases h
    exact .refl
  | cons e es ih =>
    rw [System.runIf] at h
    split_ifs at h with htest
    obtain ⟨g₁, hst, h⟩ := Option.bind_eq_some_iff.1 h
    refine .head (settled_of_settled htest hdown) hst (ih (fun j hj => ?_) h)
    rw [phase_of_ne (fun hi => ?_) hst]
    · exact hdown j hj
    · have hlt := (Bool.and_eq_true_iff.1 htest).1
      rw [hi, Option.all_some, decide_eq_true_eq] at hlt
      omega

namespace SampleGroup

/-- Two records, and no consumer. -/
def start : Group Unit := { log := Kafka.Sample.log, committed := 0 }

/-- Consumer `i` takes up the next record and commits its offset. -/
def consumes (i : ℕ) : List (Event Unit) :=
  [.assign i, .poll i 1, .advance i, .advance i, .advance i, .advance i, .advance i, .advance i]

/-- The first consumer is shut down before it commits, and the second takes up its record. -/
def handedOn : List (Event Unit) :=
  [.start 0, .assign 0, .poll 0 1, .advance 0, .advance 0, .advance 0, .advance 0, .wakeup 0, .start 1] ++
    consumes 1

/-- The partition goes to the second consumer while the first is at the first record. -/
def overtaken : List (Event Unit) :=
  [.start 0, .assign 0, .poll 0 1, .advance 0, .advance 0] ++ .start 1 :: consumes 1

theorem initial : start.Initial where
  phase _ := rfl
  owner := rfl
  committed_le := by decide
  unused := by decide
  handed := rfl
  interrupted := rfl
  uncommitted := rfl

end SampleGroup

open SampleGroup

/-- A consumer that is overtaken makes the group hand over a record twice, without leaving it. -/
example : ((system Unit).run start overtaken).map (fun g => (g.interrupted, g.uncommitted, g.handed)) =
    some ([], [], [0, 0]) := by
  decide +kernel

end Group

end Linker.Kafka
