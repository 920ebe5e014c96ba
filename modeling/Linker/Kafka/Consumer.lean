import Linker.LTS.Basic
import Mathlib.Data.List.Nodup
import Mathlib.Data.Nat.Notation
import Mathlib.Logic.Function.Basic

/-!
# The Kafka consumer

`KafkaExpressDelivery` polls a partition for records, hands each to its listener and notes its key in
a Redis set, commits the offset after the last one, and deletes the keys from the set.  A consumer that
starts again after a crash goes on at the committed offset.  What it leaves out are the keys that Redis
finds in the intersection of that set with the sets that have the keys of the records for their names;
there are no such sets.

The consumer is modelled statement by statement, so that it can crash between any two of them.  The
set of keys is shared with the consumers of other topics, and records are appended to the log all the
time.

## Main results

* `getDuplicateItems_eq_nil` : no record is taken for a duplicate.
* `run_processRecords` : without a crash the steps of the loop compute `processRecords`.
-/

namespace Linker.Kafka

structure ConsumerRecord (V : Type) where
  offset : ℕ
  key : String
  value : V

/-- The records of a partition: the offset of a record is its place, and no key is drawn twice. -/
structure Log (V : Type) where
  records : List (ConsumerRecord V)
  offset_eq : ∀ (i : ℕ) (r : ConsumerRecord V), records[i]? = some r → r.offset = i
  nodup : (records.map ConsumerRecord.key).Nodup

namespace Log

variable {V : Type} {L : Log V}

def empty : Log V where
  records := []
  offset_eq _ _ h := by cases h
  nodup := List.nodup_nil

def keys (L : Log V) : List String := L.records.map ConsumerRecord.key

def length (L : Log V) : ℕ := L.records.length

/-- The log with one more record. -/
def append (L : Log V) (key : String) (value : V) (h : key ∉ L.keys) : Log V where
  records := L.records ++ [⟨L.length, key, value⟩]
  offset_eq i r hr := by
    rw [List.getElem?_append] at hr
    split_ifs at hr with hi
    · exact L.offset_eq i r hr
    · obtain ⟨hlt, rfl⟩ := List.getElem?_eq_some_iff.1 hr
      simp only [List.length_singleton, Nat.lt_one_iff] at hlt
      simp only [hlt, List.getElem_cons_zero, length]
      omega
  nodup := by
    rw [List.map_append, List.nodup_append]
    refine ⟨L.nodup, List.nodup_singleton _, fun a ha b hb hab => h ?_⟩
    rw [hab, List.mem_singleton.1 hb] at ha
    exact ha

/-- The records a poll returns: as many as it fetches from the position on. -/
def fetch (L : Log V) (position n : ℕ) : List (ConsumerRecord V) :=
  (L.records.drop position).take n

end Log

/-! ### The cache -/

/-- The sets of a Redis database by their names; a name without a set stands for the empty one. -/
abbrev Redis := String → List String

namespace SetOperations

/-- `SADD` -/
def add (key value : String) (redis : Redis) : Redis :=
  Function.update redis key ((redis key).insert value)

/-- `SINTER` : the members of a set that are in all of the other sets. -/
def intersect (key : String) (otherKeys : List String) (redis : Redis) : List String :=
  (redis key).filter fun member => otherKeys.all fun other => member ∈ redis other

/-- `SREM` -/
def remove (key : String) (values : List String) (redis : Redis) : Redis :=
  Function.update redis key ((redis key).filter fun member => member ∉ values)

end SetOperations

namespace RedisKafkaCache

def CACHE_NAME : String := "KAFKA_CACHE"

def addItem (item : String) (redis : Redis) : Redis := SetOperations.add CACHE_NAME item redis

/-- The items go to `intersect` as the names of the other sets. -/
def getDuplicateItems (items : List String) (redis : Redis) : List String :=
  SetOperations.intersect CACHE_NAME items redis

def deleteItems (items : List String) (redis : Redis) : Redis :=
  SetOperations.remove CACHE_NAME items redis

end RedisKafkaCache

open RedisKafkaCache

/-- No set has the key for its name. -/
def IsUnused (redis : Redis) (key : String) : Prop := key ≠ CACHE_NAME ∧ redis key = []

instance (redis : Redis) (key : String) : Decidable (IsUnused redis key) :=
  inferInstanceAs (Decidable (_ ∧ _))

section

variable {redis : Redis} {key : String}

/-- The cache changes its own set only. -/
theorem IsUnused.addItem (h : IsUnused redis key) (item : String) :
    IsUnused (addItem item redis) key :=
  ⟨h.1, (Function.update_of_ne h.1 ..).trans h.2⟩

theorem IsUnused.deleteItems (h : IsUnused redis key) (items : List String) :
    IsUnused (deleteItems items redis) key :=
  ⟨h.1, (Function.update_of_ne h.1 ..).trans h.2⟩

/-- **No duplicates.**  Redis has no set to intersect with. -/
theorem getDuplicateItems_eq_nil {items : List String} (hne : items ≠ [])
    (h : ∀ item ∈ items, IsUnused redis item) : getDuplicateItems items redis = [] := by
  obtain ⟨item, hitem⟩ := List.exists_mem_of_ne_nil items hne
  refine List.filter_eq_nil_iff.2 fun member _ hall => ?_
  have hmem := List.all_eq_true.1 hall item hitem
  rw [(h item hitem).2] at hmem
  simp at hmem

end

/-! ### The consumer -/

/-- Where the consumer is: what comes next of `runConsumer` and `processRecords`. -/
inductive Phase (V : Type) where
  /-- No consumer is running. -/
  | down
  /-- `consumer.poll` -/
  | polling
  /-- `getDuplicateItems` of the records -/
  | polled (records : List (ConsumerRecord V))
  /-- the loop, with the records it is through with and those still to come -/
  | looping (done : List (ConsumerRecord V)) (duplicateKeys : List String)
      (todo : List (ConsumerRecord V))
  /-- `addItem` of a record that has been handed to the listener -/
  | arrived (done : List (ConsumerRecord V)) (duplicateKeys : List String)
      (record : ConsumerRecord V) (todo : List (ConsumerRecord V))
  /-- `commitSync` -/
  | processed (records : List (ConsumerRecord V))
  /-- `deleteItems` -/
  | committed (records : List (ConsumerRecord V))

namespace Phase

variable {V : Type}

/-- The offset of the record between its `onMessageArrived` and its `addItem`. -/
def pending : Phase V → Option ℕ
  | .arrived _ _ record _ => some record.offset
  | _ => none

/-- The offsets of the records between their `addItem` and `commitSync`. -/
def added : Phase V → List ℕ
  | .looping done _ _ => done.map ConsumerRecord.offset
  | .arrived done _ _ _ => done.map ConsumerRecord.offset
  | .processed records => records.map ConsumerRecord.offset
  | _ => []

end Phase

structure State (V : Type) where
  log : Log V
  /-- The offset that the broker has for the consumer group. -/
  committed : ℕ
  /-- The offset the running consumer polls from. -/
  position : ℕ := 0
  redis : Redis := fun _ => []
  phase : Phase V := .down
  /-- The offsets of the records handed to the listener. -/
  handed : List ℕ := []
  /-- The offsets of the records that a crash left between `onMessageArrived` and `addItem`. -/
  interrupted : List ℕ := []
  /-- The offsets of the records that a crash left between `addItem` and `commitSync`. -/
  uncommitted : List ℕ := []

variable {V : Type}

/-- `onMessageArrived(record.value())`. -/
def State.onMessageArrived (r : ConsumerRecord V) (s : State V) : State V :=
  { s with handed := s.handed ++ [r.offset] }

/-- The body of the loop of `processRecords`. -/
def processRecord (duplicateKeys : List String) (s : State V) (r : ConsumerRecord V) : State V :=
  if r.key ∈ duplicateKeys then s
  else { s.onMessageArrived r with redis := addItem r.key s.redis }

/-- `processRecords`, when nothing interrupts it. -/
def processRecords (records : List (ConsumerRecord V)) (s : State V) : State V :=
  let duplicateKeys := getDuplicateItems (records.map ConsumerRecord.key) s.redis
  records.foldl (processRecord duplicateKeys) s

/-- The next statement of the consumer, `none` where it waits for a poll or is not running. -/
def State.advance (s : State V) : Option (State V) :=
  match s.phase with
  | .down => none
  | .polling => none
  | .polled records =>
    let duplicateKeys := getDuplicateItems (records.map ConsumerRecord.key) s.redis
    some { s with phase := .looping [] duplicateKeys records }
  | .looping done _ [] => some { s with phase := .processed done }
  | .looping done duplicateKeys (r :: todo) =>
    if r.key ∈ duplicateKeys then some { s with phase := .looping (done ++ [r]) duplicateKeys todo }
    else some { s.onMessageArrived r with phase := .arrived done duplicateKeys r todo }
  | .arrived done duplicateKeys r todo =>
    some { s with
      redis := addItem r.key s.redis
      phase := .looping (done ++ [r]) duplicateKeys todo }
  | .processed records => records.getLast?.map fun last =>
    { s with committed := last.offset + 1, phase := .committed records }
  | .committed records =>
    some { s with
      redis := deleteItems (records.map ConsumerRecord.key) s.redis
      phase := .polling }

/-- The consumer is gone, and leaves the records that it has not committed. -/
def State.crash (s : State V) : State V :=
  { s with
    phase := .down
    interrupted := s.interrupted ++ s.phase.pending.toList
    uncommitted := s.uncommitted ++ s.phase.added }

inductive Event (V : Type) where
  /-- A producer appends a record, under a key that it has drawn. -/
  | produce (key : String) (value : V)
  /-- A consumer starts. -/
  | start
  /-- A poll returns so many records. -/
  | poll (n : ℕ)
  /-- The consumer goes on by one statement. -/
  | advance
  /-- The consumer crashes. -/
  | crash
  /-- Another consumer adds a key of its own topic to the cache. -/
  | addElsewhere (key : String)
  /-- Another consumer deletes a key of its own topic from the cache. -/
  | deleteElsewhere (key : String)

def step (s : State V) : Event V → Option (State V)
  | .produce key value =>
    if h : key ∉ s.log.keys ∧ IsUnused s.redis key then
      some { s with log := s.log.append key value h.1 }
    else none
  | .start =>
    match s.phase with
    | .down => some { s with position := s.committed, phase := .polling }
    | _ => none
  | .poll n =>
    match s.phase with
    | .polling =>
      let records := s.log.fetch s.position n
      if records = [] then none
      else some { s with position := s.position + records.length, phase := .polled records }
    | _ => none
  | .advance => s.advance
  | .crash => some s.crash
  | .addElsewhere key => some { s with redis := addItem key s.redis }
  | .deleteElsewhere key => some { s with redis := deleteItems [key] s.redis }

/-- A partition with at most one consumer. -/
def system (V : Type) : System (State V) (Event V) where
  step := step

theorem run_loop (done : List (ConsumerRecord V)) (duplicateKeys : List String)
    (todo : List (ConsumerRecord V)) (s : State V) :
    ∃ n, (system V).run { s with phase := .looping done duplicateKeys todo }
        (List.replicate n .advance) =
      some { todo.foldl (processRecord duplicateKeys) s with phase := .processed (done ++ todo) } := by
  induction todo generalizing done s with
  | nil => exact ⟨1, by rw [List.append_nil]; rfl⟩
  | cons r todo ih =>
    have happend : done ++ r :: todo = done ++ [r] ++ todo := List.append_cons ..
    by_cases hr : r.key ∈ duplicateKeys
    · obtain ⟨n, hn⟩ := ih (done ++ [r]) s
      refine ⟨n + 1, ?_⟩
      rw [List.replicate_succ, System.run_cons_eq_some, List.foldl_cons, processRecord, if_pos hr,
        happend]
      exact ⟨_, if_pos hr, hn⟩
    · obtain ⟨n, hn⟩ := ih (done ++ [r]) { s.onMessageArrived r with redis := addItem r.key s.redis }
      refine ⟨n + 2, ?_⟩
      rw [List.replicate_succ, System.run_cons_eq_some, List.foldl_cons, processRecord, if_neg hr,
        happend]
      refine ⟨_, if_neg hr, ?_⟩
      rw [List.replicate_succ, System.run_cons_eq_some]
      exact ⟨_, rfl, hn⟩

/-- Without a crash the statements of the loop do what `processRecords` computes. -/
theorem run_processRecords {s : State V} {records : List (ConsumerRecord V)}
    (h : s.phase = .polled records) :
    ∃ n, (system V).run s (List.replicate n .advance) =
      some { processRecords records s with phase := .processed records } := by
  obtain ⟨n, hn⟩ := run_loop []
    (getDuplicateItems (records.map ConsumerRecord.key) s.redis) records s
  refine ⟨n + 1, ?_⟩
  rw [List.replicate_succ, System.run_cons_eq_some]
  exact ⟨_, by simp only [system, step, State.advance, h], hn⟩

end Linker.Kafka
