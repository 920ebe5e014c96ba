import Linker.Processor.ClientAppService
import Mathlib.Data.List.Sort

/-!
# The message repository and the user registry

`MessageRepository` over MongoDB (`save` replaces the record with the same id, `remove` deletes by
id) and `UserChannelService` over Redis, as operations on the stores of `State`.

## Main results

* `MessageRepository.mem_upsert`, `MessageRepository.mem_erase` : what is stored after `save` and
  `remove`.
* `MessageRepository.mem_found` : a query finds the records that meet its criteria, and no other.
-/

namespace Linker.Processor

section Lists

variable {α : Type} {r : α → α → Prop} [DecidableRel r]

/-- Filtering a list after an insertion or before it. -/
theorem filter_orderedInsert [IsTrans α r] (p : α → Bool) (a : α) {l : List α} (hl : l.Pairwise r) :
    (l.orderedInsert r a).filter p =
      if p a then (l.filter p).orderedInsert r a else l.filter p := by
  induction l with
  | nil => by_cases ha : p a = true <;> simp [ha]
  | cons b l ih =>
    have hrest := ih hl.of_cons
    by_cases hab : r a b
    · rw [List.orderedInsert_cons, if_pos hab, List.filter_cons]
      by_cases ha : p a = true
      · -- the first entry that is kept is above `a` too
        rw [if_pos ha, if_pos ha]
        rcases hkept : (b :: l).filter p with _ | ⟨c, l'⟩
        · rfl
        · have hc : c ∈ b :: l := (List.mem_filter.1 (hkept ▸ List.mem_cons_self)).1
          have hac : r a c := by
            rcases List.mem_cons.1 hc with rfl | hc
            · exact hab
            · exact trans_of r hab (List.rel_of_pairwise_cons hl hc)
          rw [List.orderedInsert_cons, if_pos hac]
      · rw [if_neg ha, if_neg ha]
    · rw [List.orderedInsert_cons, if_neg hab, List.filter_cons, List.filter_cons, hrest]
      by_cases hb : p b = true
      · simp only [hb, if_true, List.orderedInsert_cons, if_neg hab]
        split <;> rfl
      · simp only [hb, Bool.false_eq_true, if_false]

/-- Filtering a list after sorting or before it. -/
theorem filter_insertionSort [IsTrans α r] [Std.Total r] (p : α → Bool) (l : List α) :
    (l.insertionSort r).filter p = (l.filter p).insertionSort r := by
  induction l with
  | nil => rfl
  | cons a l ih =>
    rw [List.insertionSort_cons, filter_orderedInsert p a (List.pairwise_insertionSort r l), ih,
      List.filter_cons]
    split
    · rfl
    · rfl

/-- What is left of a list without its first entries. -/
theorem filter_take_eq_drop {β : Type} [BEq β] [LawfulBEq β] {l : List α} {f : α → β} (h : (l.map f).Nodup)
    (n : ℕ) : l.filter (fun r => f r ∉ (l.take n).map f) = l.drop n := by
  have hsplit : (l.take n ++ l.drop n).filter (fun r => f r ∉ (l.take n).map f) = l.drop n := by
    rw [List.filter_append]
    have htake : (l.take n).filter (fun r => f r ∉ (l.take n).map f) = [] := by
      refine List.filter_eq_nil_iff.2 fun r hr hcon => ?_
      exact (of_decide_eq_true hcon) (List.mem_map_of_mem hr)
    have hdrop : (l.drop n).filter (fun r => f r ∉ (l.take n).map f) = l.drop n := by
      refine List.filter_eq_self.2 fun r hr => decide_eq_true fun hcon => ?_
      have hnodup : ((l.take n).map f ++ (l.drop n).map f).Nodup := by
        rw [← List.map_append, List.take_append_drop]
        exact h
      exact (List.disjoint_of_nodup_append hnodup) hcon (List.mem_map_of_mem hr)
    rw [htake, hdrop, List.nil_append]
  rwa [List.take_append_drop] at hsplit

end Lists

/-! ### The message repository -/

namespace MessageRepository

/-- The records after `save`. -/
def upsert (m : Message) : List Message → List Message
  | [] => [m]
  | r :: l => if r.id = m.id then m :: l else r :: upsert m l

/-- The records after `remove`. -/
def erase (m : Message) (l : List Message) : List Message := l.filter fun r => r.id ≠ m.id

/-- The criteria of `findMessages`: `content.type` is only asked for where `types` is not null. -/
def criteria (toUser : Option String) (types : Option (List MessageType))
    (states : List MessageState) (m : Message) : Bool :=
  m.to_ == toUser && states.any (fun st => m.state == some st) &&
    (match types with
      | none => true
      | some ts => ts.any fun t => m.type == some t)

/-- The records that meet the criteria, oldest first. -/
def found (toUser : Option String) (types : Option (List MessageType))
    (states : List MessageState) (l : List Message) : List Message :=
  (l.filter (criteria toUser types states)).insertionSort fun a b => a.createdAt ≤ b.createdAt

/-- A page of a query: the records on it, and how many meet the criteria. -/
structure Page where
  content : List Message
  totalElements : ℕ

def page (toUser : Option String) (types : Option (List MessageType))
    (states : List MessageState) (pageSize : ℕ) (l : List Message) : Page where
  content := (found toUser types states l).take pageSize
  totalElements := (found toUser types states l).length

variable (E : Environment)

/-- MongoDB gives a record without an id a new one. -/
def assignId (m : Message) : Proc Message :=
  match m.id with
  | some _ => pure m
  | none => do
    let blank ← builder E
    pure { m with id := blank.id }

/-- `mongoTemplate.save`, with the message as it stands afterwards. -/
def save (m : Message) : Proc Message := do
  let m ← assignId E m
  .modify fun s => { s with messages := upsert m s.messages }
  Proc.note (.saved m)
  pure m

/-- `mongoTemplate.remove`. -/
def remove (m : Message) : Proc Unit :=
  .modify fun s => { s with messages := erase m s.messages }

/-- `PageRequest.of` rejects a page size below one. -/
def findMessages (toUser : Option String) (types : Option (List MessageType))
    (states : List MessageState) (pageSize : ℤ) (m : Message) : Proc Page :=
  if pageSize < 1 then .throw .illegalArgument m
  else .read fun s => page toUser types states pageSize.toNat s.messages

theorem mem_upsert {m r : Message} {l : List Message} (h : r ∈ upsert m l) : r = m ∨ r ∈ l := by
  induction l with
  | nil => exact .inl (List.mem_singleton.1 h)
  | cons a l ih =>
    rw [upsert] at h
    split_ifs at h with ha
    · rcases List.mem_cons.1 h with rfl | h
      · exact .inl rfl
      · exact .inr (List.mem_cons_of_mem a h)
    · rcases List.mem_cons.1 h with rfl | h
      · exact .inr List.mem_cons_self
      · exact (ih h).imp id (List.mem_cons_of_mem a)

theorem self_mem_upsert (m : Message) (l : List Message) : m ∈ upsert m l := by
  induction l with
  | nil => exact List.mem_singleton_self m
  | cons a l ih =>
    rw [upsert]
    split_ifs
    · exact List.mem_cons_self
    · exact List.mem_cons_of_mem a ih

theorem mem_erase {m r : Message} {l : List Message} : r ∈ erase m l ↔ r ∈ l ∧ r.id ≠ m.id := by
  simp [erase]

theorem mem_found {toUser : Option String} {types : Option (List MessageType)}
    {states : List MessageState} {l : List Message} {m : Message} :
    m ∈ found toUser types states l ↔ m ∈ l ∧ criteria toUser types states m = true := by
  rw [found, List.mem_insertionSort, List.mem_filter]

theorem mem_page {toUser : Option String} {types : Option (List MessageType)}
    {states : List MessageState} {n : ℕ} {l : List Message} {m : Message}
    (h : m ∈ (page toUser types states n l).content) :
    m ∈ l ∧ criteria toUser types states m = true :=
  mem_found.1 (List.mem_of_mem_take h)

/-- The records that are left out when the given ones are removed. -/
def eraseAll (l messages : List Message) : List Message :=
  messages.filter fun r => r.id ∉ l.map (·.id)

theorem eraseAll_nil (messages : List Message) : eraseAll [] messages = messages := by
  simp [eraseAll]

theorem eraseAll_cons (m : Message) (l messages : List Message) :
    eraseAll (m :: l) messages = eraseAll l (erase m messages) := by
  simp only [eraseAll, erase, List.filter_filter, List.map_cons, List.mem_cons, not_or]
  refine List.filter_congr fun r _ => ?_
  by_cases hr : r.id = m.id
  · simp [hr]
  · simp [hr]

/-- The order of a query. -/
instance : Std.Total fun a b : Message => a.createdAt ≤ b.createdAt := ⟨fun _ _ => le_total _ _⟩

instance : IsTrans Message fun a b => a.createdAt ≤ b.createdAt := ⟨fun _ _ _ => le_trans⟩

theorem sorted_found (toUser : Option String) (types : Option (List MessageType))
    (states : List MessageState) (l : List Message) :
    (found toUser types states l).Pairwise fun a b => a.createdAt ≤ b.createdAt :=
  List.pairwise_insertionSort _ _

/-- Removing records takes them out of the result of a query. -/
theorem found_eraseAll (toUser : Option String) (types : Option (List MessageType))
    (states : List MessageState) (x l : List Message) :
    found toUser types states (eraseAll x l) =
      (found toUser types states l).filter fun r => r.id ∉ x.map (·.id) := by
  rw [found, found, filter_insertionSort, eraseAll, List.filter_comm]

end MessageRepository

/-! ### The user registry -/

namespace UserChannelService

/-- The addresses registered for a user, none where the user has no entry. -/
def addressesOf (channels : String → Option (List Address)) (userId : String) : List Address :=
  (channels userId).getD []

/-- `getById`: Spring Data rejects a null id. -/
def getById (userId : Option String) (m : Message) : Proc (Option (List Address)) :=
  match userId with
  | none => .throw .illegalArgument m
  | some u => .read fun s => s.channels u

/-- The registry after `addAddress`; null is left out of the set that is stored. -/
def insert (u : String) (a : Option Address) (channels : String → Option (List Address)) :
    String → Option (List Address) :=
  fun v =>
    if v = u then
      some (match a with
        | some a => (addressesOf channels u).insert a
        | none => addressesOf channels u)
    else channels v

/-- The registry after `removeAddress`: an entry without addresses is deleted. -/
def delete (u : String) (a : Option Address) (channels : String → Option (List Address)) :
    String → Option (List Address) :=
  fun v =>
    if v = u then
      let rest := (addressesOf channels u).filter fun b => some b ≠ a
      if rest.isEmpty then none else some rest
    else channels v

section

variable {channels : String → Option (List Address)} {R : Address → Prop}

theorem forall_addressesOf (h : ∀ v l, channels v = some l → ∀ b ∈ l, R b) (u : String) :
    ∀ b ∈ addressesOf channels u, R b := by
  intro b hb
  unfold addressesOf at hb
  cases hu : channels u with
  | none => rw [hu] at hb; cases hb
  | some l => rw [hu] at hb; exact h u l hu b hb

/-- What holds of all registered addresses holds of them after the registration of one more. -/
theorem forall_insert (h : ∀ v l, channels v = some l → ∀ b ∈ l, R b) (u : String)
    {a : Option Address} (ha : ∀ b, a = some b → R b) :
    ∀ v l, insert u a channels v = some l → ∀ b ∈ l, R b := by
  intro v l hl b hb
  simp only [insert] at hl
  split_ifs at hl with hv
  · cases a with
    | none =>
      cases hl
      exact forall_addressesOf h u b hb
    | some a =>
      cases hl
      rcases List.mem_insert_iff.1 hb with rfl | hb
      · exact ha b rfl
      · exact forall_addressesOf h u b hb
  · exact h v l hl b hb

theorem forall_delete (h : ∀ v l, channels v = some l → ∀ b ∈ l, R b) (u : String)
    (a : Option Address) : ∀ v l, delete u a channels v = some l → ∀ b ∈ l, R b := by
  intro v l hl b hb
  simp only [delete] at hl
  split_ifs at hl with hv hempty
  · cases hl
    exact forall_addressesOf h u b (List.mem_filter.1 hb).1
  · exact h v l hl b hb

end

def addAddress (userId : Option String) (a : Option Address) (m : Message) : Proc Unit := do
  let _ ← getById userId m
  match userId with
  | some u => .modify fun s => { s with channels := insert u a s.channels }
  | none => pure ()

def removeAddress (userId : Option String) (a : Option Address) (m : Message) : Proc Unit := do
  let channel ← getById userId m
  match userId, channel with
  | some u, some _ => .modify fun s => { s with channels := delete u a s.channels }
  | _, _ => pure ()

end UserChannelService

end Linker.Processor
