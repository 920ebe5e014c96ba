import Linker.Connector.State
import Linker.LTS.Routine

/-!
# Concurrent calls of the maps of a connector

The event loops of the sockets and the thread of the consumer call `NetworkUserService` at the same
time.  Its maps are `ConcurrentHashMap`s, so each of their methods is one access, but `addUser` and
`removeUser` make several of them, and change lists that others may have got from the map before.  The
lists are `ArrayList`s, which are not made for this: a method of a list is entered and left, and what it
does while another one is at work on the list, such as to throw a `ConcurrentModificationException`, is
not followed.

## Main definitions

* `Entry` : what a map has under a user id, with all the list objects that have been put there.
* `next` : `addUser`, `removeUser` and `getUser`, access by access.
* `Apart` : no method of a list is entered while another call is in one of the same list.

## Main results

* `safe_of_reaches` : in whatever order the accesses come, if the methods of a list are apart, only what
  has been added is found, what has been removed is not found any more, and nothing but `addUser` throws.
* `sequential_of_alone` : calls that are alone with their users do what the operations on `UserMap` do,
  one after the other, in the order in which they end.
* `lostHandler` : two sockets of one user that are added at the same time.
-/

namespace Linker.Connector.NetworkUserService

/-- What a map has under a user id: the lists that have been put there, by number, and which of them is
there now.  No list is put under two user ids. -/
structure Entry where
  lists : List (List ℤ) := []
  current : Option ℕ := none
  current_lt : ∀ r, current = some r → r < lists.length := by nofun

namespace Entry

def handlers (e : Entry) (r : ℕ) : List ℤ := e.lists[r]?.getD []

/-- The list that is there now. -/
def value (e : Entry) : Option (List ℤ) := e.current.map e.handlers

/-- `map.put(userId, new ArrayList<>())`. -/
def put (e : Entry) : Entry where
  lists := e.lists ++ [[]]
  current := some e.lists.length
  current_lt := by simp

/-- A list is changed, wherever it is. -/
def change (r : ℕ) (f : List ℤ → List ℤ) (e : Entry) : Entry where
  lists := e.lists.modify r f
  current := e.current
  current_lt := by simpa using e.current_lt

/-- `map.remove(userId)`. -/
def remove (e : Entry) : Entry where
  lists := e.lists

end Entry

/-- What a call returns: the handler that `getUser` finds, nothing for the others. -/
abbrev Result := Except JavaException (Option ℤ)

/-- Where a call is, with its local variables: before an access, or in a method of a list. -/
inductive At where
  | containsKey (socketHandler : ℤ)
  | put (socketHandler : ℤ)
  | get (socketHandler : ℤ)
  | add (socketHandler : ℤ) (list : ℕ)
  | inAdd (socketHandler : ℤ) (list : ℕ)
  | getList (socketId : ℤ)
  | removeIf (socketId : ℤ) (socketHandlers : ℕ)
  | inRemoveIf (socketId : ℤ) (socketHandlers : ℕ)
  | isEmpty (socketId : ℤ) (socketHandlers : ℕ)
  | remove (socketId : ℤ)
  | getOrDefault (socketId : Option ℤ)
  | findFirst (socketId : Option ℤ) (handlers : ℕ)
  | inFindFirst (socketId : Option ℤ) (handlers : ℕ)
  deriving DecidableEq

/-- The list of which the next access enters a method; `isEmpty` only reads the size. -/
def At.entering : At → Option ℕ
  | .add _ list => some list
  | .removeIf _ socketHandlers => some socketHandlers
  | .findFirst _ handlers => some handlers
  | _ => none

/-- The list in a method of which the call is. -/
def At.inside : At → Option ℕ
  | .inAdd _ list => some list
  | .inRemoveIf _ socketHandlers => some socketHandlers
  | .inFindFirst _ handlers => some handlers
  | _ => none

/-- The methods, access by access.  A method of a list does its work when it is left. -/
def next : At → Entry → (At ⊕ Result) × Entry
  -- addUser
  | .containsKey i, e => (.inl (if e.current.isSome then .get i else .put i), e)
  | .put i, e => (.inl (.get i), e.put)
  | .get i, e => (match e.current with
    | some list => .inl (.add i list)
    | none => .inr (.error .nullPointer), e)
  | .add i list, e => (.inl (.inAdd i list), e)
  | .inAdd i list, e => (.inr (.ok none), e.change list (· ++ [i]))
  -- removeUser
  | .getList i, e => (match e.current with
    | some socketHandlers => .inl (.removeIf i socketHandlers)
    | none => .inr (.ok none), e)
  | .removeIf i socketHandlers, e => (.inl (.inRemoveIf i socketHandlers), e)
  | .inRemoveIf i socketHandlers, e =>
    (.inl (.isEmpty i socketHandlers), e.change socketHandlers (·.filter (· ≠ i)))
  | .isEmpty i socketHandlers, e =>
    (if (e.handlers socketHandlers).isEmpty then .inl (.remove i) else .inr (.ok none), e)
  | .remove _, e => (.inr (.ok none), e.remove)
  -- getUser
  | .getOrDefault i, e => (match e.current with
    | some handlers => .inl (.findFirst i handlers)
    | none => .inr (.ok none), e)
  | .findFirst i handlers, e => (.inl (.inFindFirst i handlers), e)
  | .inFindFirst i handlers, e => (.inr (.ok ((e.handlers handlers).find? fun j => some j = i)), e)

inductive Call where
  | addUser (userId : String) (socketHandler : ℤ)
  | removeUser (userId : String) (socketId : ℤ)
  | getUser (userId : String) (socketId : Option ℤ)
  deriving DecidableEq

namespace Call

def userId : Call → String
  | addUser u _ => u
  | removeUser u _ => u
  | getUser u _ => u

def first : Call → At
  | addUser _ i => .containsKey i
  | removeUser _ i => .getList i
  | getUser _ i => .getOrDefault i

/-- The call, access by access. -/
def routine (c : Call) : Routine String Entry At Result where
  key := c.userId
  first := c.first
  next := next

/-- The map after the call, when it runs alone. -/
def run : Call → UserMap → UserMap
  | addUser u i => UserMap.addUser u i
  | removeUser u i => UserMap.removeUser u i
  | getUser _ _ => id

/-- What the call returns, when it runs alone. -/
def result : Call → UserMap → Option ℤ
  | addUser _ _, _ => none
  | removeUser _ _, _ => none
  | getUser u i, map => map.getUser u i

end Call

abbrev Run := Routine.State String Entry At Result

/-- Calls that run concurrently. -/
def system (calls : List Call) : System Run ℕ := Routine.system (calls.map Call.routine)

/-- No method of a list is entered while another call is in one of the same list. -/
def Apart (calls : List Call) (s : Run) (n : ℕ) : Prop :=
  ∀ c p r, calls[n]? = some c → s.progress n = .running p → p.entering = some r →
    ∀ m c' p', calls[m]? = some c' → c'.userId = c.userId → s.progress m = .running p' →
      p'.inside ≠ some r

/-- The map that is seen between two accesses. -/
def view (s : Run) : UserMap := fun u => (s.store u).value

/-! ### One access -/

/-- The call that is at a place. -/
def At.call (u : String) : At → Call
  | .containsKey i | .put i | .get i | .add i _ | .inAdd i _ => .addUser u i
  | .getList i | .removeIf i _ | .inRemoveIf i _ | .isEmpty i _ | .remove i => .removeUser u i
  | .getOrDefault i | .findFirst i _ | .inFindFirst i _ => .getUser u i

section

variable {e e' : Entry} {p p' : At} {q : At ⊕ Result} {i : ℤ} {r : ℕ} {u : String}

theorem handlers_of_le (h : e.lists.length ≤ r) : e.handlers r = [] := by
  simp [Entry.handlers, List.getElem?_eq_none h]

theorem handlers_put (e : Entry) (r : ℕ) : e.put.handlers r = e.handlers r := by
  by_cases h : r < e.lists.length
  · simp [Entry.handlers, Entry.put, List.getElem?_append_left h]
  · rw [handlers_of_le (not_lt.1 h), Entry.handlers, Entry.put,
      List.getElem?_append_right (not_lt.1 h)]
    cases r - e.lists.length <;> rfl

theorem handlers_change_of_ne {r' : ℕ} (f : List ℤ → List ℤ) (h : r ≠ r') :
    (e.change r f).handlers r' = e.handlers r' := by
  simp [Entry.handlers, Entry.change, h]

theorem handlers_change_self (f : List ℤ → List ℤ) (h : r < e.lists.length) :
    (e.change r f).handlers r = f (e.handlers r) := by
  simp [Entry.handlers, Entry.change, h]

/-- A change of a list shows in that list only. -/
theorem mem_handlers_change {r' : ℕ} {f : List ℤ → List ℤ} (h : i ∈ (e.change r f).handlers r') :
    (r' = r ∧ i ∈ f (e.handlers r)) ∨ (r' ≠ r ∧ i ∈ e.handlers r') := by
  by_cases hr : r' = r
  · subst hr
    by_cases hlt : r' < e.lists.length
    · exact .inl ⟨rfl, handlers_change_self f hlt ▸ h⟩
    · have hle : (e.change r' f).lists.length ≤ r' := by simpa [Entry.change] using hlt
      rw [handlers_of_le hle] at h
      cases h
  · rw [handlers_change_of_ne f (Ne.symm hr)] at h
    exact .inr ⟨hr, h⟩

theorem mem_value : i ∈ e.value.getD [] ↔ ∃ r, e.current = some r ∧ i ∈ e.handlers r := by
  cases h : e.current <;> simp [Entry.value, h]

/-- An access leaves the call what it is. -/
theorem call_next (h : next p e = (.inl p', e')) : p'.call u = p.call u := by
  have hfst : (next p e).1 = .inl p' := by rw [h]
  cases p with
  | containsKey i =>
    obtain rfl : (if e.current.isSome then At.get i else .put i) = p' := by simpa [next] using hfst
    split_ifs <;> rfl
  | get i =>
    cases hc : e.current <;> simp only [next, hc] at hfst <;> cases hfst
    rfl
  | getList i =>
    cases hc : e.current <;> simp only [next, hc] at hfst <;> cases hfst
    rfl
  | getOrDefault i =>
    cases hc : e.current <;> simp only [next, hc] at hfst <;> cases hfst
    rfl
  | isEmpty i r =>
    simp only [next] at hfst
    split_ifs at hfst
    cases hfst
    rfl
  | put i => cases hfst; rfl
  | add i r => cases hfst; rfl
  | removeIf i r => cases hfst; rfl
  | inRemoveIf i r => cases hfst; rfl
  | findFirst i r => cases hfst; rfl
  | _ => cases hfst

/-- A call is in a method of a list that it has entered. -/
theorem inside_next (h : next p e = (.inl p', e')) (hr : p'.inside = some r) : p.entering = some r := by
  have hfst : (next p e).1 = .inl p' := by rw [h]
  cases p with
  | containsKey i =>
    obtain rfl : (if e.current.isSome then At.get i else .put i) = p' := by simpa [next] using hfst
    split_ifs at hr <;> cases hr
  | get i =>
    cases hc : e.current <;> simp only [next, hc] at hfst <;> cases hfst
    cases hr
  | getList i =>
    cases hc : e.current <;> simp only [next, hc] at hfst <;> cases hfst
    cases hr
  | getOrDefault i =>
    cases hc : e.current <;> simp only [next, hc] at hfst <;> cases hfst
    cases hr
  | isEmpty i r =>
    simp only [next] at hfst
    split_ifs at hfst
    cases hfst
    cases hr
  | put i => cases hfst; cases hr
  | inRemoveIf i r => cases hfst; cases hr
  | add i r => cases hfst; exact hr
  | removeIf i r => cases hfst; exact hr
  | findFirst i r => cases hfst; exact hr
  | _ => cases hfst

/-- Only the last access of `addUser` puts a handler into a list. -/
theorem mem_next (h : next p e = (q, e')) (hi : i ∈ e'.handlers r) :
    i ∈ e.handlers r ∨ (∃ list, p = .inAdd i list) ∧ q = .inr (.ok none) := by
  cases p with
  | put j =>
    cases h
    exact .inl (handlers_put e r ▸ hi)
  | inAdd j list =>
    cases h
    rcases mem_handlers_change hi with ⟨rfl, hi⟩ | ⟨-, hi⟩
    · rcases List.mem_append.1 hi with hi | hi
      · exact .inl hi
      · exact .inr ⟨⟨r, by rw [List.mem_singleton.1 hi]⟩, rfl⟩
    · exact .inl hi
  | inRemoveIf j list =>
    cases h
    rcases mem_handlers_change hi with ⟨rfl, hi⟩ | ⟨-, hi⟩
    · exact .inl (List.mem_of_mem_filter hi)
    · exact .inl hi
  | _ => cases h; exact .inl hi

/-- Only a new list is put into the map. -/
theorem current_next (h : next p e = (q, e')) (hr : e'.current = some r) :
    e.current = some r ∨ e'.handlers r = [] := by
  cases p with
  | put j =>
    cases h
    cases hr
    exact .inr ((handlers_put e _).trans (handlers_of_le le_rfl))
  | remove j => cases h; cases hr
  | _ => cases h; exact .inl hr

/-- Only the last access of `removeUser` takes a list out of the map. -/
theorem removed_next (h : next p e = (q, e')) (hr : e'.current = none) :
    e.current = none ∨ (∃ j, p = .remove j) ∧ q = .inr (.ok none) := by
  cases p with
  | put j => cases h; cases hr
  | remove j => cases h; exact .inr ⟨⟨j, rfl⟩, rfl⟩
  | _ => cases h; exact .inl hr

/-- `addUser` goes on to get the list from the map where it has found or put it there. -/
theorem get_next (h : next p e = (.inl (.get i), e')) : e'.current ≠ none := by
  have hfst : (next p e).1 = .inl (.get i) := by rw [h]
  cases p with
  | containsKey j =>
    obtain rfl : e = e' := congrArg Prod.snd h
    intro hnone
    simp [next, hnone] at hfst
  | put j => cases h; simp [Entry.put]
  | get j => cases hc : e.current <;> simp only [next, hc] at hfst <;> cases hfst
  | getList j => cases hc : e.current <;> simp only [next, hc] at hfst <;> cases hfst
  | getOrDefault j => cases hc : e.current <;> simp only [next, hc] at hfst <;> cases hfst
  | isEmpty j r =>
    simp only [next] at hfst
    split_ifs at hfst
    cases hfst
  | _ => cases hfst

/-- A call throws where `addUser` does not get the list that it has found or put there. -/
theorem throws_next {x : JavaException} (h : next p e = (.inr (.error x), e')) :
    x = .nullPointer ∧ (∃ j, p = .get j) ∧ e.current = none := by
  have hfst : (next p e).1 = .inr (.error x) := by rw [h]
  cases p with
  | get j =>
    obtain rfl : e = e' := congrArg Prod.snd h
    cases hc : e.current <;> simp only [next, hc] at hfst <;> cases hfst
    exact ⟨rfl, ⟨j, rfl⟩, rfl⟩
  | getList j => cases hc : e.current <;> simp only [next, hc] at hfst <;> cases hfst
  | getOrDefault j => cases hc : e.current <;> simp only [next, hc] at hfst <;> cases hfst
  | isEmpty j r =>
    simp only [next] at hfst
    split_ifs at hfst
    cases hfst
  | _ => cases hfst

end

/-! ### Every order of accesses -/

/-- A call of `removeUser` for a user has ended. -/
def Removed (calls : List Call) (s : Run) (u : String) : Prop :=
  ∃ m j, calls[m]? = some (.removeUser u j) ∧ s.progress m = .ended (.ok none)

/-- The handler `i` is found under `u`. -/
def Found (s : Run) (u : String) (i : ℤ) : Prop := i ∈ (view s u).getD []

/-- No two calls are in methods of one list. -/
def Exclusive (calls : List Call) (s : Run) : Prop :=
  ∀ n m c c' p p' r, n ≠ m → calls[n]? = some c → calls[m]? = some c' → c.userId = c'.userId →
    s.progress n = .running p → s.progress m = .running p' → p.inside = some r → p'.inside ≠ some r

/-- What calls in any order of their accesses keep to. -/
structure Tracked (calls : List Call) (s : Run) : Prop where
  call : ∀ n c p, calls[n]? = some c → s.progress n = .running p → p.call c.userId = c
  added : ∀ u r i, i ∈ (s.store u).handlers r →
    ∃ n, calls[n]? = some (.addUser u i) ∧ s.progress n = .ended (.ok none)
  got : ∀ n u i, calls[n]? = some (.addUser u i) → s.progress n = .running (.get i) →
    (s.store u).current = none → Removed calls s u
  thrown : ∀ n x, s.progress n = .ended (.error x) → x = .nullPointer ∧
    ∃ u i, calls[n]? = some (.addUser u i) ∧ Removed calls s u

/-- What an access does to the calls and the map. -/
structure Accessed (calls : List Call) (s : Run) (n : ℕ) (s' : Run) (c : Call) (p : At)
    (q : At ⊕ Result) (e' : Entry) : Prop where
  call : calls[n]? = some c
  position : (s.progress n = .idle ∧ p = c.first) ∨ s.progress n = .running p
  next : next p (s.store c.userId) = (q, e')
  store : s'.store c.userId = e'
  store_ne : ∀ u, u ≠ c.userId → s'.store u = s.store u
  progress : s'.progress n = .ofNext q
  progress_ne : ∀ m, m ≠ n → s'.progress m = s.progress m

section

variable {calls : List Call} {s s' : Run} {n : ℕ} {u : String} {i : ℤ}

theorem exists_accessed (h : (system calls).step s n = some s') :
    ∃ c p q e', Accessed calls s n s' c p q e' := by
  obtain ⟨c', p, hc', hp, rfl⟩ := Routine.step_eq_some.1 h
  rw [List.getElem?_map] at hc'
  obtain ⟨c, hc, rfl⟩ := Option.map_eq_some_iff.1 hc'
  refine ⟨c, p, _, _, hc, Routine.position_cases hp, rfl, ?_, fun u hu => ?_, ?_, fun m hm => ?_⟩
  · exact Routine.store_access_self c.routine p
  · exact Routine.store_access_of_ne c.routine p hu
  · exact Routine.progress_access_self c.routine p
  · exact Routine.progress_access_of_ne c.routine p hm

namespace Accessed

variable {c : Call} {p : At} {q : At ⊕ Result} {e' : Entry} (h : Accessed calls s n s' c p q e')

include h

theorem notEnded (r : Result) : s.progress n ≠ .ended r := by
  intro hr
  rcases h.position with ⟨hp, -⟩ | hp
  · cases hp.symm.trans hr
  · cases hp.symm.trans hr

/-- What has ended has ended. -/
theorem ended {m : ℕ} {r : Result} (hm : s.progress m = .ended r) : s'.progress m = .ended r := by
  have hne : m ≠ n := fun hmn => h.notEnded r (hmn ▸ hm)
  rw [h.progress_ne m hne, hm]

/-- **Every access keeps the calls out of each other's lists.** -/
theorem exclusive (hok : Apart calls s n) (hs : Exclusive calls s) : Exclusive calls s' := by
  -- what the call is in after the access, it has entered
  have hentered : ∀ d p' r, calls[n]? = some d → s'.progress n = .running p' → p'.inside = some r →
      ∀ m d' p'', m ≠ n → calls[m]? = some d' → d'.userId = d.userId → s'.progress m = .running p'' →
        p''.inside ≠ some r := by
    intro d p' r hd hn hr m d' p'' hmn hd' hu hm
    cases h.call.symm.trans hd
    rw [h.progress] at hn
    rw [h.progress_ne m hmn] at hm
    cases q with
    | inr _ => cases hn
    | inl p₁ =>
      cases hn
      have henter := inside_next h.next hr
      rcases h.position with ⟨-, rfl⟩ | hp
      · cases c <;> cases henter
      · exact hok c p r h.call hp henter m d' p'' hd' hu hm
  intro m k d d' p₁ p₂ r hmk hd hd' hu hm hk hr hr'
  by_cases hmn : m = n
  · subst hmn
    exact hentered d p₁ r hd hm hr k d' p₂ hmk.symm hd' hu.symm hk hr'
  · by_cases hkn : k = n
    · subst hkn
      exact hentered d' p₂ r hd' hk hr' m d p₁ hmn hd hu hm hr
    · rw [h.progress_ne m hmn] at hm
      rw [h.progress_ne k hkn] at hk
      exact hs m k d d' p₁ p₂ r hmk hd hd' hu hm hk hr hr'

theorem removed (hu : Removed calls s u) : Removed calls s' u := by
  obtain ⟨m, j, hm, hend⟩ := hu
  exact ⟨m, j, hm, h.ended hend⟩

theorem call_eq (hs : Tracked calls s) : p.call c.userId = c := by
  rcases h.position with ⟨-, rfl⟩ | hp
  · cases c <;> rfl
  · exact hs.call n c p h.call hp

/-- **Every access keeps track.** -/
theorem tracked (hs : Tracked calls s) : Tracked calls s' := by
  have hcall := h.call_eq hs
  refine ⟨fun m d p' hd hm => ?_, fun u r i hi => ?_, fun m u i hm hget hnone => ?_, fun m x hm => ?_⟩
  · by_cases hmn : m = n
    · subst hmn
      cases h.call.symm.trans hd
      rw [h.progress] at hm
      cases q with
      | inl p'' =>
        cases hm
        exact (call_next h.next).trans hcall
      | inr r => cases hm
    · exact hs.call m d p' hd (h.progress_ne m hmn ▸ hm)
  · have hold : i ∈ (s.store u).handlers r →
        ∃ m, calls[m]? = some (.addUser u i) ∧ s'.progress m = .ended (.ok none) := by
      intro hi
      obtain ⟨m, hm, hend⟩ := hs.added u r i hi
      exact ⟨m, hm, h.ended hend⟩
    by_cases hu : u = c.userId
    · subst hu
      rw [h.store] at hi
      rcases mem_next h.next hi with hi | ⟨⟨list, rfl⟩, hq⟩
      · exact hold hi
      · -- the call that adds the handler ends with it
        refine ⟨n, by rw [h.call, ← hcall]; rfl, ?_⟩
        rw [h.progress, hq]
        rfl
    · exact hold (h.store_ne u hu ▸ hi)
  · by_cases hmn : m = n
    · subst hmn
      cases h.call.symm.trans hm
      rw [h.progress] at hget
      cases q with
      | inl p' =>
        cases hget
        exact absurd (h.store ▸ hnone) (get_next h.next)
      | inr r => cases hget
    · rw [h.progress_ne m hmn] at hget
      by_cases hu : u = c.userId
      · subst hu
        rcases removed_next h.next (h.store ▸ hnone) with hnone | ⟨⟨j, rfl⟩, hq⟩
        · exact h.removed (hs.got m _ i hm hget hnone)
        · -- the list has just been taken out
          refine ⟨n, j, by rw [h.call, ← hcall]; rfl, ?_⟩
          rw [h.progress, hq]
          rfl
      · exact h.removed (hs.got m u i hm hget (h.store_ne u hu ▸ hnone))
  · by_cases hmn : m = n
    · subst hmn
      rw [h.progress] at hm
      cases q with
      | inl p' => cases hm
      | inr r =>
        cases hm
        obtain ⟨rfl, ⟨j, rfl⟩, hnone⟩ := throws_next h.next
        have hadd : calls[m]? = some (.addUser c.userId j) := by rw [h.call, ← hcall]; rfl
        rcases h.position with ⟨-, hp⟩ | hp
        · cases c <;> cases hp
        · exact ⟨rfl, c.userId, j, hadd, h.removed (hs.got m c.userId j hadd hp hnone)⟩
    · rw [h.progress_ne m hmn] at hm
      obtain ⟨rfl, u, i, hmem, hrem⟩ := hs.thrown m x hm
      exact ⟨rfl, u, i, hmem, h.removed hrem⟩

end Accessed

/-! ### What has been removed -/

/-- How far a removal of `i` has got, and what it has left to find. -/
def Leaving (i : ℤ) (e : Entry) : Routine.Progress At Result → Prop
  | .idle => True
  | .running (.getList _) => True
  | .running (.removeIf _ r) => ∀ r', e.current = some r' → i ∈ e.handlers r' → r' = r
  | .running (.inRemoveIf _ r) => ∀ r', e.current = some r' → i ∈ e.handlers r' → r' = r
  | _ => i ∉ e.value.getD []

/-- Accesses of other calls, none of which adds the handler. -/
theorem Leaving.other {e e' : Entry} {q : Routine.Progress At Result}
    (hcurrent : ∀ r, e'.current = some r → e.current = some r ∨ e'.handlers r = [])
    (hmem : ∀ r, i ∈ e'.handlers r → i ∈ e.handlers r) (h : Leaving i e q) : Leaving i e' q := by
  -- the list in which it is found, if it is, was there before
  have hfound : ∀ r, e'.current = some r → i ∈ e'.handlers r →
      e.current = some r ∧ i ∈ e.handlers r := by
    intro r hr hi
    refine ⟨(hcurrent r hr).resolve_right fun hnil => ?_, hmem r hi⟩
    rw [hnil] at hi
    cases hi
  have hvalue : i ∉ e.value.getD [] → i ∉ e'.value.getD [] := by
    intro hnot hi
    obtain ⟨r, hr, hi⟩ := mem_value.1 hi
    exact hnot (mem_value.2 ⟨r, hfound r hr hi⟩)
  unfold Leaving at h ⊢
  split at h
  · trivial
  · trivial
  · exact fun r' hr' hi => h r' (hfound r' hr' hi).1 (hfound r' hr' hi).2
  · exact fun r' hr' hi => h r' (hfound r' hr' hi).1 (hfound r' hr' hi).2
  · exact hvalue h

/-- The accesses of the removal. -/
theorem Leaving.next {e e' : Entry} {p : At} {q : At ⊕ Result} (hp : p.call u = .removeUser u i)
    (hnext : next p e = (q, e')) (h : Leaving i e (.running p)) : Leaving i e' (.ofNext q) := by
  cases p with
  | getList j =>
    cases hc : e.current with
    | none =>
      simp only [NetworkUserService.next, hc] at hnext
      cases hnext
      simp [Leaving, Routine.Progress.ofNext, Entry.value, hc]
    | some r =>
      simp only [NetworkUserService.next, hc] at hnext
      cases hnext
      exact fun r' hr' _ => Option.some.inj (hr'.symm.trans hc)
  | removeIf j r =>
    cases hnext
    exact h
  | inRemoveIf j r =>
    cases hp
    cases hnext
    intro hi
    obtain ⟨r', hr', hi⟩ := mem_value.1 hi
    rcases mem_handlers_change hi with ⟨-, hi⟩ | ⟨hne, hi⟩
    · simp at hi
    · exact hne (h r' hr' hi)
  | isEmpty j r =>
    obtain rfl : e = e' := congrArg Prod.snd hnext
    have hq : q = if (e.handlers r).isEmpty then .inl (.remove j) else .inr (.ok none) :=
      (congrArg Prod.fst hnext).symm
    rw [hq]
    split_ifs
    · exact h
    · exact h
  | remove j =>
    cases hnext
    simp [Leaving, Routine.Progress.ofNext, Entry.value, Entry.remove]
  | _ => cases hp

/-- What holds in every order of the accesses in which the methods of a list are apart. -/
structure Safe (calls : List Call) (s : Run) : Prop where
  /-- What is found has been added under the user. -/
  found : ∀ u i, Found s u i →
    ∃ n, calls[n]? = some (.addUser u i) ∧ s.progress n = .ended (.ok none)
  /-- Once a call that begins after all that add a handler has removed it, it is not found any more. -/
  removed : ∀ u i n, calls[n]? = some (.removeUser u i) → s.progress n = .idle →
    (∀ m, calls[m]? = some (.addUser u i) → ∃ r, s.progress m = .ended r) →
    ∀ s' r, (system calls).Reaches (Apart calls) s s' → s'.progress n = .ended r → ¬ Found s' u i
  /-- Only `addUser` throws, where `removeUser` takes the list of the user away from it. -/
  thrown : ∀ n x, s.progress n = .ended (.error x) → x = .nullPointer ∧
    ∃ u i, calls[n]? = some (.addUser u i) ∧ Removed calls s u
  /-- Each method has its list for itself. -/
  exclusive : Exclusive calls s

theorem tracked_start (calls : List Call) : Tracked calls (Routine.start fun _ => {}) where
  call n c p _ h := by cases h
  added u r i h := by cases h
  got n u i _ h := by cases h
  thrown n x h := by cases h

/-- A handler that the call `n` removes, and that no call adds any more. -/
structure Departing (calls : List Call) (u : String) (i : ℤ) (n : ℕ) (s : Run) : Prop where
  tracked : Tracked calls s
  added : ∀ m, calls[m]? = some (.addUser u i) → ∃ r, s.progress m = .ended r
  leaving : Leaving i (s.store u) (s.progress n)

/-- **Every access keeps a departing handler departing.** -/
theorem Departing.step {m : ℕ} (hn : calls[n]? = some (.removeUser u i)) (h : Departing calls u i n s)
    (hst : (system calls).step s m = some s') : Departing calls u i n s' := by
  obtain ⟨c, p, q, e', hacc⟩ := exists_accessed hst
  have hcall := hacc.call_eq h.tracked
  refine ⟨hacc.tracked h.tracked, fun k hk => ?_, ?_⟩
  · obtain ⟨r, hr⟩ := h.added k hk
    exact ⟨r, hacc.ended hr⟩
  by_cases hmn : m = n
  · subst hmn
    cases hacc.call.symm.trans hn
    rw [show s'.store u = e' from hacc.store, hacc.progress]
    have hleaving : Leaving i (s.store u) (.running p) := by
      rcases hacc.position with ⟨-, rfl⟩ | hp
      · trivial
      · exact hp ▸ h.leaving
    exact hleaving.next hcall hacc.next
  · rw [hacc.progress_ne n (Ne.symm hmn)]
    by_cases hu : u = c.userId
    · subst hu
      rw [hacc.store]
      refine h.leaving.other (fun r => current_next hacc.next) fun r hi => ?_
      refine (mem_next hacc.next hi).resolve_right fun ⟨⟨list, hp⟩, _⟩ => ?_
      -- the call would add the handler, and has ended
      subst hp
      have hadd : calls[m]? = some (.addUser c.userId i) := by rw [hacc.call, ← hcall]; rfl
      obtain ⟨r, hr⟩ := h.added m hadd
      exact hacc.notEnded r hr
    · rw [hacc.store_ne u hu]
      exact h.leaving

/-- **In every order of the accesses** in which the methods of a list are apart, only what has been added
is found, what has been removed is not found any more, and only `addUser` throws. -/
theorem safe_of_reaches
    (h : (system calls).Reaches (Apart calls) (Routine.start fun _ => {}) s) : Safe calls s := by
  obtain ⟨hs, hexclusive⟩ : Tracked calls s ∧ Exclusive calls s := by
    refine h.invariant (I := fun s => Tracked calls s ∧ Exclusive calls s)
      ⟨tracked_start calls, fun n m c c' p p' r _ _ _ _ hn => by cases hn⟩
      fun _ _ _ hs hok hst => ?_
    obtain ⟨c, p, q, e', hacc⟩ := exists_accessed hst
    exact ⟨hacc.tracked hs.1, hacc.exclusive hok hs.2⟩
  refine ⟨fun u i hi => ?_, fun u i n hn hidle hadded s' r hreach hend => ?_, hs.thrown, hexclusive⟩
  · obtain ⟨r, -, hi⟩ := mem_value.1 hi
    exact hs.added u r i hi
  · have hdeparting : Departing calls u i n s' := by
      refine hreach.invariant (I := Departing calls u i n) ⟨hs, hadded, ?_⟩
        fun _ _ _ hI _ hst => hI.step hn hst
      rw [hidle]
      trivial
    have hleaving := hdeparting.leaving
    rw [hend] at hleaving
    exact hleaving

end

/-! ### Two sockets of one user -/

namespace SampleCalls

/-- A user has two sockets, and the first one is removed. -/
def calls : List Call := [.addUser "APP-5" 1, .addUser "APP-5" 2, .removeUser "APP-5" 1]

/-- Both sockets find no list; the second one puts its own over that of the first. -/
def together : List ℕ := [0, 1, 0, 0, 0, 0, 1, 1, 1, 1]

/-- Whether the next access of a call enters a method of a list that no other call is in. -/
def isApart (s : Run) (n : ℕ) : Bool :=
  match s.progress n with
  | .running p => p.entering.all fun r => (List.range 3).all fun m =>
    match s.progress m with
    | .running p' => p'.inside != some r
    | _ => true
  | _ => true

theorem apart_of_isApart (s : Run) (n : ℕ) (h : isApart s n = true) : Apart calls s n := by
  intro c p r _ hp hr m c' p' hm _ hp'
  have hlt : m < 3 := (List.getElem?_eq_some_iff.1 hm).1
  simp only [isApart, hp, hr, Option.all_some, List.all_eq_true] at h
  have hout := h m (List.mem_range.2 hlt)
  rw [hp'] at hout
  simpa using hout

end SampleCalls

open SampleCalls

/-- **A lost handler.**  Both calls return, and only the second socket is found. -/
theorem lostHandler : ∃ s, (system calls).Reaches (Apart calls) (Routine.start fun _ => {}) s ∧
    s.progress 0 = .ended (.ok none) ∧ s.progress 1 = .ended (.ok none) ∧ ¬ Found s "APP-5" 1 ∧
    Found s "APP-5" 2 ∧ Safe calls s := by
  have hrun : (((system calls).runIf isApart (Routine.start fun _ => {}) together).map fun s =>
      (view s "APP-5", s.progress 0, s.progress 1)) =
      some (some [2], .ended (.ok none), .ended (.ok none)) := by decide +kernel
  obtain ⟨s, hs, hend⟩ := Option.map_eq_some_iff.1 hrun
  obtain ⟨hview, hfirst, hsecond⟩ : view s "APP-5" = some [2] ∧ _ ∧ _ := by simpa using hend
  have hreach : (system calls).Reaches (Apart calls) (Routine.start fun _ => {}) s :=
    System.reaches_of_runIf apart_of_isApart hs
  refine ⟨s, hreach, hfirst, hsecond, ?_, ?_, safe_of_reaches hreach⟩
  · simp [Found, hview]
  · simp [Found, hview]

/-! ### Calls that are alone with their users -/

/-- Calls of the operations on `UserMap`, one after the other, with what they return. -/
inductive Sequential (calls : List Call) (map : UserMap) : List (ℕ × Result) → UserMap → Prop
  | nil : Sequential calls map [] map
  | snoc {l : List (ℕ × Result)} {t : UserMap} {n : ℕ} {c : Call} : Sequential calls map l t →
      calls[n]? = some c → Sequential calls map (l ++ [(n, .ok (c.result t))]) (c.run t)

section

variable {calls : List Call} {e e' : Entry} {r : Result} {u : String} {i : ℤ}

open Routine (runs_of_next_inl runs_of_next_inr)

theorem runs_addUser (hruns : (Call.addUser u i).routine.Runs (.containsKey i) e r e') :
    r = .ok none ∧ e'.value = some (e.value.getD [] ++ [i]) := by
  -- the accesses once the list is there
  have hlast : ∀ e₁ : Entry, ∀ list, e₁.current = some list →
      (Call.addUser u i).routine.Runs (.get i) e₁ r e' →
      r = .ok none ∧ e'.value = some (e₁.handlers list ++ [i]) := by
    intro e₁ list hlist hruns
    have hget : (Call.addUser u i).routine.next (.get i) e₁ = (.inl (.add i list), e₁) := by
      simp [Call.routine, next, hlist]
    rw [runs_of_next_inl hget, runs_of_next_inl rfl, runs_of_next_inr rfl] at hruns
    obtain ⟨rfl, rfl⟩ := hruns
    refine ⟨rfl, ?_⟩
    have hcurrent : (e₁.change list (· ++ [i])).current = some list := hlist
    rw [Entry.value, hcurrent, Option.map_some, handlers_change_self _ (e₁.current_lt list hlist)]
  cases hc : e.current with
  | none =>
    have hkey : (Call.addUser u i).routine.next (.containsKey i) e = (.inl (.put i), e) := by
      simp [Call.routine, next, hc]
    rw [runs_of_next_inl hkey, runs_of_next_inl rfl] at hruns
    have hnew : e.put.handlers e.lists.length = [] :=
      (handlers_put e _).trans (handlers_of_le le_rfl)
    simpa [Entry.value, hc, hnew] using hlast e.put _ rfl hruns
  | some list =>
    have hkey : (Call.addUser u i).routine.next (.containsKey i) e = (.inl (.get i), e) := by
      simp [Call.routine, next, hc]
    rw [runs_of_next_inl hkey] at hruns
    simpa [Entry.value, hc] using hlast e list hc hruns

theorem runs_removeUser (hruns : (Call.removeUser u i).routine.Runs (.getList i) e r e') :
    r = .ok none ∧ e'.value = e.value.bind fun handlers =>
      let rest := handlers.filter fun j => j ≠ i
      if rest.isEmpty then none else some rest := by
  cases hc : e.current with
  | none =>
    have hget : (Call.removeUser u i).routine.next (.getList i) e = (.inr (.ok none), e) := by
      simp [Call.routine, next, hc]
    obtain ⟨rfl, rfl⟩ := (runs_of_next_inr hget).1 hruns
    simp [Entry.value, hc]
  | some list =>
    have hget : (Call.removeUser u i).routine.next (.getList i) e = (.inl (.removeIf i list), e) := by
      simp [Call.routine, next, hc]
    rw [runs_of_next_inl hget, runs_of_next_inl rfl, runs_of_next_inl rfl] at hruns
    have hrest : (e.change list (·.filter (· ≠ i))).handlers list =
        (e.handlers list).filter (· ≠ i) := handlers_change_self _ (e.current_lt list hc)
    by_cases hempty : ((e.handlers list).filter (· ≠ i)).isEmpty = true
    · have hnext : (Call.removeUser u i).routine.next (.isEmpty i list)
          (e.change list (·.filter (· ≠ i))) =
          (.inl (.remove i), e.change list (·.filter (· ≠ i))) := by
        simp only [Call.routine, next, hrest, if_pos hempty]
      rw [runs_of_next_inl hnext, runs_of_next_inr rfl] at hruns
      obtain ⟨rfl, rfl⟩ := hruns
      refine ⟨rfl, ?_⟩
      simp only [Entry.value, Entry.remove, hc, Option.map_none, Option.map_some, Option.bind_some,
        if_pos hempty]
    · have hnext : (Call.removeUser u i).routine.next (.isEmpty i list)
          (e.change list (·.filter (· ≠ i))) =
          (.inr (.ok none), e.change list (·.filter (· ≠ i))) := by
        simp only [Call.routine, next, hrest, if_neg hempty]
      obtain ⟨rfl, rfl⟩ := (runs_of_next_inr hnext).1 hruns
      refine ⟨rfl, ?_⟩
      have hcurrent : (e.change list (·.filter (· ≠ i))).current = some list := hc
      rw [Entry.value, hcurrent, Option.map_some, hrest]
      simp only [Entry.value, hc, Option.map_some, Option.bind_some, if_neg hempty]

theorem runs_getUser {i : Option ℤ} (hruns : (Call.getUser u i).routine.Runs (.getOrDefault i) e r e') :
    r = .ok ((e.value.getD []).find? fun j => some j = i) ∧ e' = e := by
  cases hc : e.current with
  | none =>
    have hget : (Call.getUser u i).routine.next (.getOrDefault i) e = (.inr (.ok none), e) := by
      simp [Call.routine, next, hc]
    obtain ⟨rfl, rfl⟩ := (runs_of_next_inr hget).1 hruns
    simp [Entry.value, hc]
  | some list =>
    have hget : (Call.getUser u i).routine.next (.getOrDefault i) e = (.inl (.findFirst i list), e) := by
      simp [Call.routine, next, hc]
    rw [runs_of_next_inl hget, runs_of_next_inl rfl, runs_of_next_inr rfl] at hruns
    simpa [Entry.value, hc] using hruns

/-- **A call alone** does what the operation on the map does. -/
theorem run_of_runs (map : UserMap) {c : Call} (hmap : map c.userId = e.value)
    (hruns : c.routine.Runs c.routine.first e r e') :
    r = .ok (c.result map) ∧ c.run map = Function.update map c.userId e'.value := by
  cases c with
  | addUser u i =>
    obtain ⟨rfl, hvalue⟩ := runs_addUser hruns
    refine ⟨rfl, funext fun v => ?_⟩
    have hu : map u = e.value := hmap
    by_cases hv : v = u
    · subst hv
      simp [Call.run, UserMap.addUser, Call.userId, hvalue, hu]
    · simp [Call.run, UserMap.addUser, Call.userId, hv]
  | removeUser u i =>
    obtain ⟨rfl, hvalue⟩ := runs_removeUser hruns
    refine ⟨rfl, funext fun v => ?_⟩
    have hu : map u = e.value := hmap
    by_cases hv : v = u
    · subst hv
      simp [Call.run, UserMap.removeUser, Call.userId, hvalue, hu]
    · simp [Call.run, UserMap.removeUser, Call.userId, hv]
  | getUser u i =>
    obtain ⟨rfl, rfl⟩ := runs_getUser hruns
    have hu : map u = e'.value := hmap
    refine ⟨by simp [Call.result, UserMap.getUser, hu], funext fun v => ?_⟩
    by_cases hv : v = u
    · subst hv
      simp [Call.run, Call.userId, hu]
    · simp [Call.run, Call.userId, hv]

theorem sequential_of_serial {store t : String → Entry} {l : List (ℕ × Result)}
    (h : Routine.Serial (calls.map Call.routine) store l t) :
    Sequential calls (fun u => (store u).value) l fun u => (t u).value := by
  induction h with
  | nil => exact .nil
  | @snoc l t n c' r e' _ hc' hruns ih =>
    rw [List.getElem?_map] at hc'
    obtain ⟨c, hc, rfl⟩ := Option.map_eq_some_iff.1 hc'
    obtain ⟨rfl, hrun⟩ := run_of_runs (fun u => (t u).value) rfl hruns
    have hmap : (fun u => (Function.update t c.routine.key e' u).value) =
        c.run fun u => (t u).value := by
      rw [hrun]
      funext v
      by_cases hv : v = c.userId
      · subst hv
        rw [Function.update_self]
        exact congrArg Entry.value (Function.update_self ..)
      · rw [Function.update_of_ne hv]
        exact congrArg Entry.value (Function.update_of_ne hv ..)
    rw [hmap]
    exact ih.snoc hc

/-- **Calls that are alone with their users** do what the operations on `UserMap` do, one after the
other in the order in which they end; where no call is under way, that is what is found. -/
theorem sequential_of_alone {store : String → Entry} {l : List (System.Step Run ℕ)} {s : Run}
    (h : (system calls).Path (Routine.Alone (calls.map Call.routine)) (Routine.start store) l s) :
    ∃ map, Sequential calls (fun u => (store u).value) (Routine.ends l) map ∧
      (∀ n r, (n, r) ∈ Routine.ends l ↔ s.progress n = .ended r) ∧
      ((Routine.ends l).map Prod.fst).Nodup ∧
      ∀ u, (∀ n c p, calls[n]? = some c → c.userId = u → s.progress n ≠ .running p) →
        view s u = map u := by
  obtain ⟨t, hserial, hended, hnodup, hsettled⟩ := Routine.exists_serial h
  refine ⟨_, sequential_of_serial hserial, hended, hnodup, fun u hu => ?_⟩
  refine congrArg Entry.value (hsettled u fun n c' p hc' hkey => ?_)
  rw [List.getElem?_map] at hc'
  obtain ⟨c, hc, rfl⟩ := Option.map_eq_some_iff.1 hc'
  exact hu n c p hc hkey

end

/-- Whether a call is under way. -/
def SampleCalls.isRunning (s : Run) (n : ℕ) : Bool :=
  match s.progress n with
  | .running _ => true
  | _ => false

/-- Whether a call goes on, or begins when none is under way. -/
def SampleCalls.isAlone (s : Run) (n : ℕ) : Bool :=
  isRunning s n || (List.range 3).all fun m => !isRunning s m

theorem SampleCalls.alone_of_isAlone (s : Run) (n : ℕ) (h : isAlone s n = true) :
    Routine.Alone (calls.map Call.routine) s n := by
  intro hidle c m c' p _ hm _ hrunning
  have hnot : isRunning s n = false := by simp [isRunning, hidle]
  rw [isAlone, hnot, Bool.false_or, List.all_eq_true] at h
  have hlt : m < 3 := by
    have hlen := (List.getElem?_eq_some_iff.1 hm).1
    simpa [calls] using hlen
  have hfree := h m (List.mem_range.2 hlt)
  simp [isRunning, hrunning] at hfree

/-- One call after the other. -/
theorem sequential_inTurn : ∃ l s, (system calls).Path (Routine.Alone (calls.map Call.routine))
    (Routine.start fun _ => {}) l s ∧ l.map System.Step.event = [0, 0, 0, 0, 0, 1, 1, 1, 1, 2, 2, 2, 2] ∧
    view s "APP-5" = some [2] ∧
    ∃ map, Sequential calls (fun _ => none) (Routine.ends l) map ∧
      (∀ n r, (n, r) ∈ Routine.ends l ↔ s.progress n = .ended r) ∧
      ((Routine.ends l).map Prod.fst).Nodup ∧
      ∀ u, (∀ n c p, calls[n]? = some c → c.userId = u → s.progress n ≠ .running p) →
        view s u = map u := by
  have hrun : (((system calls).runIf isAlone (Routine.start fun _ => {})
      [0, 0, 0, 0, 0, 1, 1, 1, 1, 2, 2, 2, 2]).map fun s => view s "APP-5") = some (some [2]) := by
    decide +kernel
  obtain ⟨s, hs, hview⟩ := Option.map_eq_some_iff.1 hrun
  obtain ⟨l, hpath, hevents⟩ := System.exists_path_of_runIf alone_of_isAlone hs
  exact ⟨l, s, hpath, hevents, hview, sequential_of_alone hpath⟩

end Linker.Connector.NetworkUserService
