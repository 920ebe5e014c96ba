import Linker.LTS.Update
import Linker.Processor.Stores
import Mathlib.Data.List.Permutation

/-!
# Concurrent calls of the user registry

`UserChannelService.addAddress` and `removeAddress` read the entry of a user with `findById`, change
the set of addresses they have read, and `save` it or `delete` the entry.  The processors of a domain
share the store and take no lock.

## Main results

* `linearizable_of_apart` : calls leave the registry as they do one after the other, if none of them
  takes up an entry to change it while another is about to write it.
* `lostUpdate` : two users of one name that connect at the same time.
-/

namespace Linker.Processor.UserChannelService

/-- The registry: the addresses of the `UserChannel` of a user. -/
abbrev Channels := String → Option (List Address)

inductive Call where
  | addAddress (userId : String) (address : Option Address)
  | removeAddress (userId : String) (address : Option Address)
  deriving DecidableEq

namespace Call

def userId : Call → String
  | addAddress u _ => u
  | removeAddress u _ => u

/-- The call when it runs alone. -/
def run : Call → Channels → Channels
  | addAddress u a => insert u a
  | removeAddress u a => delete u a

/-- The addresses that are saved over those of the entry read, null where the entry is deleted;
`removeAddress` does nothing where there is no entry. -/
def update : Call → Update String (Option (List Address))
  | addAddress u a =>
    { key := u
      after := fun userChannel =>
        let addresses := userChannel.getD []
        some (some (match a with
          | some a => addresses.insert a
          | none => addresses)) }
  | removeAddress u a =>
    { key := u
      after := fun userChannel => userChannel.map fun addresses =>
        let rest := addresses.filter fun b => some b ≠ a
        if rest.isEmpty then none else some rest }

theorem update_key (c : Call) : c.update.key = c.userId := by
  cases c <;> rfl

/-- The accesses of a call, with nothing in between, are the call. -/
theorem apply_update (c : Call) (channels : Channels) : c.update.apply channels = c.run channels := by
  funext v
  cases c with
  | addAddress u a => rfl
  | removeAddress u a =>
    by_cases hv : v = u
    · subst hv
      simp only [Update.apply, update, run, delete, addressesOf, if_true]
      rcases Option.eq_none_or_eq_some (channels v) with h | ⟨l, h⟩
      · simp [h]
      · simp [h]
    · simp [Update.apply, update, run, delete, hv]

end Call

/-- `addAddress` and `removeAddress` are the calls, run alone. -/
theorem run_addAddress (u : String) (a : Option Address) (m : Message) (s : State) :
    (addAddress (some u) a m).run s =
      (.ok (), { s with channels := (Call.addAddress u a).run s.channels }) :=
  rfl

theorem run_removeAddress (u : String) (a : Option Address) (m : Message) (s : State) :
    (removeAddress (some u) a m).run s =
      (.ok (), { s with channels := (Call.removeAddress u a).run s.channels }) := by
  have hget : (getById (some u) m).run s = (.ok (s.channels u), s) := rfl
  rw [removeAddress, Exec.run_bind_ok hget]
  cases hu : s.channels u with
  | some l => rfl
  | none =>
    have hrun : (Call.removeAddress u a).run s.channels = s.channels := by
      funext v
      by_cases hv : v = u
      · subst hv
        simp [Call.run, delete, addressesOf, hu]
      · simp [Call.run, delete, hv]
    rw [hrun]
    rfl

/-- Calls that run concurrently, each with its two accesses. -/
def system (calls : List Call) : System (Update.State String (Option (List Address))) ℕ :=
  Update.system (calls.map Call.update)

/-- The registry after calls that run one after the other. -/
def sequential (calls : List Call) (channels : Channels) : Channels :=
  calls.foldl (fun channels c => c.run channels) channels

/-- Two registries have the same entries with the same sets of addresses. -/
def Agrees (r r' : Channels) : Prop :=
  ∀ u, ((r u).isSome ↔ (r' u).isSome) ∧ ∀ a, a ∈ addressesOf r u ↔ a ∈ addressesOf r' u

/-- The registry is one to which some sequential execution of the calls leads. -/
def Linearizable (calls : List Call) (channels final : Channels) : Prop :=
  ∃ order, order.Perm calls ∧ Agrees final (sequential order channels)

/-- The calls with the given numbers. -/
theorem sequential_filterMap (calls : List Call) (order : List ℕ) (channels : Channels) :
    Update.sequential (calls.map Call.update) channels order =
      sequential (order.filterMap fun i => calls[i]?) channels := by
  induction order generalizing channels with
  | nil => rfl
  | cons i order ih =>
    have hstep : Update.sequential (calls.map Call.update) channels (i :: order) =
        Update.sequential (calls.map Call.update)
          ((calls[i]?.map fun c => c.run channels).getD channels) order := by
      have hi : (calls.map Call.update)[i]? = calls[i]?.map Call.update := List.getElem?_map
      simp only [Update.sequential, List.foldl_cons, hi]
      cases calls[i]? with
      | none => rfl
      | some c => simp only [Option.map_some, Option.getD_some, Call.apply_update]
    rw [hstep, ih]
    cases hi : calls[i]? with
    | none => simp [hi]
    | some c => simp [hi, sequential]

theorem filterMap_range (calls : List Call) :
    (List.range calls.length).filterMap (fun i => calls[i]?) = calls := by
  have hmap : (List.range calls.length).map (fun i => calls[i]?) = calls.map some := by
    apply List.ext_getElem
    · simp
    · intro i h₁ h₂
      simp only [List.length_map, List.length_range] at h₁
      simp [List.getElem?_eq_getElem h₁]
  calc (List.range calls.length).filterMap (fun i => calls[i]?)
      = ((List.range calls.length).map fun i => calls[i]?).filterMap id := by
        rw [List.filterMap_map]
        rfl
    _ = (calls.map some).filterMap id := by rw [hmap]
    _ = calls := by simp

/-- **The registry is linearizable** when no call takes up an entry to change it while another is
about to write it; the entries of other users are unaffected. -/
theorem linearizable_of_apart {calls : List Call} {channels : Channels}
    {s : Update.State String (Option (List Address))}
    (h : (system calls).Reaches (Update.Apart (calls.map Call.update)) (Update.start channels) s)
    (hdone : ∀ i < calls.length, s.phase i = .done) :
    Linearizable calls channels s.store ∧
      ∀ u, (∀ c ∈ calls, c.userId ≠ u) → s.store u = channels u := by
  constructor
  · obtain ⟨order, hperm, hstore⟩ := Update.exists_order h (by simpa using hdone)
    rw [List.length_map] at hperm
    refine ⟨order.filterMap fun i => calls[i]?, ?_, ?_⟩
    · have hcalls := hperm.filterMap fun i => calls[i]?
      rwa [filterMap_range] at hcalls
    · rw [hstore, sequential_filterMap]
      exact fun u => ⟨Iff.rfl, fun a => Iff.rfl⟩
  · intro u hu
    refine Update.store_of_ne (fun c hc => ?_) h
    obtain ⟨call, hcall, rfl⟩ := List.mem_map.1 hc
    rw [Call.update_key]
    exact hu call hcall

/-! ### Two sockets of one user -/

namespace Sample

def address (i : ℤ) : Address := ⟨some "domain-01", some "connector-01", some i⟩

/-- A user connects on two sockets. -/
def connects : List Call :=
  [.addAddress "APP-5" (some (address 1)), .addAddress "APP-5" (some (address 2))]

end Sample

open Linker.Processor.UserChannelService.Sample

/-- One call after the other. -/
theorem linearizable_inTurn : ∃ s, (system connects).run (Update.start fun _ => none) [0, 0, 1, 1] =
    some s ∧ (s.store "APP-5").map List.length = some 2 ∧
    Linearizable connects (fun _ => none) s.store ∧
    ∀ u, (∀ c ∈ connects, c.userId ≠ u) → s.store u = none := by
  -- an access is apart from the other call if that is not about to write
  have hrun : (((system connects).runIf (fun s i => (s.phase i).isWriting ||
      (List.range 2).all fun j => !(s.phase j).isWriting) (Update.start fun _ => none)
      [0, 0, 1, 1]).map fun s => ((s.store "APP-5").map List.length,
        (List.range 2).all fun i => (s.phase i).isDone)) = some (some 2, true) := by decide +kernel
  obtain ⟨s, hs, hend⟩ := Option.map_eq_some_iff.1 hrun
  obtain ⟨hlen, hdone⟩ := Prod.mk.inj hend
  refine ⟨s, System.run_of_runIf hs, hlen, linearizable_of_apart
    (System.reaches_of_runIf (fun s i htest => ?_) hs) fun i hi => ?_⟩
  · intro c _ hidle _ j c' v hc' _ hj
    have hreading : (s.phase i).isWriting = false := by rw [hidle]; rfl
    rw [hreading, Bool.false_or, List.all_eq_true] at htest
    have hlt : j < 2 := by simpa [connects] using (List.getElem?_eq_some_iff.1 hc').1
    have hfree := htest j (List.mem_range.2 hlt)
    rw [hj] at hfree
    cases hfree
  · have hi' := List.all_eq_true.1 hdone i (List.mem_range.2 (by simpa [connects] using hi))
    exact Update.Phase.isDone_iff.1 hi'

/-- **A lost update.**  Both sockets are read as if the user had none, and the second `save` writes
over the first. -/
theorem lostUpdate : ∃ s, (system connects).Reaches (fun _ _ => True) (Update.start fun _ => none) s ∧
    (∀ i < connects.length, s.phase i = .done) ∧ ¬ Linearizable connects (fun _ => none) s.store := by
  have hrun : (((system connects).run (Update.start fun _ => none) [0, 1, 0, 1]).map fun s =>
      (s.store "APP-5", (List.range 2).all fun i => (s.phase i).isDone)) =
      some (some [address 2], true) := by decide +kernel
  obtain ⟨s, hs, hend⟩ := Option.map_eq_some_iff.1 hrun
  obtain ⟨hstore, hdone⟩ := Prod.mk.inj hend
  refine ⟨s, System.reaches_of_run hs fun _ _ _ => trivial, fun i hi => ?_, ?_⟩
  · have hi' := List.all_eq_true.1 hdone i (List.mem_range.2 (by simpa [connects] using hi))
    exact Update.Phase.isDone_iff.1 hi'
  · rintro ⟨order, hperm, hagrees⟩
    have hfirst : address 1 ∈ addressesOf (sequential order fun _ => none) "APP-5" := by
      have hall : ∀ order ∈ connects.permutations',
          address 1 ∈ addressesOf (sequential order fun _ => none) "APP-5" := by decide +kernel
      exact hall order (List.mem_permutations'.2 hperm)
    have hmem := ((hagrees "APP-5").2 (address 1)).2 hfirst
    rw [addressesOf, hstore] at hmem
    exact absurd hmem (by decide)

end Linker.Processor.UserChannelService
