import Linker.Common.Names
import Linker.Connector.Identity
import Linker.Processor.DomainGraphService
import Linker.Processor.Fetching

/-!
# The user ids of domains

A message for another domain is put out for the user id of the next domain, under which that domain's
tunnel has signed in.  The id is made of the parts of the domain name, as `NameRecord.parse` reads them,
without the separator: names that are read alike have one id, and so have names in which the first digits
of the number have moved to the app name.

## Main definitions

* `Confusable` : two domain names that have one id.
* `Apart` : what is put out for the one domain does not get to the other.

## Main result

* `apart_iff` : the neighbours with distinct ids.
-/

namespace Linker

open Processor ProcessorUtils NameRecord

section

variable [JavaChar]

/-- What of a domain name is in its user id. -/
def nameText (r : NameRecord) : String := orNull r.appName ++ orNull (r.number.map toString)

omit [JavaChar] in
theorem toList_toString {n : ℤ} (h : 0 ≤ n) : (toString n).toList = Nat.toDigits 10 n.toNat := by
  rw [Int.toString_eq_repr, Int.repr_eq_if, if_pos h, Nat.toList_repr]

omit [JavaChar] in
theorem isDigit_toString {n : ℤ} (h : 0 ≤ n) {c : Char} (hc : c ∈ (toString n).toList) :
    c.isDigit = true := by
  rw [toList_toString h] at hc
  exact Nat.isDigit_of_mem_toDigits (by decide) (by decide) hc

omit [JavaChar] in
theorem toString_inj {n n' : ℤ} (h : 0 ≤ n) (h' : 0 ≤ n') (heq : toString n = toString n') : n = n' := by
  have hlist : Nat.toDigits 10 n.toNat = Nat.toDigits 10 n'.toNat := by
    rw [← toList_toString h, ← toList_toString h', heq]
  have hvalue := congrArg (fun l => Nat.ofDigitChars 10 l 0) hlist
  simp only [Nat.ofDigitChars_ten_toDigits] at hvalue
  omega

/-- The parts of the name are read alike. -/
def ReadAlike (a b : String) : Prop :=
  orNull (parse (some a)).appName = orNull (parse (some b)).appName ∧
    (parse (some a)).number = (parse (some b)).number

/-- The app name of `b` is that of `a` with the first digits of its number. -/
def Shifts (a b : String) : Prop :=
  ∃ app x n n', parse (some a) = ⟨some app, some n⟩ ∧ parse (some b) = ⟨some (app ++ x), some n'⟩ ∧
    x ≠ "" ∧ toString n = x ++ toString n'

/-- Two names that make one user id. -/
def Confusable (a b : String) : Prop := ReadAlike a b ∨ Shifts a b ∨ Shifts b a

/-- How the number of a name is printed. -/
theorem orNull_number (s : String) : ((parse (some s)).number = none ∧
      orNull ((parse (some s)).number.map toString) = "null") ∨
    ∃ app n, parse (some s) = ⟨some app, some n⟩ ∧ 0 ≤ n ∧
      orNull ((parse (some s)).number.map toString) = toString n := by
  rcases hnum : (parse (some s)).number with _ | n
  · exact .inl ⟨rfl, rfl⟩
  · have hpos := nonneg_of_parse hnum
    rcases parse_cases s with hnone | ⟨app, num, -, hparse⟩
    · rw [hnone] at hnum
      cases hnum
    · rw [hparse] at hnum
      have hlong : parseLong num = some n := hnum
      exact .inr ⟨app, n, by rw [hparse, hlong], hpos, rfl⟩

/-- A number that is printed with the same characters is the same. -/
theorem number_of_orNull {a b : String} (h : orNull ((parse (some a)).number.map toString) =
    orNull ((parse (some b)).number.map toString)) :
    (parse (some a)).number = (parse (some b)).number := by
  have hletter : ∀ n : ℤ, 0 ≤ n → toString n ≠ "null" := fun n hn heq =>
    absurd (isDigit_toString hn (c := 'n') (by rw [heq]; decide)) (by decide)
  rcases orNull_number a with ⟨hnone, hnull⟩ | ⟨app, n, hparse, hn, htext⟩ <;>
    rcases orNull_number b with ⟨hnone', hnull'⟩ | ⟨app', n', hparse', hn', htext'⟩
  · rw [hnone, hnone']
  · exact absurd ((hnull.symm.trans h).trans htext').symm (hletter n' hn')
  · exact absurd (htext.symm.trans (h.trans hnull')) (hletter n hn)
  · rw [hparse, hparse', toString_inj hn hn' (htext.symm.trans (h.trans htext'))]

/-- Where the app name of the second is longer, it has the first digits of the number of the first. -/
theorem shifts_of_append {a b : String} {x : List Char} (hx : x ≠ [])
    (happ : (orNull (parse (some b)).appName).toList = (orNull (parse (some a)).appName).toList ++ x)
    (hnum : (orNull ((parse (some a)).number.map toString)).toList =
      x ++ (orNull ((parse (some b)).number.map toString)).toList) : Shifts a b := by
  have hnull : "null".toList = ['n', 'u', 'l', 'l'] := rfl
  have hpos := List.length_pos_iff.2 hx
  rcases orNull_number a with ⟨-, htext⟩ | ⟨app, n, hparse, hn, htext⟩ <;>
    rcases orNull_number b with ⟨-, htext'⟩ | ⟨app', n', hparse', hn', htext'⟩
  · -- the letters of `null` are too few
    rw [htext, htext'] at hnum
    have hlen := congrArg List.length hnum
    rw [List.length_append] at hlen
    omega
  · -- the last letter of `null` is no digit
    rw [htext, htext', hnull] at hnum
    have hne : (toString n').toList ≠ [] := by
      rw [toList_toString hn']
      exact Nat.toDigits_ne_nil
    have hlast : (toString n').toList.getLast hne = 'l' := by
      have happend := List.getLast_append_of_ne_nil (List.append_ne_nil_of_right_ne_nil x hne) hne
      rw [← happend]
      simp only [← hnum]
      rfl
    have hdigit := isDigit_toString hn' (List.getLast_mem hne)
    rw [hlast] at hdigit
    exact absurd hdigit (by decide)
  · -- the first letter of `null` is no digit
    rw [htext, htext', hnull] at hnum
    have hdigit := isDigit_toString hn (c := 'n') (by rw [hnum]; simp)
    exact absurd hdigit (by decide)
  · rw [hparse, hparse'] at happ
    rw [htext, htext'] at hnum
    have happ' : app' = app ++ String.ofList x := by
      rw [← toList_inj, String.toList_append, String.toList_ofList]
      exact happ
    refine ⟨app, String.ofList x, n, n', hparse, happ' ▸ hparse', fun h => hx ?_, ?_⟩
    · have hnil := congrArg String.toList h
      rwa [String.toList_ofList] at hnil
    · rw [← toList_inj, String.toList_append, String.toList_ofList]
      exact hnum

theorem Shifts.nameText_eq {a b : String} (h : Shifts a b) :
    nameText (parse (some a)) = nameText (parse (some b)) := by
  obtain ⟨app, x, n, n', hparse, hparse', -, hdigits⟩ := h
  rw [hparse, hparse']
  show app ++ toString n = app ++ x ++ toString n'
  rw [hdigits, String.append_assoc]

/-- **The names with one id** are read alike, or in one of them digits have moved. -/
theorem resolveDomainUserId_eq_iff (a b : String) :
    resolveDomainUserId (some a) = resolveDomainUserId (some b) ↔ Confusable a b := by
  have hid : ∀ s, resolveDomainUserId (some s) = nameText (parse (some s)) ++ "-1" := fun _ => rfl
  have hcancel : resolveDomainUserId (some a) = resolveDomainUserId (some b) ↔
      nameText (parse (some a)) = nameText (parse (some b)) := by
    rw [hid, hid, ← toList_inj, ← toList_inj, String.toList_append, String.toList_append,
      List.append_left_inj]
  rw [hcancel]
  refine ⟨fun h => ?_, ?_⟩
  · rw [← toList_inj, nameText, nameText, String.toList_append, String.toList_append] at h
    rcases List.append_eq_append_iff.1 h with ⟨x, happ, hnum⟩ | ⟨x, happ, hnum⟩
    · by_cases hx : x = []
      · rw [hx, List.append_nil] at happ
        rw [hx, List.nil_append] at hnum
        exact .inl ⟨toList_inj.1 happ.symm, number_of_orNull (toList_inj.1 hnum)⟩
      · exact .inr (.inl (shifts_of_append hx happ hnum))
    · by_cases hx : x = []
      · rw [hx, List.append_nil] at happ
        rw [hx, List.nil_append] at hnum
        exact .inl ⟨toList_inj.1 happ, (number_of_orNull (toList_inj.1 hnum)).symm⟩
      · exact .inr (.inr (shifts_of_append hx happ hnum))
  · rintro (⟨happ, hnum⟩ | hshift | hshift)
    · rw [nameText, nameText, happ, hnum]
    · exact hshift.nameText_eq
    · exact hshift.nameText_eq.symm

/-! ### Neighbours -/

/-- What is put out for the domain `a` is for its user id, which is not that of `b`: no connector finds a
socket of `b` for it, and no request of `b` gets it from the store. -/
structure Apart (a b : String) : Prop where
  ids : resolveDomainUserId (some a) ≠ resolveDomainUserId (some b)
  handed : ∀ (C : Connector.Config) (s₀ s : Connector.State), Connector.Initial s₀ →
    (Connector.system C).Reaches (fun _ _ => True) s₀ s → ∀ socketId i k,
      Connector.UserMap.getUser (resolveDomainUserId (some a)) socketId s.users = some i →
      s.sockets i = some k → k.userId ≠ some (resolveDomainUserId (some b))
  fetched : ∀ (s : Processor.State) count,
    ∀ r ∈ (pageFor s (resolveDomainUserId (some b)) count).content,
      r.to_ ≠ some (resolveDomainUserId (some a))

/-- **Distinct neighbours** are kept apart unless their names are confusable. -/
theorem apart_iff (a b : String) : Apart a b ↔ ¬ Confusable a b := by
  rw [← resolveDomainUserId_eq_iff]
  refine ⟨fun h => h.ids, fun h => ⟨h, ?_, ?_⟩⟩
  · intro C s₀ s h₀ hreach socketId i k hfound hk huser
    have hmem := (Connector.UserMap.getUser_eq_some hfound).2
    obtain ⟨k', hk', huser', -⟩ :=
      (Connector.consistent_of_reaches h₀ hreach).users _ i hmem
    cases hk.symm.trans hk'
    exact h (Option.some.inj (huser'.symm.trans huser))
  · intro s count r hr hto
    have hfound := (MessageRepository.mem_found.1 (List.mem_of_mem_take hr)).2
    simp only [MessageRepository.criteria, Bool.and_eq_true, beq_iff_eq] at hfound
    exact h (Option.some.inj (hto.symm.trans hfound.1.1))

/-- **The neighbours of a graph** have distinct identities where no two of its names are confusable. -/
theorem neighbours_apart_iff (G : DomainGraph) :
    (∀ a ∈ G.names, ∀ b ∈ G.names, a ≠ b → Apart a b) ↔
      ∀ a ∈ G.names, ∀ b ∈ G.names, a ≠ b → ¬ Confusable a b :=
  forall₂_congr fun a _ => forall₂_congr fun b _ => imp_congr_right fun _ => apart_iff a b

end

/-! ### Two domains with one identity -/

section

attribute [local instance] JavaChar.ascii

/-- **Two domains of a graph** have one user id: their names differ in a leading zero. -/
theorem not_neighbours_apart : ¬ ∀ (G : DomainGraph), ∀ a ∈ G.names, ∀ b ∈ G.names, a ≠ b →
    Apart a b := by
  intro h
  have hapart := h ⟨[⟨"domain-1", []⟩, ⟨"domain-01", []⟩], []⟩ "domain-1" (by decide) "domain-01"
    (by decide) (by decide)
  refine hapart.ids ?_
  decide +kernel

end

end Linker
