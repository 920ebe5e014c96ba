import Linker.Common.Text
import Linker.Common.Tokens

/-!
# The spelling of names

A user id is documented as an app name, a `-` and digits.  `NameRecord.parse` splits at `-`, where
separators at the ends and in a row do not count, and reads the second part as `Long.parseLong` does,
which takes a `+` and every decimal digit of Unicode.

## Main definitions

* `NameRecord.Documented` : the documented form.
* `NameRecord.Variant` : an app name and a number that are spelled in another way.
* `NameRecord.Conforms` : a string is read as documented.

## Main results

* `NameRecord.parse_eq_some` : which strings are read as an app name and a number.
* `NameRecord.conforms_iff` : all strings but the variants are read as documented.
-/

namespace Linker

theorem toList_inj {s t : String} : s.toList = t.toList ↔ s = t := String.toList_inj

theorem split_eq_tokens (s : String) : split s = (tokens '-' s.toList).map String.ofList := rfl

/-- The strings with two tokens. -/
theorem split_eq_pair {s a b : String} : split s = [a, b] ↔ IsToken '-' a.toList ∧
    IsToken '-' b.toList ∧ ∃ i j k, s.toList = List.replicate i '-' ++ a.toList ++
      List.replicate (j + 1) '-' ++ b.toList ++ List.replicate k '-' := by
  rw [← tokens_eq_pair, split_eq_tokens]
  refine ⟨fun h => ?_, fun h => by rw [h]; simp⟩
  rcases htok : tokens '-' s.toList with _ | ⟨x, _ | ⟨y, _ | ⟨z, ts⟩⟩⟩
  · rw [htok] at h
    cases h
  · rw [htok] at h
    cases h
  · rw [htok] at h
    obtain ⟨rfl, rfl⟩ : String.ofList x = a ∧ String.ofList y = b := by simpa using h
    simp
  · rw [htok] at h
    cases h

theorem split_eq_singleton {s a : String} : split s = [a] ↔ IsToken '-' a.toList ∧
    ∃ i k, s.toList = List.replicate i '-' ++ a.toList ++ List.replicate k '-' := by
  rw [← tokens_eq_singleton, split_eq_tokens]
  refine ⟨fun h => ?_, fun h => by rw [h]; simp⟩
  rcases htok : tokens '-' s.toList with _ | ⟨x, _ | ⟨y, ts⟩⟩
  · rw [htok] at h
    cases h
  · rw [htok] at h
    obtain rfl : String.ofList x = a := by simpa using h
    simp
  · rw [htok] at h
    cases h

theorem split_append (s t : String) : split (s ++ "-" ++ t) = split s ++ split t := by
  have hlist : (s ++ "-" ++ t).toList = s.toList ++ '-' :: t.toList := by
    simp [String.toList_append]
  rw [split_eq_tokens, hlist, tokens_append_cons, List.map_append]
  rfl

section

variable [JavaChar]

/-- Digits are read as their value, within the bounds of `Long`. -/
theorem parseLong_of_isDigit {s : String} (hne : s.toList ≠ []) (h : ∀ c ∈ s.toList, c.isDigit = true) :
    parseLong s = if (Nat.ofDigitChars 10 s.toList 0 : ℤ) ≤ longMax then
      some (Nat.ofDigitChars 10 s.toList 0 : ℤ) else none := by
  have hread := readDigits_of_isDigit h 0
  rcases hs : s.toList with _ | ⟨c, cs⟩
  · exact absurd hs hne
  rw [hs] at h hread
  have hminus : c ≠ '-' := fun heq => absurd (h c List.mem_cons_self) (by rw [heq]; decide)
  have hplus : c ≠ '+' := fun heq => absurd (h c List.mem_cons_self) (by rw [heq]; decide)
  unfold parseLong
  rw [hs]
  split
  · next heq => cases heq
  · next heq => exact absurd (List.cons.inj heq).1 hminus
  · next heq => exact absurd (List.cons.inj heq).1 hplus
  · rw [hread, Option.bind_some]

/-- A number without a `-` is not negative, and within the bounds of `Long`. -/
theorem parseLong_bounds {s : String} {n : ℤ} (h : parseLong s = some n) (hs : '-' ∉ s.toList) :
    s.toList ≠ [] ∧ 0 ≤ n ∧ n ≤ longMax := by
  unfold parseLong at h
  split at h
  · cases h
  · next cs heq => exact absurd (heq ▸ List.mem_cons_self) hs
  · next cs heq =>
    split_ifs at h
    obtain ⟨k, -, hk⟩ := Option.bind_eq_some_iff.1 h
    split_ifs at hk with hle
    cases hk
    exact ⟨by simp [heq], by omega, hle⟩
  · next hne _ _ =>
    obtain ⟨k, -, hk⟩ := Option.bind_eq_some_iff.1 h
    split_ifs at hk with hle
    cases hk
    exact ⟨hne, by omega, hle⟩

end

namespace NameRecord

/-- An app name, a `-` and the digits of a number of 64 bits. -/
structure Documented (s app : String) (n : ℕ) : Prop where
  notBlank : isBlank (some app) = false
  separator : '-' ∉ app.toList
  digits : ∃ ds : String, s = app ++ "-" ++ ds ∧ ds.toList ≠ [] ∧ (∀ c ∈ ds.toList, c.isDigit = true) ∧
    Nat.ofDigitChars 10 ds.toList 0 = n
  bound : (n : ℤ) ≤ longMax

theorem isToken_of_app {app : String} (happ : isBlank (some app) = false)
    (hsep : '-' ∉ app.toList) : IsToken '-' app.toList := by
  refine ⟨fun h => ?_, hsep⟩
  rw [isBlank, h] at happ
  cases happ

theorem isToken_of_isDigit {ds : List Char} (hne : ds ≠ []) (h : ∀ c ∈ ds, c.isDigit = true) :
    IsToken '-' ds := ⟨hne, fun hmem => absurd (h '-' hmem) (by decide)⟩

variable [JavaChar]

/-- An app name and a number, with separators that do not count, a sign, or digits outside ASCII. -/
def Variant (s : String) : Prop :=
  ∃ (app num : String) (i j k : ℕ), s.toList = List.replicate i '-' ++ app.toList ++
      List.replicate (j + 1) '-' ++ num.toList ++ List.replicate k '-' ∧
    isBlank (some app) = false ∧ '-' ∉ app.toList ∧ '-' ∉ num.toList ∧ (parseLong num).isSome ∧
    (0 < i ∨ 0 < j ∨ 0 < k ∨ ∃ c ∈ num.toList, c.isDigit = false)

theorem parse_eq_of_split {s app : String} {n : ℤ} (happ : isBlank (some app) = false) :
    parse (some s) = ⟨some app, some n⟩ ↔ ∃ num, split s = [app, num] ∧ parseLong num = some n := by
  refine ⟨fun h => ?_, ?_⟩
  · rw [parse] at h
    split_ifs at h
    · cases h
    split at h
    · next a b hsplit =>
      obtain ⟨ha, hnum⟩ := NameRecord.mk.inj h
      cases ha
      exact ⟨b, hsplit, hnum⟩
    · cases h
  · rintro ⟨num, hsplit, hnum⟩
    have hblank : isBlank (some s) = false := by
      obtain ⟨-, -, i, j, k, hs⟩ := split_eq_pair.1 hsplit
      rw [isBlank, List.all_eq_false] at happ ⊢
      obtain ⟨c, hc, hw⟩ := happ
      exact ⟨c, by rw [hs]; simp [hc], hw⟩
    rw [parse]
    simp only [hblank, hsplit, hnum]
    rfl

/-- **What is read** as an app name and a number. -/
theorem parse_eq_some {s app : String} {n : ℤ} (happ : isBlank (some app) = false) :
    parse (some s) = ⟨some app, some n⟩ ↔ ∃ (num : String) (i j k : ℕ), s.toList =
        List.replicate i '-' ++ app.toList ++ List.replicate (j + 1) '-' ++ num.toList ++
          List.replicate k '-' ∧ '-' ∉ app.toList ∧ '-' ∉ num.toList ∧ parseLong num = some n := by
  rw [parse_eq_of_split happ]
  refine ⟨?_, ?_⟩
  · rintro ⟨num, hsplit, hnum⟩
    obtain ⟨htoken, htoken', i, j, k, hs⟩ := split_eq_pair.1 hsplit
    exact ⟨num, i, j, k, hs, htoken.not_mem, htoken'.not_mem, hnum⟩
  · rintro ⟨num, i, j, k, hs, happ', hnum', hnum⟩
    exact ⟨num, split_eq_pair.2 ⟨isToken_of_app happ happ', ⟨(parseLong_bounds hnum hnum').1, hnum'⟩,
      i, j, k, hs⟩, hnum⟩

omit [JavaChar] in
theorem isValid_iff {r : NameRecord} : r.isValid = true ↔
    ∃ app n, r = ⟨some app, some n⟩ ∧ isBlank (some app) = false := by
  obtain ⟨app, number⟩ := r
  rw [isValid, Bool.and_eq_true, Bool.not_eq_true']
  refine ⟨fun ⟨happ, hnum⟩ => ?_, ?_⟩
  · cases app with
    | none => cases happ
    | some app =>
      obtain ⟨n, rfl⟩ := Option.isSome_iff_exists.1 hnum
      exact ⟨app, n, rfl, happ⟩
  · rintro ⟨a, n, h, ha⟩
    cases h
    exact ⟨ha, rfl⟩

/-- What is read of a string: nothing, or an app name and what the second part says. -/
theorem parse_cases (s : String) : parse (some s) = {} ∨
    ∃ app num, split s = [app, num] ∧ parse (some s) = ⟨some app, parseLong num⟩ := by
  rw [parse]
  split_ifs with hblank
  · exact .inl rfl
  split
  · next a n hsplit => exact .inr ⟨a, n, hsplit, rfl⟩
  · exact .inl rfl

/-- A number that is read is not negative. -/
theorem nonneg_of_parse {s : String} {n : ℤ} (h : (parse (some s)).number = some n) : 0 ≤ n := by
  rcases parse_cases s with hnone | ⟨app, num, hsplit, hparse⟩
  · rw [hnone] at h
    cases h
  · rw [hparse] at h
    exact (parseLong_bounds h (split_eq_pair.1 hsplit).2.1.not_mem).2.1

/-- A string of the documented form is read as it is documented. -/
theorem parse_documented {s app : String} {n : ℕ} (h : Documented s app n) :
    parse (some s) = ⟨some app, some (n : ℤ)⟩ := by
  obtain ⟨ds, rfl, hne, hds, hvalue⟩ := h.digits
  refine (parse_eq_some h.notBlank).2
    ⟨ds, 0, 0, 0, ?_, h.separator, (isToken_of_isDigit hne hds).not_mem, ?_⟩
  · simp [String.toList_append]
  · rw [parseLong_of_isDigit hne hds, hvalue, if_pos h.bound]

omit [JavaChar] in
/-- The printed form of an app name and a number is documented. -/
theorem documented_format {app : String} {n : ℕ} (happ : isBlank (some app) = false)
    (hsep : '-' ∉ app.toList) (hn : (n : ℤ) ≤ longMax) : Documented (app ++ "-" ++ toString n) app n where
  notBlank := happ
  separator := hsep
  digits := by
    refine ⟨toString n, rfl, ?_, fun c hc => ?_, ?_⟩
    · rw [Nat.toString_eq_repr, Nat.toList_repr]
      exact Nat.toDigits_ne_nil
    · rw [Nat.toString_eq_repr, Nat.toList_repr] at hc
      exact Nat.isDigit_of_mem_toDigits (by decide) (by decide) hc
    · rw [Nat.toString_eq_repr, Nat.toList_repr, Nat.ofDigitChars_ten_toDigits]
  bound := hn

/-- The string is taken for a name where it has the documented form, and then it is read as that; what is
read is printed as the string again, but for leading zeros. -/
structure Conforms (s : String) : Prop where
  valid : (parse (some s)).isValid = true ↔ ∃ app n, Documented s app n
  record : ∀ app n, Documented s app n → parse (some s) = ⟨some app, some (n : ℤ)⟩
  printed : ∀ app number, isBlank (some app) = false → parse (some s) = ⟨some app, some number⟩ →
    ∃ (zeros n : ℕ), number = n ∧
      s = app ++ "-" ++ String.ofList (List.replicate zeros '0') ++ toString n

/-- A name that is read and is no variant has the documented form. -/
theorem documented_of_parse {s app : String} {number : ℤ} (hs : ¬ Variant s)
    (happ : isBlank (some app) = false) (h : parse (some s) = ⟨some app, some number⟩) :
    ∃ n : ℕ, number = n ∧ Documented s app n := by
  obtain ⟨num, i, j, k, hlist, happ', hnum', hnum⟩ := (parse_eq_some happ).1 h
  obtain ⟨hne, hpos, hle⟩ := parseLong_bounds hnum hnum'
  have hnone : ¬ (0 < i ∨ 0 < j ∨ 0 < k ∨ ∃ c ∈ num.toList, c.isDigit = false) := fun hvar =>
    hs ⟨app, num, i, j, k, hlist, happ, happ', hnum', by rw [hnum]; rfl, hvar⟩
  simp only [not_or, not_lt, Nat.le_zero] at hnone
  obtain ⟨rfl, rfl, rfl, hdigit⟩ := hnone
  have hds : ∀ c ∈ num.toList, c.isDigit = true := fun c hc => by
    by_contra hfalse
    exact hdigit ⟨c, hc, by simpa using hfalse⟩
  rw [parseLong_of_isDigit hne hds] at hnum
  split_ifs at hnum with hbound
  cases hnum
  refine ⟨_, rfl, happ, happ', ⟨num, ?_, hne, hds, rfl⟩, hbound⟩
  rw [← toList_inj, hlist]
  simp [String.toList_append]

/-- **User ids are read as documented**, but for the variants. -/
theorem conforms_iff (s : String) : Conforms s ↔ ¬ Variant s := by
  refine ⟨fun h hvar => ?_, fun hs => ⟨⟨fun hvalid => ?_, ?_⟩, fun app n => parse_documented, ?_⟩⟩
  · obtain ⟨app, num, i, j, k, hlist, happ, happ', hnum', hsome, hvar⟩ := hvar
    obtain ⟨n, hnum⟩ := Option.isSome_iff_exists.1 hsome
    have hparse : parse (some s) = ⟨some app, some n⟩ :=
      (parse_eq_some happ).2 ⟨num, i, j, k, hlist, happ', hnum', hnum⟩
    obtain ⟨app', n', hdoc⟩ := h.valid.1 (isValid_iff.2 ⟨app, n, hparse, happ⟩)
    obtain ⟨ds, rfl, hne, hds, -⟩ := hdoc.digits
    -- the two ways to split the string are the same
    have hsplit : split (app' ++ "-" ++ ds) = [app, num] := split_eq_pair.2
      ⟨isToken_of_app happ happ', ⟨(parseLong_bounds hnum hnum').1, hnum'⟩, i, j, k, hlist⟩
    have hsplit' : split (app' ++ "-" ++ ds) = [app', ds] := split_eq_pair.2
      ⟨isToken_of_app hdoc.notBlank hdoc.separator, isToken_of_isDigit hne hds, 0, 0, 0, by
        simp [String.toList_append]⟩
    obtain ⟨rfl, rfl⟩ : app = app' ∧ num = ds := by simpa using hsplit.symm.trans hsplit'
    have hlength := congrArg List.length hlist
    simp only [String.toList_append, List.length_append, List.length_replicate] at hlength
    have hdash : "-".toList.length = 1 := rfl
    rcases hvar with hi | hj | hk | ⟨c, hc, hfalse⟩
    · omega
    · omega
    · omega
    · exact Bool.noConfusion (hfalse.symm.trans (hds c hc))
  · obtain ⟨app, n, hparse, happ⟩ := isValid_iff.1 hvalid
    obtain ⟨n, -, hdoc⟩ := documented_of_parse hs happ hparse
    exact ⟨app, n, hdoc⟩
  · rintro ⟨app, n, hdoc⟩
    exact isValid_iff.2 ⟨app, n, parse_documented hdoc, hdoc.notBlank⟩
  · intro app number happ hparse
    obtain ⟨n, rfl, hdoc⟩ := documented_of_parse hs happ hparse
    obtain ⟨ds, rfl, hne, hds, rfl⟩ := hdoc.digits
    obtain ⟨zeros, hzeros⟩ := exists_zeros hne hds
    refine ⟨zeros, _, rfl, ?_⟩
    rw [← toList_inj]
    simp only [String.toList_append, String.toList_ofList, Nat.toString_eq_repr, Nat.toList_repr,
      List.append_assoc]
    rw [← hzeros]

end NameRecord

/-! ### Another spelling -/

section

attribute [local instance] JavaChar.ascii

namespace NameRecord

/-- With two separators and a sign the user `ANZ-5` is spelled in another way. -/
theorem not_conforms_signed : (parse (some "ANZ--+5")) = ⟨some "ANZ", some 5⟩ ∧ ¬ Conforms "ANZ--+5" := by
  have hparse : parse (some "ANZ--+5") = ⟨some "ANZ", some 5⟩ := by decide +kernel
  refine ⟨hparse, fun h => ?_⟩
  obtain ⟨app, n, hdoc⟩ := h.valid.1 (by rw [hparse]; decide)
  cases hparse.symm.trans (h.record app n hdoc)
  obtain ⟨ds, hds, -, hdigits, -⟩ := hdoc.digits
  have hlist : ("ANZ--+5".toList).drop 4 = ds.toList := by
    rw [hds, String.toList_append, String.toList_append]
    rfl
  exact absurd (hdigits '-' (hlist ▸ by decide)) (by decide)

end NameRecord

end

end Linker
