import Mathlib.Data.List.Basic
import Mathlib.Data.List.Induction

/-!
# Tokens and decimal digits

The tokens of a list are its longest runs without a separator; separators before, between and behind
them do not count.  A list is its first token between separators and a rest that begins with one, and
digits are zeros before the digits that a number is printed with.

* `tokens` : the tokens of a list.
* `tokens_eq_nil`, `tokens_eq_cons` : the lists with no token, and with a first token.
* `exists_zeros` : the spellings of a number.
-/

namespace Linker

section

variable {α : Type*} {d : α} {l a : List α}

/-- A token holds no separator and is not empty. -/
structure IsToken (d : α) (a : List α) : Prop where
  ne_nil : a ≠ []
  not_mem : d ∉ a

/-- A rest that begins with a separator, where there is one. -/
def Separated (d : α) (l : List α) : Prop := l = [] ∨ ∃ l', l = d :: l'

/-- A rest of separators begins with one, where there is one. -/
theorem separated_replicate (n : ℕ) : Separated d (List.replicate n d) := by
  cases n with
  | zero => exact .inl rfl
  | succ n => exact .inr ⟨_, rfl⟩

/-- A list begins with a run without the separator. -/
theorem exists_run (d : α) (l : List α) : ∃ a l', l = a ++ l' ∧ d ∉ a ∧ Separated d l' := by
  induction l with
  | nil => exact ⟨[], [], rfl, List.not_mem_nil, .inl rfl⟩
  | cons c l ih =>
    obtain ⟨a, l', rfl, hmem, hl'⟩ := ih
    by_cases hc : c = d
    · exact ⟨[], c :: (a ++ l'), rfl, List.not_mem_nil, .inr ⟨a ++ l', by rw [hc]⟩⟩
    · refine ⟨c :: a, l', rfl, ?_, hl'⟩
      rw [List.mem_cons, not_or]
      exact ⟨fun h => hc h.symm, hmem⟩

/-- **Every list** consists of separators, or begins with a token behind separators. -/
theorem exists_token (d : α) (l : List α) : (∃ n, l = List.replicate n d) ∨
    ∃ n a l', l = List.replicate n d ++ a ++ l' ∧ IsToken d a ∧ Separated d l' := by
  induction l with
  | nil => exact .inl ⟨0, rfl⟩
  | cons c l ih =>
    by_cases hc : c = d
    · subst hc
      rcases ih with ⟨n, rfl⟩ | ⟨n, a, l', rfl, ha, hl'⟩
      · exact .inl ⟨n + 1, rfl⟩
      · exact .inr ⟨n + 1, a, l', by simp [List.replicate_succ], ha, hl'⟩
    · obtain ⟨a, l', rfl, hmem, hl'⟩ := exists_run d l
      refine .inr ⟨0, c :: a, l', rfl, ⟨by simp, ?_⟩, hl'⟩
      rw [List.mem_cons, not_or]
      exact ⟨fun h => hc h.symm, hmem⟩

variable [BEq α]

/-- The longest runs of elements other than the separator. -/
def tokens (d : α) (l : List α) : List (List α) := (l.splitOn d).filter fun t => !t.isEmpty

@[simp] theorem tokens_nil : tokens d [] = [] := by simp [tokens]

variable [LawfulBEq α]

@[simp] theorem tokens_self_cons : tokens d (d :: l) = tokens d l := by
  have hmem : d ∉ ([] : List α) := List.not_mem_nil
  have h := List.splitOn_append_cons_self_of_not_mem hmem l
  rw [List.nil_append] at h
  simp [tokens, h]

theorem tokens_replicate (n : ℕ) : tokens d (List.replicate n d ++ l) = tokens d l := by
  induction n with
  | zero => rfl
  | succ n ih => rw [List.replicate_succ, List.cons_append, tokens_self_cons, ih]

theorem tokens_append_cons (l l' : List α) : tokens d (l ++ d :: l') = tokens d l ++ tokens d l' := by
  rw [tokens, List.splitOn_append_cons_self, List.filter_append]
  rfl

theorem IsToken.tokens_cons (h : IsToken d a) : tokens d (a ++ d :: l) = a :: tokens d l := by
  have hne : (!a.isEmpty) = true := by simp [h.ne_nil]
  rw [tokens, List.splitOn_append_cons_self_of_not_mem h.not_mem, List.filter_cons, if_pos hne, tokens]

theorem IsToken.tokens_self (h : IsToken d a) : tokens d a = [a] := by
  have hne : (!a.isEmpty) = true := by simp [h.ne_nil]
  rw [tokens, List.splitOn_eq_singleton h.not_mem, List.filter_cons, if_pos hne, List.filter_nil]

theorem IsToken.tokens_append (h : IsToken d a) (hl : Separated d l) :
    tokens d (a ++ l) = a :: tokens d l := by
  rcases hl with rfl | ⟨l', rfl⟩
  · rw [List.append_nil, h.tokens_self, tokens_nil]
  · rw [h.tokens_cons, tokens_self_cons]

theorem tokens_eq_nil : tokens d l = [] ↔ ∃ n, l = List.replicate n d := by
  refine ⟨fun h => ?_, ?_⟩
  · rcases exists_token d l with hsep | ⟨n, a, l', rfl, ha, hl'⟩
    · exact hsep
    · rw [List.append_assoc, tokens_replicate, ha.tokens_append hl'] at h
      cases h
  · rintro ⟨n, rfl⟩
    rw [← List.append_nil (List.replicate n d), tokens_replicate, tokens_nil]

theorem tokens_eq_cons {ts : List (List α)} : tokens d l = a :: ts ↔
    ∃ n l', l = List.replicate n d ++ a ++ l' ∧ IsToken d a ∧ Separated d l' ∧ tokens d l' = ts := by
  refine ⟨fun h => ?_, ?_⟩
  · rcases exists_token d l with hsep | ⟨n, b, l', rfl, hb, hl'⟩
    · rw [tokens_eq_nil.2 hsep] at h
      cases h
    · rw [List.append_assoc, tokens_replicate, hb.tokens_append hl'] at h
      obtain ⟨rfl, hts⟩ := List.cons.inj h
      exact ⟨n, l', rfl, hb, hl', hts⟩
  · rintro ⟨n, l', rfl, ha, hl', rfl⟩
    rw [List.append_assoc, tokens_replicate, ha.tokens_append hl']

/-- **The lists with one token.** -/
theorem tokens_eq_singleton : tokens d l = [a] ↔ IsToken d a ∧
    ∃ i k, l = List.replicate i d ++ a ++ List.replicate k d := by
  rw [tokens_eq_cons]
  refine ⟨?_, ?_⟩
  · rintro ⟨i, l', rfl, ha, -, hl'⟩
    obtain ⟨k, rfl⟩ := tokens_eq_nil.1 hl'
    exact ⟨ha, i, k, rfl⟩
  · rintro ⟨ha, i, k, rfl⟩
    exact ⟨i, _, rfl, ha, separated_replicate k, tokens_eq_nil.2 ⟨k, rfl⟩⟩

/-- **The lists with two tokens.** -/
theorem tokens_eq_pair {b : List α} : tokens d l = [a, b] ↔ IsToken d a ∧ IsToken d b ∧ ∃ i j k,
    l = List.replicate i d ++ a ++ List.replicate (j + 1) d ++ b ++ List.replicate k d := by
  rw [tokens_eq_cons]
  refine ⟨?_, ?_⟩
  · rintro ⟨i, l', rfl, ha, hsep, hl'⟩
    obtain ⟨hb, j, k, rfl⟩ := tokens_eq_singleton.1 hl'
    cases j with
    | zero =>
      -- a token begins with no separator
      rcases hsep with hnil | ⟨l'', hcons⟩
      · exact absurd (List.append_eq_nil_iff.1 hnil).1 hb.ne_nil
      · cases b with
        | nil => exact absurd rfl hb.ne_nil
        | cons c b =>
          cases hcons
          exact absurd List.mem_cons_self hb.not_mem
    | succ j => exact ⟨ha, hb, i, j, k, by simp [List.append_assoc]⟩
  · rintro ⟨ha, hb, i, j, k, rfl⟩
    refine ⟨i, List.replicate (j + 1) d ++ b ++ List.replicate k d, by simp [List.append_assoc], ha,
      .inr ⟨_, rfl⟩, ?_⟩
    exact tokens_eq_singleton.2 ⟨hb, j + 1, k, rfl⟩

end

/-! ### Decimal digits -/

theorem digitChar_of_isDigit {c : Char} (h : c.isDigit = true) :
    Nat.digitChar (c.toNat - '0'.toNat) = c := by
  rw [Char.isDigit_iff_toNat] at h
  obtain ⟨n, hn⟩ : ∃ n, c.toNat = '0'.toNat + n := ⟨c.toNat - '0'.toNat, by omega⟩
  have hlt : n < 10 := by
    have h₉ : '9'.toNat = '0'.toNat + 9 := by decide
    omega
  have hall : ∀ n < 10, (Nat.digitChar n).toNat = '0'.toNat + n := by decide
  rw [hn, Nat.add_sub_cancel_left, ← Char.toNat_inj, hall n hlt, hn]

/-- Digits that do not begin with a zero are those that their number is printed with. -/
theorem toDigits_ofDigitChars {c : Char} {cs : List Char} (hc : c ≠ '0')
    (h : ∀ x ∈ c :: cs, x.isDigit = true) :
    0 < Nat.ofDigitChars 10 (c :: cs) 0 ∧
      Nat.toDigits 10 (Nat.ofDigitChars 10 (c :: cs) 0) = c :: cs := by
  induction cs using List.reverseRecOn with
  | nil =>
    have hdigit := digitChar_of_isDigit (h c List.mem_cons_self)
    have hrange := Char.isDigit_iff_toNat.1 (h c List.mem_cons_self)
    have h₀ : c.toNat ≠ '0'.toNat := fun heq => hc (Char.toNat_inj.1 heq)
    have h₉ : '9'.toNat = '0'.toNat + 9 := by decide
    rw [Nat.ofDigitChars_cons, Nat.ofDigitChars_nil, Nat.mul_zero, Nat.zero_add]
    refine ⟨by omega, ?_⟩
    rw [Nat.toDigits_of_lt_base (by omega), hdigit]
  | append_singleton cs e ih =>
    obtain ⟨hpos, hdigits⟩ := ih fun x hx => h x (by
      rcases List.mem_cons.1 hx with rfl | hx
      · exact List.mem_cons_self
      · exact List.mem_cons_of_mem _ (List.mem_append_left _ hx))
    have he : e.isDigit = true := h e (by simp)
    have hrange := Char.isDigit_iff_toNat.1 he
    have h₉ : '9'.toNat = '0'.toNat + 9 := by decide
    have hlt : e.toNat - '0'.toNat < 10 := by omega
    rw [← List.cons_append, Nat.ofDigitChars_append, Nat.ofDigitChars_cons, Nat.ofDigitChars_nil]
    refine ⟨by omega, ?_⟩
    rw [← Nat.toDigits_append_toDigits (by decide) hpos hlt, hdigits, Nat.toDigits_of_lt_base hlt,
      digitChar_of_isDigit he]

/-- **Digits are zeros before the printed number.** -/
theorem exists_zeros {cs : List Char} (hne : cs ≠ []) (h : ∀ x ∈ cs, x.isDigit = true) :
    ∃ k, cs = List.replicate k '0' ++ Nat.toDigits 10 (Nat.ofDigitChars 10 cs 0) := by
  induction cs with
  | nil => exact absurd rfl hne
  | cons c cs ih =>
    by_cases hc : c = '0'
    · subst hc
      have hvalue : Nat.ofDigitChars 10 ('0' :: cs) 0 = Nat.ofDigitChars 10 cs 0 := by
        rw [Nat.ofDigitChars_cons]
        simp
      cases cs with
      | nil => exact ⟨0, by rw [hvalue]; rfl⟩
      | cons e cs =>
        obtain ⟨k, hk⟩ := ih (by simp) fun x hx => h x (List.mem_cons_of_mem _ hx)
        refine ⟨k + 1, ?_⟩
        rw [hvalue, List.replicate_succ, List.cons_append, ← hk]
    · exact ⟨0, (toDigits_ofDigitChars hc h).2.symm⟩

end Linker
