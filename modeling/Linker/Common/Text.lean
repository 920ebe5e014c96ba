import Mathlib.Algebra.Ring.Int.Defs
import Mathlib.Algebra.Ring.Nat
import Mathlib.Data.Int.Notation
import Mathlib.Data.List.Basic
import Mathlib.Tactic.SplitIfs

/-!
# Strings as the Java code reads them

A `String` reference may be null, so a Java string is an `Option String` here.  This file has the
functions of `StringUtils` and `Long` that the services use, and `NameRecord`.

* `isBlank`, `isEmpty`, `equalsIgnoreCase`, `startsWithIgnoreCase`, `split` : as in commons-lang3.
* `parseLong` : `Long.parseLong`, `none` where it throws.
* `NameRecord.parse` : a name of the form `appName-number`.

What Java reads off the Unicode tables is the parameter `JavaChar`, fixed on ASCII.
-/

namespace Linker

/-- What the code needs of `java.lang.Character`: the folding behind the `IgnoreCase` comparisons
and the value of a decimal digit.  Both are read off the Unicode tables, which ASCII fixes here. -/
class JavaChar where
  /-- `Character.toLowerCase(Character.toUpperCase(c))`. -/
  fold : Char → Char
  /-- `Character.digit(c, 10)`, `none` where it is `-1`. -/
  digit : Char → Option ℕ
  fold_ascii : ∀ c, c.toNat < 128 → fold c = c.toLower
  digit_ascii : ∀ c, c.toNat < 128 →
    digit c = if c.isDigit then some (c.toNat - '0'.toNat) else none
  digit_lt : ∀ c n, digit c = some n → n < 10

/-- The tables cut down to ASCII. -/
abbrev JavaChar.ascii : JavaChar where
  fold := Char.toLower
  digit c := if c.isDigit then some (c.toNat - '0'.toNat) else none
  fold_ascii _ _ := rfl
  digit_ascii _ _ := rfl
  digit_lt c n h := by
    split_ifs at h with hd
    simp only [Char.isDigit, Bool.and_eq_true, decide_eq_true_eq] at hd
    cases h
    have h₁ := UInt32.le_iff_toNat_le.1 hd.1
    have h₂ := UInt32.le_iff_toNat_le.1 hd.2
    simp only [Char.toNat] at *
    simp at h₁ h₂ ⊢
    omega

/-- `Character.isWhitespace`. -/
def isWhitespace (c : Char) : Bool :=
  let n := c.toNat
  (9 ≤ n && n ≤ 13) || (28 ≤ n && n ≤ 32) || n == 0x1680 || n == 0x180E ||
    (0x2000 ≤ n && n ≤ 0x2006) || (0x2008 ≤ n && n ≤ 0x200A) || n == 0x2028 || n == 0x2029 ||
    n == 0x205F || n == 0x3000

/-- `StringUtils.isBlank`. -/
def isBlank : Option String → Bool
  | none => true
  | some s => s.toList.all isWhitespace

/-- `StringUtils.isEmpty`. -/
def isEmpty : Option String → Bool
  | none => true
  | some s => s.toList.isEmpty

section

variable [JavaChar]

/-- The characters of a string, folded for comparison. -/
def folded (s : String) : List Char := s.toList.map JavaChar.fold

/-- `StringUtils.equalsIgnoreCase`. -/
def equalsIgnoreCase : Option String → Option String → Bool
  | none, none => true
  | some a, some b => folded a == folded b
  | _, _ => false

/-- `StringUtils.startsWithIgnoreCase`. -/
def startsWithIgnoreCase : Option String → Option String → Bool
  | none, none => true
  | some s, some p => (folded p).isPrefixOf (folded s)
  | _, _ => false

theorem equalsIgnoreCase_refl (a : Option String) : equalsIgnoreCase a a = true := by
  cases a <;> simp [equalsIgnoreCase]

end

/-- `StringUtils.split(s, "-")`: the longest runs of characters other than the separator. -/
def split (s : String) : List String :=
  ((s.toList.splitOn '-').filter fun t => !t.isEmpty).map String.ofList

/-- The bounds of `Long`. -/
def longMax : ℤ := 2 ^ 63 - 1

/-- The digits of a number, most significant first; `none` at a character that is no digit. -/
def readDigits [JavaChar] : List Char → ℕ → Option ℕ
  | [], n => some n
  | c :: cs, n => (JavaChar.digit c).bind fun d => readDigits cs (10 * n + d)

/-- `Long.parseLong`, `none` where it throws a `NumberFormatException`. -/
def parseLong [JavaChar] (s : String) : Option ℤ :=
  match s.toList with
  | [] => none
  | '-' :: cs =>
    if cs.isEmpty then none
    else (readDigits cs 0).bind fun n => if (n : ℤ) ≤ longMax + 1 then some (-n) else none
  | '+' :: cs =>
    if cs.isEmpty then none
    else (readDigits cs 0).bind fun n => if (n : ℤ) ≤ longMax then some n else none
  | cs => (readDigits cs 0).bind fun n => if (n : ℤ) ≤ longMax then some n else none

theorem readDigits_of_isDigit [JavaChar] {cs : List Char} (h : ∀ c ∈ cs, c.isDigit = true) (n : ℕ) :
    readDigits cs n = some (Nat.ofDigitChars 10 cs n) := by
  induction cs generalizing n with
  | nil => simp [readDigits]
  | cons c cs ih =>
    have hc : c.isDigit = true := h c List.mem_cons_self
    have hascii : c.toNat < 128 := by
      have h₂ : c.toNat ≤ '9'.toNat := (Char.isDigit_iff_toNat.1 hc).2
      have h₉ : '9'.toNat < 128 := by decide
      omega
    have hdigit : JavaChar.digit c = some (c.toNat - '0'.toNat) := by
      rw [JavaChar.digit_ascii c hascii, if_pos hc]
    rw [readDigits, hdigit, Option.bind_some, Nat.ofDigitChars_cons]
    exact ih (fun d hd => h d (List.mem_cons_of_mem c hd)) _

theorem readDigits_repr [JavaChar] (n : ℕ) : readDigits n.repr.toList 0 = some n := by
  rw [Nat.toList_repr, readDigits_of_isDigit, Nat.ofDigitChars_ten_toDigits]
  exact fun c hc => Nat.isDigit_of_mem_toDigits (by decide) (by decide) hc

/-- What `Long.parseLong` reads from a printed number is that number. -/
theorem parseLong_toString [JavaChar] {i k : ℤ} (h : parseLong (toString i) = some k) : k = i := by
  rw [Int.toString_eq_repr, Int.repr_eq_if] at h
  split_ifs at h with hi
  · have hread := readDigits_repr i.toNat
    have hall : ∀ c ∈ i.toNat.repr.toList, c.isDigit = true := fun c hc =>
      Nat.isDigit_of_mem_toDigits (by decide) (by decide) (Nat.toList_repr ▸ hc)
    unfold parseLong at h
    split at h
    · cases h
    · next cs hcs => exact absurd (hall '-' (by simp [hcs])) (by decide)
    · next cs hcs => exact absurd (hall '+' (by simp [hcs])) (by decide)
    · rw [hread, Option.bind_some] at h
      split_ifs at h
      cases h
      omega
  · have hread := readDigits_repr (-i).toNat
    have hlist : ("-" ++ (-i).toNat.repr).toList = '-' :: (-i).toNat.repr.toList := by
      rw [String.toList_append]; rfl
    unfold parseLong at h
    rw [hlist] at h
    simp only [hread, Option.bind_some] at h
    split_ifs at h
    cases h
    omega

/-- How a reference is printed in a string concatenation. -/
def orNull (s : Option String) : String := s.getD "null"

/-- A name split into its application part and its number. -/
structure NameRecord where
  appName : Option String := none
  number : Option ℤ := none
  deriving DecidableEq, Repr

namespace NameRecord

variable [JavaChar]

def isValid (r : NameRecord) : Bool := !isBlank r.appName && r.number.isSome

def parse (name : Option String) : NameRecord :=
  match name with
  | none => {}
  | some s =>
    if isBlank (some s) then {}
    else match split s with
      | [a, n] => { appName := some a, number := parseLong n }
      | _ => {}

end NameRecord

end Linker
