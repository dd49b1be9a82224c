import CallAtlas.Json.Parser
import CallAtlas.Time.Instant

/-!
# Decimal digits

Numbers are written with `Nat.toDigits`, for JSON and for instants.  Both readers take the longest run
of digits and fold it; here is that the run is the number that was written, and the fold its value.
-/

namespace CallAtlas

/-- No digit stands at the start of the text. -/
def NoDigitFirst (rest : List Char) : Prop := ∀ c ∈ rest.head?, c.isDigit = false

theorem noDigitFirst_nil : NoDigitFirst [] := by
  intro c first
  cases first

theorem noDigitFirst_cons {c : Char} (other : c.isDigit = false) (rest : List Char) :
    NoDigitFirst (c :: rest) := by
  intro d first
  obtain rfl := Option.some.inj first
  exact other

theorem takeWhile_digits {digits rest : List Char} (all : ∀ c ∈ digits, c.isDigit = true)
    (stops : NoDigitFirst rest) : (digits ++ rest).takeWhile Char.isDigit = digits := by
  rw [List.takeWhile_append_of_pos all]
  cases rest with
  | nil => simp
  | cons c rest => simp [stops c rfl]

theorem dropWhile_digits {digits rest : List Char} (all : ∀ c ∈ digits, c.isDigit = true)
    (stops : NoDigitFirst rest) : (digits ++ rest).dropWhile Char.isDigit = rest := by
  rw [List.dropWhile_append_of_pos all]
  cases rest with
  | nil => rfl
  | cons c rest => simp [stops c rfl]

theorem isDigit_of_mem_toDigits {n : Nat} {c : Char} (member : c ∈ Nat.toDigits 10 n) :
    c.isDigit = true :=
  Nat.isDigit_of_mem_toDigits (by decide) (by decide) member

theorem not_isBlank_of_isDigit {c : Char} (digit : c.isDigit = true) : Text.isBlank c = false := by
  simp only [Char.isDigit, Bool.and_eq_true, decide_eq_true_eq, ge_iff_le,
    UInt32.le_iff_toNat_le] at digit
  have low : 48 ≤ c.val.toNat := digit.1
  have high : c.val.toNat ≤ 57 := digit.2
  simp only [Text.isBlank, Char.ext_iff, ← UInt32.toNat_inj, UInt32.le_iff_toNat_le, Bool.or_eq_false_iff,
    Bool.and_eq_false_iff, decide_eq_false_iff_not, UInt32.reduceToNat, Char.reduceVal]
  omega

theorem eq_zero_of_digitChar : ∀ n < 10, n.digitChar = '0' → n = 0 := by decide

/-- Only zero is written with a zero in front. -/
theorem eq_zero_of_head_toDigits (n : Nat) (zeroFirst : (Nat.toDigits 10 n).head? = some '0') :
    n = 0 := by
  -- A number of several digits starts like the number without its last digit.
  induction n using Nat.strongRecOn with
  | ind n inductionHypothesis =>
    by_cases small : n < 10
    · rw [Nat.toDigits_of_lt_base small] at zeroFirst
      exact eq_zero_of_digitChar n small (Option.some.inj zeroFirst)
    · rw [Nat.toDigits_of_base_le (by decide) (Nat.le_of_not_lt small), List.head?_append] at zeroFirst
      cases first : (Nat.toDigits 10 (n / 10)).head? with
      | none => exact absurd (List.head?_eq_none_iff.mp first) Nat.toDigits_ne_nil
      | some c =>
        rw [first, Option.some_or] at zeroFirst
        have := inductionHypothesis (n / 10) (by omega) (first.trans zeroFirst)
        omega

theorem foldl_digits (digits : List Char) :
    digits.foldl (fun n c => n * 10 + (c.toNat - '0'.toNat)) 0 = Nat.ofDigitChars 10 digits 0 := by
  rw [Nat.ofDigitChars_eq_foldl]
  congr
  funext n c
  rw [Nat.mul_comm]

theorem Json.decimalValue_toDigits (n : Nat) : Json.decimalValue (Nat.toDigits 10 n) = n := by
  rw [Json.decimalValue, foldl_digits, Nat.ofDigitChars_ten_toDigits]

end CallAtlas
