import Mathlib.Algebra.Group.Nat.Defs
import CallAtlas.Proofs.Digits

/-!
# Instants are read back as they were written

`parse?_text` holds for every instant: in years that need a sign, and in seconds that were added to a
minute.  Every part but a year with a sign has a fixed width, so that its reader stops by itself.
-/

namespace CallAtlas.Instant

open Text

/-! ## Numbers of a fixed width -/

theorem digitsValue_eq (digits : List Char) : digitsValue digits = Nat.ofDigitChars 10 digits 0 :=
  foldl_digits digits

theorem isDigit_of_mem_padded {width n : Nat} {c : Char} (member : c ∈ padded width n) :
    c.isDigit = true := by
  rcases List.mem_append.mp member with zero | digit
  · rw [List.eq_of_mem_replicate zero]
    rfl
  · exact isDigit_of_mem_toDigits digit

theorem padded_ne_nil (width n : Nat) : padded width n ≠ [] := by
  simp [padded]

/-- No sign stands in front of a number. -/
theorem padded_append_ne_cons {c : Char} (noDigit : c.isDigit = false) (width n : Nat)
    (rest after : List Char) : padded width n ++ rest ≠ c :: after := by
  intro same
  cases written : padded width n with
  | nil => exact padded_ne_nil width n written
  | cons d ds =>
    rw [written, List.cons_append] at same
    obtain ⟨rfl, -⟩ := List.cons.inj same
    have digit : d.isDigit = true := isDigit_of_mem_padded (written ▸ List.mem_cons_self)
    exact Bool.false_ne_true (noDigit.symm.trans digit)

theorem length_padded {width n : Nat} (positive : 0 < width) (small : n < 10 ^ width) :
    (padded width n).length = width := by
  have short := (Nat.length_toDigits_le_iff (by decide) positive).mpr small
  simp only [padded, List.length_append, List.length_replicate]
  omega

theorem digitsValue_padded (width n : Nat) : digitsValue (padded width n) = n := by
  rw [digitsValue_eq, padded, Nat.ofDigitChars_append, Nat.ofDigitChars_replicate_zero, Nat.mul_zero,
    Nat.ofDigitChars_ten_toDigits]

theorem trimStart_of_not_blank {c : Char} (visible : isBlank c = false) (rest : List Char) :
    trimStart (c :: rest) = c :: rest := by
  simp [trimStart, visible]

theorem trimStart_padded (width n : Nat) (rest : List Char) :
    trimStart (padded width n ++ rest) = padded width n ++ rest := by
  cases written : padded width n with
  | nil => exact absurd written (padded_ne_nil width n)
  | cons c cs =>
    have digit : c.isDigit = true := isDigit_of_mem_padded (written ▸ List.mem_cons_self)
    exact trimStart_of_not_blank (not_isBlank_of_isDigit digit) _

theorem number?_padded {width n : Nat} (positive : 0 < width) (small : n < 10 ^ width)
    (rest : List Char) : number? width (padded width n ++ rest) = some (n, rest) := by
  have taken : (padded width n ++ rest).take width = padded width n :=
    List.take_left' (length_padded positive small)
  have run : (padded width n ++ []).takeWhile Char.isDigit = padded width n :=
    takeWhile_digits (fun _ => isDigit_of_mem_padded) noDigitFirst_nil
  rw [List.append_nil] at run
  simp only [number?, trimStart_padded, taken, run, List.drop_left, digitsValue_padded]
  rw [if_neg (by simpa using padded_ne_nil width n)]

theorem mark?_trimStart {c : Char} (visible : isBlank c = false) (rest : List Char) :
    mark? c (trimStart (c :: rest)) = some rest := by
  rw [trimStart_of_not_blank visible, mark?, if_pos rfl]

/-! ## Dates -/

theorem digits?_padded (width n : Nat) {rest : List Char} (stops : NoDigitFirst rest) :
    year?.digits? (padded width n ++ rest) = some (n, rest) := by
  have all : ∀ c ∈ padded width n, c.isDigit = true := fun _ => isDigit_of_mem_padded
  simp only [year?.digits?, takeWhile_digits all stops, List.drop_left, digitsValue_padded]
  rw [if_neg (by simpa using padded_ne_nil width n)]

theorem year?_yearChars (year : Int) {rest : List Char} (stops : NoDigitFirst rest) :
    year? (yearChars year ++ rest) = some (year, rest) := by
  unfold yearChars
  -- Years of four digits are read by their width, others up to the next character that is no digit.
  by_cases plain : 0 ≤ year ∧ year ≤ 9999
  · have number : number? 4 (padded 4 year.toNat ++ rest) = some (year.toNat, rest) :=
      number?_padded (by decide) (by omega) rest
    rw [if_pos (by simpa using plain), year?, trimStart_padded]
    split
    · rename_i same
      exact absurd same (padded_append_ne_cons (by decide) 4 year.toNat rest _)
    · rename_i same
      exact absurd same (padded_append_ne_cons (by decide) 4 year.toNat rest _)
    · simp only [number, Option.map_some, Int.toNat_of_nonneg plain.1]
  · rw [if_neg (by simpa using plain), List.cons_append, year?]
    by_cases negative : year < 0
    · rw [if_pos negative, trimStart_of_not_blank (by decide)]
      simp only [digits?_padded 4 year.natAbs stops, Option.map_some]
      congr 2
      omega
    · rw [if_neg negative, trimStart_of_not_blank (by decide)]
      simp only [digits?_padded 4 year.natAbs stops, Option.map_some]
      congr 2
      omega

theorem date?_chars (d : Date) (rest : List Char) :
    date? (yearChars d.year ++ '-' :: (padded 2 d.month ++ '-' :: (padded 2 d.day ++ rest))) =
      some (d, rest) := by
  have valid := d.valid
  have days : daysIn d.year d.month ≤ 31 := by
    unfold daysIn
    repeat' split
    all_goals omega
  simp only [isDate, Bool.and_eq_true, decide_eq_true_eq] at valid
  have year := year?_yearChars d.year
    (noDigitFirst_cons (c := '-') (by decide) (padded 2 d.month ++ '-' :: (padded 2 d.day ++ rest)))
  have dash : ∀ cs, mark? '-' (trimStart ('-' :: cs)) = some cs := mark?_trimStart (by decide)
  have month := number?_padded (by decide) (show d.month < 10 ^ 2 by omega)
  have day := number?_padded (by decide) (show d.day < 10 ^ 2 by omega)
  simp only [date?, year, Option.bind_eq_bind, Option.bind_some, dash, month, day]
  rw [Date.of?, dif_pos d.valid]
  rfl

/-! ## Times -/

theorem fraction?_padded {width n : Nat} (positive : 0 < width) (narrow : width ≤ 9)
    (small : n < 10 ^ width) {rest : List Char} (stops : NoDigitFirst rest) :
    fraction? ('.' :: (padded width n ++ rest)) = some (n * 10 ^ (9 - width), rest) := by
  have all : ∀ c ∈ padded width n, c.isDigit = true := fun _ => isDigit_of_mem_padded
  have length := length_padded positive small
  have nine : (padded width n ++ List.replicate 9 '0').take 9 =
      padded width n ++ List.replicate (9 - width) '0' := by
    rw [List.take_append, List.take_of_length_le (by omega), length, List.take_replicate,
      Nat.min_eq_left (by omega)]
  have value : digitsValue (padded width n ++ List.replicate (9 - width) '0') =
      n * 10 ^ (9 - width) := by
    rw [digitsValue_eq, Nat.ofDigitChars_append, ← digitsValue_eq, digitsValue_padded,
      Nat.ofDigitChars_replicate_zero, Nat.mul_comm]
  simp only [fraction?, takeWhile_digits all stops, nine, value, List.drop_left]
  rw [if_neg (by simpa using padded_ne_nil width n)]

theorem fraction?_fractionChars {nano : Nat} (small : nano < nanosPerSecond) (rest : List Char) :
    fraction? (fractionChars nano ++ 'Z' :: rest) = some (nano, 'Z' :: rest) := by
  have stops : NoDigitFirst ('Z' :: rest) := noDigitFirst_cons (by decide) rest
  unfold nanosPerSecond at small
  unfold fractionChars
  -- As many groups of three digits as the number needs.
  split
  · rename_i zero
    rw [zero]
    rfl
  · split
    · rw [List.cons_append, fraction?_padded (by decide) (by decide) (by omega) stops]
      congr 2
      omega
    · split
      · rw [List.cons_append, fraction?_padded (by decide) (by decide) (by omega) stops]
        congr 2
        omega
      · rw [List.cons_append, fraction?_padded (by decide) (by decide) (by omega) stops]
        congr 2
        omega

theorem time?_chars {second nano : Nat} (valid : isTime second nano = true) (rest : List Char) :
    time? (padded 2 (second / 3600) ++ ':' :: (padded 2 (second / 60 % 60) ++
      ':' :: (padded 2 (second % 60 + nano / nanosPerSecond) ++
        (fractionChars (nano % nanosPerSecond) ++ 'Z' :: rest)))) =
      some ((second, nano), 'Z' :: rest) := by
  simp only [isTime, Bool.and_eq_true, Bool.or_eq_true, decide_eq_true_eq, beq_iff_eq] at valid
  unfold secondsPerDay nanosPerSecond at valid
  have colon : ∀ cs, mark? ':' (trimStart (':' :: cs)) = some cs := mark?_trimStart (by decide)
  have hour := number?_padded (by decide) (show second / 3600 < 10 ^ 2 by omega)
  have minute := number?_padded (by decide) (show second / 60 % 60 < 10 ^ 2 by omega)
  have inMinute := number?_padded (by decide)
    (show second % 60 + nano / nanosPerSecond < 10 ^ 2 by unfold nanosPerSecond; omega)
  have fraction := fraction?_fractionChars
    (show nano % nanosPerSecond < nanosPerSecond from Nat.mod_lt _ (by decide)) rest
  simp only [time?, hour, minute, inMinute, fraction, colon, Option.bind_eq_bind, Option.bind_some]
  unfold nanosPerSecond
  rw [if_pos (by simp only [Bool.and_eq_true, decide_eq_true_eq]; omega)]
  congr 3 <;> omega

/-! ## Instants -/

theorem ofLocal?_zero (i : Instant) : ofLocal? i.date i.second i.nano 0 = some i := by
  have valid := i.valid
  simp only [isTime, Bool.and_eq_true, decide_eq_true_eq] at valid
  have same : ((i.second : Int) - 0).toNat = i.second := by omega
  simp only [ofLocal?]
  rw [if_neg (by omega), if_neg (by omega), same, of?, dif_pos i.valid]

theorem parse?_text (i : Instant) : parse? i.text = some i := by
  have shape : i.text.toList = yearChars i.date.year ++ '-' :: (padded 2 i.date.month ++
      '-' :: (padded 2 i.date.day ++ 'T' :: (padded 2 (i.second / 3600) ++
        ':' :: (padded 2 (i.second / 60 % 60) ++
          ':' :: (padded 2 (i.second % 60 + i.nano / nanosPerSecond) ++
            (fractionChars (i.nano % nanosPerSecond) ++ 'Z' :: [])))))) := by
    simp [text, chars]
  have offset : offset? (trimStart ['Z']) = some (0, []) := by decide
  simp only [parse?, shape, date?_chars, dateEnd?, time?_chars i.valid, offset, Option.bind_eq_bind,
    Option.bind_some]
  rw [if_pos (by decide)]
  exact ofLocal?_zero i

end CallAtlas.Instant
