import CallAtlas.Json.Printer
import CallAtlas.Proofs.Digits

/-!
# What is written as JSON can be read

`parse?_pretty`: a value that is written with one item to a line is read back, if its numbers are whole
and fit a machine word, and it does not nest too deep.  Each reader is proved to give back what the
writer put in front of any text that cannot go on the value (`Ends`), and the fuel that a reader needs
is at most the length of what it reads.
-/

namespace CallAtlas.Json

/-! ## Blanks -/

theorem skipSpace_of_not_space {c : Char} (visible : isSpace c = false) (rest : List Char) :
    skipSpace (c :: rest) = c :: rest := by
  simp [skipSpace, visible]

theorem skipSpace_replicate (n : Nat) (rest : List Char) :
    skipSpace (List.replicate n ' ' ++ rest) = skipSpace rest := by
  induction n with
  | zero => rfl
  | succ n inductionHypothesis => simpa [skipSpace, List.replicate_succ, isSpace] using inductionHypothesis

theorem skipSpace_newLine (level : Nat) (rest : List Char) :
    skipSpace (newLine level ++ rest) = skipSpace rest := by
  have line : skipSpace ('\n' :: (List.replicate (2 * level) ' ' ++ rest)) =
      skipSpace (List.replicate (2 * level) ' ' ++ rest) := by
    simp [skipSpace, isSpace]
  rw [newLine, List.cons_append, line, skipSpace_replicate]

/-- The text does not go on a number. -/
def Ends (rest : List Char) : Prop :=
  ∀ c ∈ rest.head?, c.isDigit = false ∧ c ≠ '.' ∧ c ≠ 'e' ∧ c ≠ 'E'

theorem ends_nil : Ends [] := by
  intro c first
  cases first

theorem ends_comma (rest : List Char) : Ends (',' :: rest) := by
  intro c first
  obtain rfl := Option.some.inj first
  decide

theorem ends_newLine (level : Nat) (rest : List Char) : Ends (newLine level ++ rest) := by
  intro c first
  obtain rfl := Option.some.inj first
  decide

/-! ## Strings -/

theorem hexValue?_hexDigit : ∀ n < 16, hexValue? (hexDigit n) = some n := by decide

theorem stringBody_plain {c : Char} (notQuote : c ≠ '"') (notBackslash : c ≠ '\\')
    (visible : ¬ c.val < 0x20) (rest : List Char) :
    stringBody (c :: rest) = (stringBody rest).map fun read => (c :: read.1, read.2) := by
  rw [stringBody.eq_def]
  split
  · contradiction
  · simp_all
  · simp_all
  · simp_all
  · rename_i same
    obtain ⟨rfl, rfl⟩ := List.cons.inj same
    simp only [notBackslash, visible, decide_false, Bool.or_self, Bool.false_eq_true, ↓reduceIte]

theorem stringBody_escape (c : Char) (rest : List Char) :
    stringBody (escape c ++ rest) = (stringBody rest).map fun read => (c :: read.1, read.2) := by
  unfold escape
  -- The characters with a letter of their own, then those below the blank, then all others.
  iterate 7
    split
    · subst_vars
      rfl
  split
  · rename_i low
    have small : c.toNat < 32 := low
    have high := hexValue?_hexDigit (c.toNat / 16) (by omega)
    have lower := hexValue?_hexDigit (c.toNat % 16) (by omega)
    have number : c.toNat / 16 * 16 + c.toNat % 16 = c.toNat := by omega
    have four : hexFour? '0' '0' (hexDigit (c.toNat / 16)) (hexDigit (c.toNat % 16)) =
        some c.toNat := by
      simp [hexFour?, high, lower, number, show hexValue? '0' = some 0 by decide]
    have noHigh : isHighHalf c.toNat = false := by simp [isHighHalf]; omega
    have noLow : isLowHalf c.toNat = false := by simp [isLowHalf]; omega
    simp [stringBody, four, noHigh, noLow, Char.ofNat_toNat]
  · rename_i notQuote notBackslash _ _ _ _ _ visible
    exact stringBody_plain notQuote notBackslash visible rest

theorem stringBody_flatMap_escape (cs rest : List Char) :
    stringBody (cs.flatMap escape ++ '"' :: rest) = some (cs, rest) := by
  induction cs with
  | nil => rfl
  | cons c cs inductionHypothesis =>
    rw [List.flatMap_cons, List.append_assoc, stringBody_escape, inductionHypothesis]
    rfl

theorem quoted_append (s : String) (rest : List Char) :
    quoted s ++ rest = '"' :: (s.toList.flatMap escape ++ '"' :: rest) := by
  simp [quoted]

/-! ## Numbers -/

theorem Ends.noDigitFirst {rest : List Char} (ends : Ends rest) : NoDigitFirst rest :=
  fun c first => (ends c first).1

theorem wholePart?_toDigits (n : Nat) {rest : List Char} (ends : Ends rest) :
    wholePart? (Nat.toDigits 10 n ++ rest) = some (Nat.toDigits 10 n, rest) := by
  have all : ∀ c ∈ Nat.toDigits 10 n, c.isDigit = true := fun _ => isDigit_of_mem_toDigits
  have digits : digits? (Nat.toDigits 10 n ++ rest) = some (Nat.toDigits 10 n, rest) := by
    unfold digits?
    rw [takeWhile_digits all ends.noDigitFirst, dropWhile_digits all ends.noDigitFirst]
    split
    · rename_i empty
      exact absurd empty Nat.toDigits_ne_nil
    · rfl
  have noZero : ((Nat.toDigits 10 n).length > 1 && (Nat.toDigits 10 n).head? == some '0') = false := by
    rw [Bool.and_eq_false_iff]
    by_cases zeroFirst : (Nat.toDigits 10 n).head? = some '0'
    · obtain rfl := eq_zero_of_head_toDigits n zeroFirst
      exact .inl rfl
    · exact .inr (beq_eq_false_iff_ne.mpr zeroFirst)
  simp only [wholePart?, digits, noZero, Bool.false_eq_true, ↓reduceIte]

theorem fraction?_of_ends {rest : List Char} (ends : Ends rest) : fraction? rest = some ([], rest) := by
  cases rest with
  | nil => rfl
  | cons c rest =>
    have noPoint := (ends c rfl).2.1
    unfold fraction?
    split
    · simp_all
    · rfl

theorem exponent?_of_ends {rest : List Char} (ends : Ends rest) :
    exponent? rest = some (none, rest) := by
  cases rest with
  | nil => rfl
  | cons c rest =>
    obtain ⟨-, -, noSmall, noCapital⟩ := ends c rfl
    simp [exponent?, noSmall, noCapital]

theorem sign_toDigits (n : Nat) (rest : List Char) :
    sign (Nat.toDigits 10 n ++ rest) = (false, Nat.toDigits 10 n ++ rest) := by
  unfold sign
  split
  · rename_i after same
    cases digits : Nat.toDigits 10 n with
    | nil => exact absurd digits Nat.toDigits_ne_nil
    | cons d ds =>
      rw [digits, List.cons_append] at same
      obtain ⟨rfl, -⟩ := List.cons.inj same
      have minus : Char.isDigit '-' = true := isDigit_of_mem_toDigits (digits ▸ List.mem_cons_self)
      exact absurd minus (by decide)
  · rfl

theorem numberOf?_whole {negative : Bool} {n : Nat} {i : Int} (literal : List Char)
    (signed : i = if negative then -(n : Int) else n) (notZero : negative = true → n ≠ 0)
    (low : minInteger ≤ i) (high : i < wordLimit) :
    numberOf? negative (Nat.toDigits 10 n) [] none literal = some (integer i) := by
  unfold numberOf?
  rw [decimalValue_toDigits, ← signed]
  have plain : (negative && i == 0) = false := by
    cases negative with
    | false => rfl
    | true =>
      have := notZero rfl
      simp only [↓reduceIte] at signed
      simp only [Bool.true_and, beq_eq_false_iff_ne]
      omega
  simp only [List.isEmpty_nil, Option.isNone_none, plain, Bool.not_false, Bool.and_self, low, high,
    decide_true, ↓reduceIte]

theorem number?_of_parts {cs unsigned whole rest : List Char} {negative : Bool} {v : Json}
    (signed : sign cs = (negative, unsigned)) (read : wholePart? unsigned = some (whole, rest))
    (ends : Ends rest) (number : ∀ literal, numberOf? negative whole [] none literal = some v) :
    number? cs = some (v, rest) := by
  simp only [number?, signed, read, fraction?_of_ends ends, exponent?_of_ends ends, number,
    Option.bind_eq_bind, Option.bind_some]
  rfl

theorem number?_decimal {i : Int} (low : minInteger ≤ i) (high : i < wordLimit) {rest : List Char}
    (ends : Ends rest) : number? (decimal i ++ rest) = some (integer i, rest) := by
  cases i with
  | ofNat n =>
    refine number?_of_parts (sign_toDigits n rest) (wholePart?_toDigits n ends) ends fun literal => ?_
    exact numberOf?_whole literal rfl (fun negative => absurd negative Bool.false_ne_true) low high
  | negSucc n =>
    refine number?_of_parts rfl (wholePart?_toDigits (n + 1) ends) ends fun literal => ?_
    exact numberOf?_whole literal (Int.negSucc_eq n) (fun _ => Nat.succ_ne_zero n) low high

/-- The character can stand at the start of a number. -/
def StartsNumber (c : Char) : Prop := c = '-' ∨ c.isDigit = true

theorem StartsNumber.ne {c d : Char} (start : StartsNumber c) (other : ¬ StartsNumber d) : c ≠ d := by
  rintro rfl
  exact other start

theorem StartsNumber.not_space {c : Char} (start : StartsNumber c) : isSpace c = false := by
  simp only [isSpace, Bool.or_eq_false_iff, decide_eq_false_iff_not]
  refine ⟨⟨⟨start.ne ?_, start.ne ?_⟩, start.ne ?_⟩, start.ne ?_⟩ <;> simp [StartsNumber]

theorem decimal_start (i : Int) : ∃ c cs, decimal i = c :: cs ∧ StartsNumber c := by
  cases i with
  | ofNat n =>
    cases digits : Nat.toDigits 10 n with
    | nil => exact absurd digits Nat.toDigits_ne_nil
    | cons d ds => exact ⟨d, ds, digits, .inr (isDigit_of_mem_toDigits (digits ▸ List.mem_cons_self))⟩
  | negSucc n => exact ⟨'-', _, rfl, .inl rfl⟩

/-! ## Lists -/

theorem commaSeparated_cons (x y : List Char) (ys : List (List Char)) :
    commaSeparated (x :: y :: ys) = x ++ ',' :: commaSeparated (y :: ys) := rfl

theorem length_le_commaSeparated {texts : List (List Char)} (nonempty : ∀ t ∈ texts, t ≠ []) :
    texts.length ≤ (commaSeparated texts).length := by
  induction texts with
  | nil => exact Nat.le_refl 0
  | cons x texts inductionHypothesis =>
    have atLeastOne : 1 ≤ x.length := List.length_pos_iff.mpr (nonempty x List.mem_cons_self)
    cases texts with
    | nil => simpa [commaSeparated] using atLeastOne
    | cons y texts =>
      have later := inductionHypothesis fun t member => nonempty t (List.mem_cons_of_mem x member)
      rw [commaSeparated_cons]
      simp only [List.length_cons, List.length_append] at later ⊢
      omega

theorem length_le_of_mem_commaSeparated {texts : List (List Char)} {t : List Char}
    (member : t ∈ texts) : t.length ≤ (commaSeparated texts).length := by
  induction texts with
  | nil => cases member
  | cons x texts inductionHypothesis =>
    cases texts with
    | nil =>
      obtain rfl := List.mem_singleton.mp member
      exact Nat.le_refl _
    | cons y texts =>
      rw [commaSeparated_cons]
      simp only [List.length_append, List.length_cons]
      rcases List.mem_cons.mp member with rfl | later
      · omega
      · have := inductionHypothesis later
        omega

section

variable {α : Type} {item : List Char → Read α} {text : α → List Char} {close : Char}

/-- Items that can be read one by one can be read as a list, up to the bracket on a line of its own. -/
theorem itemsUpTo_commaSeparated (notComma : close ≠ ',') (visible : isSpace close = false)
    {first : α} {items : List α}
    (readable : ∀ a ∈ first :: items, ∀ rest, Ends rest → item (text a ++ rest) = some (a, rest))
    {fuel : Nat} (enough : items.length < fuel) (level : Nat) (rest : List Char) :
    itemsUpTo item close fuel
        (commaSeparated ((first :: items).map text) ++ (newLine level ++ close :: rest)) =
      some (first :: items, rest) := by
  -- Behind each item but the last stands a comma, behind the last one the bracket.
  induction items generalizing first fuel with
  | nil =>
    obtain ⟨fuel, rfl⟩ := Nat.exists_eq_succ_of_ne_zero (Nat.ne_of_gt enough)
    have read := readable first List.mem_cons_self _ (ends_newLine level (close :: rest))
    have closed : skipSpace (newLine level ++ close :: rest) = close :: rest := by
      rw [skipSpace_newLine, skipSpace_of_not_space visible]
    simp only [itemsUpTo, List.map_cons, List.map_nil, commaSeparated, read, closed, ↓reduceIte]
  | cons second items inductionHypothesis =>
    obtain ⟨fuel, rfl⟩ := Nat.exists_eq_succ_of_ne_zero (Nat.ne_of_gt (Nat.zero_lt_of_lt enough))
    have later := inductionHypothesis
      (fun a member => readable a (List.mem_cons_of_mem first member)) (Nat.lt_of_succ_lt_succ enough)
    have read := readable first List.mem_cons_self _ (ends_comma
      (commaSeparated ((second :: items).map text) ++ (newLine level ++ close :: rest)))
    rw [List.map_cons, List.map_cons, commaSeparated_cons, List.append_assoc, List.cons_append,
      ← List.map_cons, itemsUpTo, read]
    simp only [skipSpace_of_not_space (c := ',') (by decide), later, Option.map_some]

/-- A list that can be read one by one is not empty before its closing bracket. -/
theorem items_commaSeparated (notComma : close ≠ ',') (visible : isSpace close = false)
    {first : α} {list : List α}
    (readable : ∀ a ∈ first :: list, ∀ rest, Ends rest → item (text a ++ rest) = some (a, rest))
    (starts : ∀ rest, (skipSpace (text first ++ rest)).head? ≠ some close ∧
      skipSpace (text first ++ rest) ≠ [])
    {fuel : Nat} (enough : list.length < fuel) (level : Nat) (rest : List Char) :
    items item close fuel
        (commaSeparated ((first :: list).map text) ++ (newLine level ++ close :: rest)) =
      some (first :: list, rest) := by
  have opened : ∃ after, commaSeparated ((first :: list).map text) ++
      (newLine level ++ close :: rest) = text first ++ after := by
    cases list with
    | nil => exact ⟨_, rfl⟩
    | cons second list => exact ⟨_, by rw [List.map_cons, List.map_cons, commaSeparated_cons,
        List.append_assoc]⟩
  obtain ⟨after, opened⟩ := opened
  obtain ⟨other, nonempty⟩ := starts after
  unfold items
  rw [itemsUpTo_commaSeparated notComma visible readable enough level rest, opened]
  split
  · rename_i c _ same
    rw [same, List.head?_cons] at other
    rw [if_neg fun isClose => other (congrArg some isClose)]
  · rename_i empty
    exact absurd empty nonempty

end

/-! ## Values -/

/-- Every number in the value is whole and fits a machine word, and less than `depth` brackets are open
    at once. -/
inductive Plain : Nat → Json → Prop
  | null (depth : Nat) : Plain (depth + 1) null
  | bool (depth : Nat) (b : Bool) : Plain (depth + 1) (bool b)
  | integer (depth : Nat) {i : Int} (low : minInteger ≤ i) (high : i < wordLimit) :
      Plain (depth + 1) (integer i)
  | string (depth : Nat) (s : String) : Plain (depth + 1) (string s)
  | array {depth : Nat} {items : List Json} (plain : ∀ x ∈ items, Plain (depth + 1) x) :
      Plain (depth + 2) (array items)
  | object {depth : Nat} {members : List (String × Json)}
      (plain : ∀ m ∈ members, Plain (depth + 1) m.2) : Plain (depth + 2) (object members)

/-- An item of an array on a line of its own. -/
def itemLine (level : Nat) (x : Json) : List Char := newLine level ++ prettyChars level x

/-- A member of an object on a line of its own. -/
def memberLine (level : Nat) (m : String × Json) : List Char :=
  newLine level ++ quoted m.1 ++ ':' :: ' ' :: prettyChars level m.2

theorem prettyItems_eq_map (level : Nat) (items : List Json) :
    prettyItems level items = items.map (itemLine level) := by
  induction items with
  | nil => rfl
  | cons x items inductionHypothesis =>
    rw [prettyItems, List.map_cons, inductionHypothesis, itemLine]

theorem prettyMembers_eq_map (level : Nat) (members : List (String × Json)) :
    prettyMembers level members = members.map (memberLine level) := by
  induction members with
  | nil => rfl
  | cons m members inductionHypothesis =>
    obtain ⟨name, x⟩ := m
    rw [prettyMembers, List.map_cons, inductionHypothesis, memberLine]

theorem prettyChars_array (level : Nat) (x : Json) (items : List Json) (rest : List Char) :
    prettyChars level (array (x :: items)) ++ rest =
      '[' :: (commaSeparated ((x :: items).map (itemLine (level + 1))) ++
        (newLine level ++ ']' :: rest)) := by
  rw [← prettyItems_eq_map]
  simp [prettyChars]

theorem prettyChars_object (level : Nat) (m : String × Json) (members : List (String × Json))
    (rest : List Char) :
    prettyChars level (object (m :: members)) ++ rest =
      '\x7b' :: (commaSeparated ((m :: members).map (memberLine (level + 1))) ++
        (newLine level ++ '\x7d' :: rest)) := by
  rw [← prettyMembers_eq_map]
  simp [prettyChars]

/-- A value starts neither with a blank nor with a closing bracket. -/
theorem prettyChars_start {depth : Nat} {v : Json} (plain : Plain depth v) (level : Nat) :
    ∃ c cs, prettyChars level v = c :: cs ∧ isSpace c = false ∧ c ≠ ']' := by
  cases plain with
  | null => exact ⟨'n', _, rfl, by decide, by decide⟩
  | bool _ b =>
    cases b with
    | true => exact ⟨'t', _, rfl, by decide, by decide⟩
    | false => exact ⟨'f', _, rfl, by decide, by decide⟩
  | @integer _ i _ _ =>
    obtain ⟨c, cs, written, start⟩ := decimal_start i
    exact ⟨c, cs, written, start.not_space, start.ne (by simp [StartsNumber])⟩
  | string => exact ⟨'"', _, rfl, by decide, by decide⟩
  | @array _ items _ =>
    cases items with
    | nil => exact ⟨'[', _, rfl, by decide, by decide⟩
    | cons => exact ⟨'[', _, rfl, by decide, by decide⟩
  | @object _ members _ =>
    cases members with
    | nil => exact ⟨'\x7b', _, rfl, by decide, by decide⟩
    | cons => exact ⟨'\x7b', _, rfl, by decide, by decide⟩

theorem itemLine_opens {depth : Nat} {x : Json} (plain : Plain depth x) (level : Nat)
    (rest : List Char) :
    (skipSpace (itemLine level x ++ rest)).head? ≠ some ']' ∧ skipSpace (itemLine level x ++ rest) ≠ [] := by
  obtain ⟨c, cs, written, visible, notClose⟩ := prettyChars_start plain level
  rw [itemLine, List.append_assoc, skipSpace_newLine, written, List.cons_append,
    skipSpace_of_not_space visible]
  simpa using notClose

theorem memberLine_opens (level : Nat) (m : String × Json) (rest : List Char) :
    (skipSpace (memberLine level m ++ rest)).head? ≠ some '\x7d' ∧
      skipSpace (memberLine level m ++ rest) ≠ [] := by
  rw [memberLine, List.append_assoc, List.append_assoc, skipSpace_newLine, quoted_append,
    skipSpace_of_not_space (by decide)]
  simp

theorem value_newLine (fuel depth level : Nat) (cs : List Char) :
    value fuel depth (newLine level ++ cs) = value fuel depth cs := by
  cases depth with
  | zero => rfl
  | succ depth => rw [value, value, skipSpace_newLine]

theorem value_integer (fuel depth : Nat) {i : Int} (low : minInteger ≤ i) (high : i < wordLimit)
    {rest : List Char} (ends : Ends rest) :
    value fuel (depth + 1) (decimal i ++ rest) = some (integer i, rest) := by
  have number := number?_decimal low high ends
  obtain ⟨c, cs, written, start⟩ := decimal_start i
  rw [written, List.cons_append] at number ⊢
  have digit : (decide (c = '-') || c.isDigit) = true := by
    rcases start with rfl | isDigit
    · rfl
    · simp [isDigit]
  -- No other value starts like a number.
  rw [value, skipSpace_of_not_space start.not_space]
  split
  · rename_i same
    exact absurd (List.cons.inj same).1 (start.ne (by simp [StartsNumber]))
  · rename_i same
    exact absurd (List.cons.inj same).1 (start.ne (by simp [StartsNumber]))
  · rename_i same
    obtain ⟨rfl, rfl⟩ := List.cons.inj same
    rw [if_neg (start.ne (by simp [StartsNumber])), if_pos digit, number]
  · contradiction

theorem member_memberLine {fuel depth level : Nat} {m : String × Json}
    (readable : ∀ rest, Ends rest → value fuel depth (prettyChars level m.2 ++ rest) = some (m.2, rest))
    {rest : List Char} (ends : Ends rest) :
    member (value fuel depth) (memberLine level m ++ rest) = some (m, rest) := by
  have colon : ∀ cs, skipSpace (':' :: cs) = ':' :: cs := skipSpace_of_not_space (by decide)
  have blank : ∀ cs, value fuel depth (' ' :: cs) = value fuel depth cs := by
    intro cs
    cases depth with
    | zero => rfl
    | succ depth => rw [value, value]; rfl
  have opened : memberLine level m ++ rest = newLine level ++ '"' :: (m.1.toList.flatMap escape ++
      '"' :: ':' :: ' ' :: (prettyChars level m.2 ++ rest)) := by
    simp [memberLine, quoted]
  rw [opened, member, skipSpace_newLine, skipSpace_of_not_space (by decide)]
  simp only [stringBody_flatMap_escape, colon, blank, readable rest ends, Option.map_some,
    String.ofList_toList]

theorem value_array (fuel depth : Nat) (cs : List Char) :
    value fuel (depth + 2) ('[' :: cs) =
      (items (value fuel (depth + 1)) ']' fuel cs).map fun read => (array read.1, read.2) := by
  rw [value, skipSpace_of_not_space (by decide)]
  simp only [Nat.add_eq_zero_iff, Nat.succ_ne_self, and_false, ↓reduceIte]

theorem value_object (fuel depth : Nat) (cs : List Char) :
    value fuel (depth + 2) ('\x7b' :: cs) =
      (items (member (value fuel (depth + 1))) '\x7d' fuel cs).map
        fun read => (object read.1, read.2) := by
  rw [value, skipSpace_of_not_space (by decide)]
  rfl

/-- The number of items, and the length of each, is at most the length of the text. -/
theorem fuel_of_list {α : Type} {text : α → List Char} (nonempty : ∀ a, text a ≠ []) {first : α}
    {list : List α} {bracket : Char} {behind : List Char} {fuel : Nat}
    (enough : (bracket :: (commaSeparated ((first :: list).map text) ++ behind)).length ≤ fuel) :
    list.length < fuel ∧ ∀ a ∈ first :: list, (text a).length ≤ fuel := by
  rw [List.length_cons, List.length_append] at enough
  constructor
  · have noneEmpty : ∀ t ∈ (first :: list).map text, t ≠ [] := by
      intro t member
      obtain ⟨a, -, rfl⟩ := List.mem_map.mp member
      exact nonempty a
    have count := length_le_commaSeparated noneEmpty
    rw [List.length_map, List.length_cons] at count
    omega
  · intro a member
    have := length_le_of_mem_commaSeparated (List.mem_map_of_mem (f := text) member)
    omega

theorem value_prettyChars {depth : Nat} {v : Json} (plain : Plain depth v) {fuel level : Nat}
    (enough : (prettyChars level v).length ≤ fuel) {rest : List Char} (ends : Ends rest) :
    value fuel depth (prettyChars level v ++ rest) = some (v, rest) := by
  -- On the value: the same fuel is enough for every part, since a part is no longer than the whole.
  induction plain generalizing level rest with
  | null depth => rfl
  | bool depth b => cases b <;> rfl
  | integer depth low high => exact value_integer fuel depth low high ends
  | string depth s =>
    rw [prettyChars, quoted_append, value, skipSpace_of_not_space (by decide)]
    simp only [stringBody_flatMap_escape, Option.map_some, String.ofList_toList]
  | @array depth items plain inductionHypothesis =>
    cases items with
    | nil => exact value_array fuel depth (']' :: rest)
    | cons x items =>
      have whole := prettyChars_array level x items rest
      have shape := prettyChars_array level x items []
      rw [List.append_nil] at shape
      rw [shape] at enough
      obtain ⟨count, lengths⟩ := fuel_of_list (by simp [itemLine, newLine]) enough
      have readable : ∀ y ∈ x :: items, ∀ rest, Ends rest →
          value fuel (depth + 1) (itemLine (level + 1) y ++ rest) = some (y, rest) := by
        intro y member rest ends
        have short := lengths y member
        rw [itemLine, List.length_append] at short
        rw [itemLine, List.append_assoc, value_newLine]
        exact inductionHypothesis y member (by omega) ends
      rw [whole, value_array, items_commaSeparated (by decide) (by decide) readable
        (itemLine_opens (plain x List.mem_cons_self) (level + 1)) count]
      rfl
  | @object depth members plain inductionHypothesis =>
    cases members with
    | nil => exact value_object fuel depth ('\x7d' :: rest)
    | cons m members =>
      have whole := prettyChars_object level m members rest
      have shape := prettyChars_object level m members []
      rw [List.append_nil] at shape
      rw [shape] at enough
      obtain ⟨count, lengths⟩ := fuel_of_list (by simp [memberLine, newLine]) enough
      have readable : ∀ y ∈ m :: members, ∀ rest, Ends rest →
          member (value fuel (depth + 1)) (memberLine (level + 1) y ++ rest) = some (y, rest) := by
        intro y within rest ends
        have short := lengths y within
        simp only [memberLine, List.length_append, List.length_cons] at short
        exact member_memberLine (fun rest ends => inductionHypothesis y within (by omega) ends) ends
      rw [whole, value_object, items_commaSeparated (by decide) (by decide) readable
        (memberLine_opens (level + 1) m) count]
      rfl

/-- A plain value that is written is read back. -/
theorem parse?_pretty {v : Json} (plain : Plain maxNesting v) : parse? v.pretty = some v := by
  have read := value_prettyChars plain (Nat.le_refl (prettyChars 0 v).length) ends_nil
  rw [List.append_nil] at read
  simp only [parse?, pretty, String.toList_ofList, read]
  rfl

end CallAtlas.Json
