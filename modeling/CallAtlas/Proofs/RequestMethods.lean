import CallAtlas.Proofs.NormalPaths
import CallAtlas.Proofs.RequestOptions
import CallAtlas.Proofs.ScannedPlaces

/-!
# The method that a request is read with

The method of a request is looked for in the text of its options, from left to right up to the first
closing brace.  In the text of entries this finds what `Entries.taken` says (`firstMethod?_spelled`): keys
and values are passed over one by one, and an inner object ends the search with its own closing brace.

So a hint names the method of its request if and only if the method that is taken is the outermost one
(`fetchHint_method_iff`).
-/

namespace CallAtlas.Text

/-- The blank characters from 128 on, as runs from a first to a last code point. -/
def wideBlanks : List (Nat × Nat) :=
  [(0x85, 0x85), (0xa0, 0xa0), (0x1680, 0x1680), (0x2000, 0x200a), (0x2028, 0x2029), (0x202f, 0x202f),
    (0x205f, 0x205f), (0x3000, 0x3000)]

theorem wordRuns_apart :
    (wordRuns.toList.all fun word => wideBlanks.all fun blank =>
      Nat.blt word.2 blank.1 || Nat.blt blank.2 word.1) = true := by
  decide +kernel

/-- A blank comes before the digits, or is a wide one. -/
theorem isBlank_cases {c : Char} (blank : isBlank c = true) :
    c.toNat < 48 ∨ 128 ≤ c.toNat ∧ ∃ run ∈ wideBlanks, run.1 ≤ c.toNat ∧ c.toNat ≤ run.2 := by
  have code : c.toNat = c.val.toNat := rfl
  simp only [isBlank, Bool.or_eq_true, decide_eq_true_eq, Bool.and_eq_true, Char.ext_iff,
    UInt32.le_iff_toNat_le, ← UInt32.toNat_inj, UInt32.reduceToNat, Char.reduceVal, ← code] at blank
  simp only [wideBlanks, List.mem_cons, List.not_mem_nil, or_false, exists_eq_or_imp, exists_eq_left]
  omega

theorem isWord_of_isBlank {c : Char} (blank : isBlank c = true) : isWord c = false := by
  have code : c.toNat = c.val.toNat := rfl
  unfold isWord
  rcases isBlank_cases blank with small | ⟨wide, run, listed, low, high⟩
  · have ranges : c.isAlphanum = ((decide (c.val ≥ 'A'.val ∧ c.val ≤ 'Z'.val) ||
        decide (c.val ≥ 'a'.val) && decide (c.val ≤ 'z'.val)) ||
          (decide (c.val ≥ '0'.val) && decide (c.val ≤ '9'.val))) := rfl
    rw [if_pos (by omega), ranges]
    simp only [ge_iff_le, Char.ext_iff, ← UInt32.toNat_inj, UInt32.le_iff_toNat_le, Bool.or_eq_false_iff,
      Bool.and_eq_false_iff, decide_eq_false_iff_not, UInt32.reduceToNat, Char.reduceVal]
    omega
  · rw [if_neg (by omega), isInRuns, Array.any_toList.symm, List.any_eq_false]
    intro word member
    have apart := List.all_eq_true.mp (List.all_eq_true.mp wordRuns_apart word member) run listed
    simp only [Bool.or_eq_true, Nat.blt_eq] at apart
    simp only [Bool.and_eq_true, decide_eq_true_eq]
    omega

theorem dropWhile_append_of_stop {p : Char → Bool} {stop : Char} (stops : p stop = false)
    (cs rest : List Char) : (cs ++ stop :: rest).dropWhile p = cs.dropWhile p ++ stop :: rest := by
  induction cs with
  | nil => simp [stops]
  | cons c cs inductionHypothesis =>
    rw [List.cons_append, List.dropWhile_cons, List.dropWhile_cons]
    split
    · exact inductionHypothesis
    · rfl

end CallAtlas.Text

namespace CallAtlas.Routes

open Text Scan

/-! ## Where a word ends -/

/-- No word character comes next. -/
def NoWordNext (cs : List Char) : Prop := ∀ c, cs.head? = some c → isWord c = false

theorem noWordNext_blanks {gap cs : List Char} (blank : AreBlank gap) (noWord : NoWordNext cs) :
    NoWordNext (gap ++ cs) := by
  cases gap with
  | nil => exact noWord
  | cons d gap =>
    intro c first
    obtain rfl := Option.some.inj first
    exact isWord_of_isBlank (blank d List.mem_cons_self)

theorem noWordNext_cons {c : Char} (notWord : isWord c = false) (cs : List Char) : NoWordNext (c :: cs) := by
  intro d first
  obtain rfl := Option.some.inj first
  exact notWord

/-- A word that does not go on behind the front of a text stands in the front if the text starts with it. -/
theorem exists_tail_of_method {front back behind : List Char} (noWord : NoWordNext back)
    (starts : front ++ back = "method".toList ++ behind) :
    ∃ tail, front = "method".toList ++ tail ∧ behind = tail ++ back := by
  rcases List.append_eq_append_iff.mp starts with ⟨tail, long, short⟩ | ⟨tail, long, short⟩
  · cases tail with
    | nil => exact ⟨[], by simpa using long.symm, by simpa using short.symm⟩
    | cons c tail =>
      have letters : "method".toList.all isWord = true := by decide
      have isLetter := List.all_eq_true.mp letters c (by simp [long])
      rw [noWord c (by simp [short])] at isLetter
      cases isLetter
  · exact ⟨tail, long, short⟩

/-! ## Looking through a text -/

theorem isQuote_cases {q : Char} (quote : isQuote q = true) : q = '\x22' ∨ q = '\x27' ∨ q = '\x60' := by
  simp only [isQuote, Bool.or_eq_true, decide_eq_true_eq] at quote
  rcases quote with (quote | quote) | quote
  · exact .inl (Char.toNat_inj.mp quote)
  · exact .inr (.inl (Char.toNat_inj.mp quote))
  · exact .inr (.inr (Char.toNat_inj.mp quote))

/-- A quote is no blank and no word character, neither colon nor closing brace. -/
theorem isQuote_apart {q : Char} (quote : isQuote q = true) :
    isBlank q = false ∧ isWord q = false ∧ q ≠ ':' ∧ q ≠ 'm' ∧ q ≠ '\x7d' := by
  rcases isQuote_cases quote with rfl | rfl | rfl <;> decide

theorem quoted?_append {inner text : List Char} (quoted : InQuotes inner text) (rest : List Char) :
    quoted? (text ++ rest) = some (inner, rest) := by
  obtain ⟨free, q, isQuote, rfl⟩ := quoted
  have inside : ∀ c ∈ inner, (!Scan.isQuote c) = true := fun c member => by simp [free c member]
  have cut : quoted? (q :: (inner ++ q :: rest)) = some (inner, rest) := by
    rw [quoted?, if_pos isQuote, List.dropWhile_append_of_pos inside, List.takeWhile_append_of_pos inside]
    simp [isQuote]
  simpa using cut

theorem quotedAll?_append {inner text : List Char} (quoted : InQuotes inner text) (rest : List Char) :
    quotedAll? isWord (text ++ rest) = if isWordText inner then some (inner, rest) else none := by
  rw [quotedAll?, quoted?_append quoted]
  rfl

theorem methodHere?_eq_some_iff (inWord : Bool) (cs : List Char) (found : List Char × List Char) :
    methodHere? inWord cs = some found ↔
      inWord = false ∧ ∃ rest after, cs = "method".toList ++ rest ∧ rest.dropWhile isBlank = ':' :: after ∧
        quotedAll? isWord (after.dropWhile isBlank) = some found := by
  simp only [← stripPrefix?_eq_some_iff]
  unfold methodHere?
  constructor
  · intro hit
    split at hit
    · cases hit
    · rename_i outside
      split at hit
      · rename_i rest starts
        split at hit
        · rename_i after colon
          exact ⟨by simpa using outside, rest, after, starts, colon, hit⟩
        · cases hit
      · cases hit
  · rintro ⟨rfl, rest, after, starts, colon, hit⟩
    simp only [Bool.false_eq_true, if_false, starts, colon]
    exact hit

/-- Where no method is read, the search goes on with the next character. -/
theorem firstMethod?_cons (inWord : Bool) (c : Char) (cs : List Char) :
    firstMethod? inWord (c :: cs) =
      (methodHere? inWord (c :: cs)).or (if c = '\x7d' then none else firstMethod? (isWord c) cs) := by
  rw [firstMethod?]
  cases methodHere? inWord (c :: cs) <;> rfl

theorem firstMethod?_cons_of_ne {c : Char} (other : c ≠ 'm') (notClosing : c ≠ '\x7d') (inWord : Bool)
    (cs : List Char) : firstMethod? inWord (c :: cs) = firstMethod? (isWord c) cs := by
  have misses : methodHere? inWord (c :: cs) = none := by
    rw [Option.eq_none_iff_forall_ne_some]
    intro found hit
    obtain ⟨-, rest, -, starts, -⟩ := (methodHere?_eq_some_iff ..).mp hit
    exact other (List.cons.inj starts).1
  rw [firstMethod?_cons, misses, Option.none_or, if_neg notClosing]

theorem firstMethod?_cons_blank {c : Char} (blank : isBlank c = true) (inWord : Bool) (cs : List Char) :
    firstMethod? inWord (c :: cs) = firstMethod? false cs := by
  have other : c ≠ 'm' := by
    rintro rfl
    exact absurd blank (by decide)
  have notClosing : c ≠ '\x7d' := by
    rintro rfl
    exact absurd blank (by decide)
  rw [firstMethod?_cons_of_ne other notClosing, isWord_of_isBlank blank]

theorem firstMethod?_blanks {gap : List Char} (blank : AreBlank gap) (cs : List Char) :
    firstMethod? false (gap ++ cs) = firstMethod? false cs := by
  induction gap with
  | nil => rfl
  | cons c gap inductionHypothesis =>
    obtain ⟨here, later⟩ := List.forall_mem_cons.mp blank
    rw [List.cons_append, firstMethod?_cons_blank here, inductionHypothesis later]

/-- Behind a colon no word character stands in front, whatever was before. -/
theorem firstMethod?_colon {gap : List Char} (blank : AreBlank gap) (inWord : Bool) (cs : List Char) :
    firstMethod? inWord (gap ++ ':' :: cs) = firstMethod? false cs := by
  have colon (inWord : Bool) : firstMethod? inWord (':' :: cs) = firstMethod? false cs :=
    firstMethod?_cons_of_ne (by decide) (by decide) inWord cs
  cases gap with
  | nil => exact colon inWord
  | cons c gap =>
    obtain ⟨here, later⟩ := List.forall_mem_cons.mp blank
    rw [List.cons_append, firstMethod?_cons_blank here, firstMethod?_blanks later, colon]

/-! ## Looking through quotes -/

/-- A word in quotes starts with a quote and a word character. -/
theorem quotedAll?_eq_some {cs : List Char} {found : List Char × List Char}
    (hit : quotedAll? isWord cs = some found) :
    ∃ q c rest, cs = q :: c :: rest ∧ isQuote q = true ∧ isWord c = true := by
  unfold quotedAll? at hit
  split at hit
  · rename_i text after quoted
    rw [Option.ite_none_right_eq_some, Bool.and_eq_true] at hit
    obtain ⟨⟨nonempty, isWords⟩, -⟩ := hit
    cases cs with
    | nil => cases quoted
    | cons q cs =>
      rw [quoted?, Option.ite_none_right_eq_some] at quoted
      obtain ⟨isQuote, quoted⟩ := quoted
      split at quoted
      · obtain ⟨rfl, -⟩ := Prod.mk.inj (Option.some.inj quoted)
        cases cs with
        | nil => cases nonempty
        | cons c cs =>
          refine ⟨q, c, cs, rfl, isQuote, List.all_eq_true.mp isWords c ?_⟩
          rw [List.takeWhile_cons] at nonempty ⊢
          split
          · exact List.mem_cons_self
          · rename_i closing
            simp [closing] at nonempty
      · cases quoted
  · cases hit

/-- Inside of quotes no method is read.  What looks like one up to its colon is followed at best by the
    closing quote, and behind that comes no word. -/
theorem methodHere?_inQuotes {inner rest : List Char} {q : Char}
    (free : ∀ c ∈ inner, isQuote c = false) (quote : isQuote q = true) (noWord : NoWordNext rest)
    (inWord : Bool) : methodHere? inWord (inner ++ q :: rest) = none := by
  obtain ⟨notBlank, notWord, notColon, -, -⟩ := isQuote_apart quote
  rw [Option.eq_none_iff_forall_ne_some]
  intro found hit
  obtain ⟨-, behind, after, starts, colon, value⟩ := (methodHere?_eq_some_iff ..).mp hit
  obtain ⟨tail, rfl, rfl⟩ := exists_tail_of_method (noWordNext_cons notWord rest) starts
  have tailFree : ∀ c ∈ tail, isQuote c = false := fun c member => free c (List.mem_append_right _ member)
  rw [dropWhile_append_of_stop notBlank] at colon
  cases dropped : tail.dropWhile isBlank with
  | nil =>
    rw [dropped] at colon
    exact notColon (List.cons.inj colon).1
  | cons c later =>
    rw [dropped, List.cons_append] at colon
    obtain ⟨rfl, rfl⟩ := List.cons.inj colon
    have laterFree : ∀ c ∈ later, isQuote c = false := fun c member =>
      tailFree c ((List.dropWhile_sublist _).subset (by rw [dropped]; exact List.mem_cons_of_mem _ member))
    rw [dropWhile_append_of_stop notBlank] at value
    obtain ⟨opening, first, more, spelled, isQuote, isWord⟩ := quotedAll?_eq_some value
    cases blanks : later.dropWhile isBlank with
    | nil =>
      rw [blanks, List.nil_append, List.cons.injEq] at spelled
      rw [noWord first (by simp [spelled.2])] at isWord
      cases isWord
    | cons c more' =>
      rw [blanks, List.cons_append, List.cons.injEq] at spelled
      have member : c ∈ later := (List.dropWhile_sublist _).subset (by rw [blanks]; exact List.mem_cons_self)
      rw [← spelled.1, laterFree c member] at isQuote
      cases isQuote

/-- A text in quotes is passed over, unless there is a closing brace in it. -/
theorem firstMethod?_quoted {inner text rest : List Char} (quoted : InQuotes inner text)
    (noWord : NoWordNext rest) (inWord : Bool) :
    firstMethod? inWord (text ++ rest) =
      if inner.contains '\x7d' then none else firstMethod? false rest := by
  obtain ⟨free, q, quote, rfl⟩ := quoted
  obtain ⟨-, notWord, -, other, notClosing⟩ := isQuote_apart quote
  have closing (inWord : Bool) : firstMethod? inWord (q :: rest) = firstMethod? false rest := by
    rw [firstMethod?_cons_of_ne other notClosing, notWord]
  have inside (inWord : Bool) : firstMethod? inWord (inner ++ q :: rest) =
      if inner.contains '\x7d' then none else firstMethod? false rest := by
    induction inner generalizing inWord with
    | nil => exact closing inWord
    | cons c inner inductionHypothesis =>
      have misses := methodHere?_inQuotes free quote noWord inWord
      rw [List.cons_append] at misses ⊢
      rw [firstMethod?_cons, misses, Option.none_or,
        inductionHypothesis fun d member => free d (List.mem_cons_of_mem c member)]
      by_cases brace : c = '\x7d'
      · simp [brace]
      · simp [brace, Ne.symm brace]
  rw [List.cons_append, List.append_assoc, firstMethod?_cons_of_ne other notClosing]
  exact inside (isWord q)

/-! ## Looking through keys -/

theorem isKeyChar_apart {c : Char} (isKey : isKeyChar c = true) :
    isBlank c = false ∧ c ≠ ':' ∧ c ≠ '\x7d' := by
  simp only [isKeyChar, Bool.and_eq_true, Bool.not_eq_true', decide_eq_true_eq] at isKey
  exact ⟨isKey.1.1.1.1.1, isKey.1.1.1.2, isKey.2⟩

theorem dropWhile_blanks {gap : List Char} (blank : AreBlank gap) {c : Char} (stops : isBlank c = false)
    (cs : List Char) : (gap ++ c :: cs).dropWhile isBlank = c :: cs := by
  rw [List.dropWhile_append_of_pos blank, List.dropWhile_cons_of_neg (by simp [stops])]

/-- In front of a colon the end of a key is a method if it is the whole word. -/
theorem methodHere?_key {name gap : List Char} (areKeys : ∀ c ∈ name, isKeyChar c = true)
    (blank : AreBlank gap) (inWord : Bool) (cs : List Char) :
    methodHere? inWord (name ++ (gap ++ ':' :: cs)) =
      if inWord = false ∧ name = "method".toList then quotedAll? isWord (cs.dropWhile isBlank) else none := by
  have colonNext := dropWhile_blanks blank (c := ':') (by decide) cs
  have noWord := noWordNext_blanks blank (noWordNext_cons (c := ':') (by decide) cs)
  have isMethod {behind after : List Char} (starts : name ++ (gap ++ ':' :: cs) = "method".toList ++ behind)
      (colon : behind.dropWhile isBlank = ':' :: after) : name = "method".toList := by
    obtain ⟨tail, long, rfl⟩ := exists_tail_of_method noWord starts
    cases tail with
    | nil => simpa using long
    | cons c tail =>
      obtain ⟨notBlank, notColon, -⟩ := isKeyChar_apart (areKeys c (by simp [long]))
      rw [List.cons_append, List.dropWhile_cons_of_neg (by simp [notBlank])] at colon
      exact absurd (List.cons.inj colon).1 notColon
  apply Option.ext
  intro found
  rw [methodHere?_eq_some_iff]
  constructor
  · rintro ⟨rfl, behind, after, starts, colon, value⟩
    obtain rfl := isMethod starts colon
    rw [← List.append_cancel_left starts, colonNext] at colon
    rw [if_pos ⟨rfl, rfl⟩, (List.cons.inj colon).2]
    exact value
  · intro hit
    rw [Option.ite_none_right_eq_some] at hit
    obtain ⟨⟨rfl, rfl⟩, value⟩ := hit
    exact ⟨rfl, _, cs, rfl, colonNext, value⟩

/-- At a key that is written without quotes, a method is read if its name ends in one. -/
theorem firstMethod?_key {name gap : List Char} (areKeys : ∀ c ∈ name, isKeyChar c = true)
    (blank : AreBlank gap) (inWord : Bool) (cs : List Char) :
    firstMethod? inWord (name ++ (gap ++ ':' :: cs)) =
      if endsInMethod inWord name then (quotedAll? isWord (cs.dropWhile isBlank)).or (firstMethod? false cs)
      else firstMethod? false cs := by
  induction name generalizing inWord with
  | nil => exact firstMethod?_colon blank inWord cs
  | cons c name inductionHypothesis =>
    obtain ⟨here, later⟩ := List.forall_mem_cons.mp areKeys
    have entry := methodHere?_key areKeys blank inWord cs
    rw [List.cons_append] at entry ⊢
    rw [firstMethod?_cons, entry, if_neg (isKeyChar_apart here).2.2, inductionHypothesis later, endsInMethod]
    by_cases isMethod : inWord = false ∧ c :: name = "method".toList
    · obtain ⟨rfl, whole⟩ := isMethod
      have noOther : endsInMethod (isWord c) name = false := by
        obtain ⟨rfl, rfl⟩ := List.cons.inj whole
        decide
      simp [noOther, whole]
    · have notHere : (!inWord && c :: name == "method".toList) = false := by
        simpa using isMethod
      rw [if_neg isMethod, Option.none_or, notHere, Bool.false_or]

/-! ## Looking through entries -/

theorem firstMethod?_heads {key : EntryKey} {head : List Char} (heads : key.Heads head) (cs : List Char) :
    firstMethod? false (head ++ cs) =
      if key.name.contains '\x7d' then none
      else if key.looksLikeMethod then (quotedAll? isWord (cs.dropWhile isBlank)).or (firstMethod? false cs)
      else firstMethod? false cs := by
  obtain ⟨lead, name, gap, trail, leadBlank, spelled, gapBlank, trailBlank, rfl⟩ := heads
  have value : (trail ++ cs).dropWhile isBlank = cs.dropWhile isBlank :=
    List.dropWhile_append_of_pos trailBlank
  simp only [List.append_assoc, List.cons_append]
  rw [firstMethod?_blanks leadBlank]
  cases spelled with
  | bare nonempty areKeys =>
    have noBrace : name.contains '\x7d' = false := by
      simp only [List.contains_eq_mem, decide_eq_false_iff_not]
      exact fun member => (isKeyChar_apart (areKeys _ member)).2.2 rfl
    rw [firstMethod?_key areKeys gapBlank, value, firstMethod?_blanks trailBlank, noBrace]
    rfl
  | quoted inQuotes =>
    have noWord := noWordNext_blanks gapBlank (noWordNext_cons (c := ':') (by decide) (trail ++ cs))
    rw [firstMethod?_quoted inQuotes noWord, firstMethod?_colon gapBlank, firstMethod?_blanks trailBlank]
    rfl

/-- Behind an entry comes no word, and the search goes on with the rest. -/
theorem Entries.Follow.skipped {rest : Entries} {comma tail : List Char} (follows : rest.Follow comma)
    (spelled : rest.Spelled tail) (after : List Char) :
    NoWordNext (comma ++ (tail ++ '\x7d' :: after)) ∧
      firstMethod? false (comma ++ (tail ++ '\x7d' :: after)) =
        firstMethod? false (tail ++ '\x7d' :: after) := by
  obtain ⟨gap, comma, gapBlank, ends, rfl⟩ := follows
  rw [List.append_assoc, firstMethod?_blanks gapBlank]
  rcases ends with rfl | ⟨rfl, rfl⟩
  · refine ⟨noWordNext_blanks gapBlank (noWordNext_cons (by decide) _), ?_⟩
    exact firstMethod?_cons_of_ne (by decide) (by decide) false _
  · cases spelled with
    | nil blank =>
      have closing := noWordNext_blanks blank (noWordNext_cons (c := '\x7d') (by decide) after)
      exact ⟨noWordNext_blanks gapBlank closing, rfl⟩

/-- In the text of entries with a closing brace behind them, the method that is found is the one taken. -/
theorem firstMethod?_spelled {options : Entries} {text : List Char} (spelled : options.Spelled text)
    (after : List Char) :
    (firstMethod? false (text ++ '\x7d' :: after)).map (·.1) = options.taken := by
  -- In an inner object the search ends at its brace at the latest: all that stands behind is its `after`.
  induction spelled generalizing after with
  | nil blank =>
    rw [firstMethod?_blanks blank, firstMethod?_cons]
    rfl
  | @text key value rest head quoted comma tail heads inQuotes follows spelled inductionHypothesis =>
    obtain ⟨noWord, skipped⟩ := follows.skipped spelled after
    have start : (quoted ++ (comma ++ (tail ++ '\x7d' :: after))).dropWhile isBlank =
        quoted ++ (comma ++ (tail ++ '\x7d' :: after)) := by
      obtain ⟨-, q, quote, rfl⟩ := inQuotes
      exact List.dropWhile_cons_of_neg (by simp [isQuote_apart quote])
    simp only [List.append_assoc]
    rw [firstMethod?_heads heads, start, quotedAll?_append inQuotes, firstMethod?_quoted inQuotes noWord,
      skipped, Entries.taken, ← inductionHypothesis after]
    cases key.name.contains '\x7d' <;> cases key.looksLikeMethod <;> cases isWordText value <;>
      cases value.contains '\x7d' <;> rfl
  | @object key inner rest head inside comma tail heads spelledInner follows spelled innerHypothesis _ =>
    have start (cs : List Char) : quotedAll? isWord (List.dropWhile isBlank ('\x7b' :: cs)) = none := rfl
    simp only [List.append_assoc, List.cons_append]
    rw [firstMethod?_heads heads, start, Option.none_or, ite_self,
      firstMethod?_cons_of_ne (by decide) (by decide), Entries.taken,
      ← innerHypothesis (comma ++ (tail ++ '\x7d' :: after))]
    cases key.name.contains '\x7d' <;> rfl

/-! ## The request in a body -/

theorem optionsMethod?_spelled {options : Entries} {inside between : List Char}
    (spelled : options.Spelled inside) (blank : AreBlank between) (after : List Char) :
    (optionsMethod? (',' :: (between ++ '\x7b' :: (inside ++ '\x7d' :: after)))).map (·.1) =
      options.taken := by
  rw [← firstMethod?_spelled spelled after, optionsMethod?, dropWhile_blanks blank (by decide)]
  rfl

/-- A request is read with the method that is taken from its options. -/
theorem fetchCall_isFetch {url text : List Char} {options : Entries} (isFetch : IsFetch url options text)
    (after : List Char) :
    ∃ rest, fetchCall false (text ++ after) = some (⟨methodOf options.taken, url⟩, rest) := by
  obtain ⟨lead, address, gap, between, inside, trail, leadBlank, inQuotes, gapBlank, betweenBlank, spelled,
    -, rfl⟩ := isFetch
  have start (cs : List Char) : (lead ++ (address ++ cs)).dropWhile isBlank = address ++ cs := by
    obtain ⟨-, q, quote, rfl⟩ := inQuotes
    exact dropWhile_blanks leadBlank (isQuote_apart quote).1 _
  have method := optionsMethod?_spelled spelled betweenBlank (trail ++ ')' :: after)
  simp only [List.append_assoc, List.cons_append, List.nil_append, fetchCall, Bool.false_eq_true, if_false]
  rw [(stripPrefix?_eq_some_iff ..).mpr rfl]
  simp only [start, quoted?_append inQuotes, dropWhile_blanks gapBlank (c := ',') (by decide)]
  rw [methodOf, ← method]
  cases optionsMethod? (',' :: (between ++ '\x7b' :: (inside ++ '\x7d' :: (trail ++ ')' :: after)))) with
  | none => exact ⟨_, rfl⟩
  | some found => exact ⟨_, rfl⟩

/-- A request is read at its place unless an earlier one goes beyond it, or a word character stands in
    front. -/
theorem mem_placesIn_fetchCall_iff {body : String} {before text after url : List Char} {options : Entries}
    (cut : body.toList = before ++ (text ++ after)) (isFetch : IsFetch url options text) :
    ((∃ p ∈ placesIn fetchCall body, p.start = before.length) ↔ endsInWord false before = false ∧
      ∀ q ∈ placesIn fetchCall body, q.start < before.length → q.stop ≤ before.length) ∧
    ∀ p ∈ placesIn fetchCall body, p.start = before.length → p.value = ⟨methodOf options.taken, url⟩ := by
  obtain ⟨rest, reads⟩ := fetchCall_isFetch isFetch after
  have inWord (cs : List Char) : fetchCall true cs = none := rfl
  obtain ⟨c, cs, first⟩ : ∃ c cs, text ++ after = c :: cs := by
    obtain ⟨lead, address, gap, between, inside, trail, -, -, -, -, -, -, rfl⟩ := isFetch
    exact ⟨_, _, rfl⟩
  rw [first] at cut reads
  have isPlace := mem_placesIn_iff fetchCall cut
  have readsOnly {value : Request} {rest' : List Char}
      (found : fetchCall (endsInWord false before) (c :: cs) = some (value, rest')) :
      endsInWord false before = false ∧ value = ⟨methodOf options.taken, url⟩ := by
    cases wordBefore : endsInWord false before with
    | true =>
      rw [wordBefore, inWord] at found
      cases found
    | false =>
      rw [wordBefore, reads] at found
      exact ⟨rfl, (Prod.mk.inj (Option.some.inj found)).1.symm⟩
  refine ⟨⟨?_, ?_⟩, ?_⟩
  · rintro ⟨p, placed, here⟩
    obtain ⟨free, rest', found, -⟩ := (isPlace p).mp ⟨placed, here⟩
    exact ⟨(readsOnly found).1, free⟩
  · rintro ⟨noWord, free⟩
    have found : fetchCall (endsInWord false before) (c :: cs) =
        some (⟨methodOf options.taken, url⟩, rest) := by
      rw [noWord]
      exact reads
    exact ⟨_, (isPlace ⟨_, _, _⟩).mpr ⟨free, rest, found, rfl⟩⟩
  · intro p placed here
    obtain ⟨-, rest', found, -⟩ := (isPlace p).mp ⟨placed, here⟩
    exact (readsOnly found).2

theorem requestPath?_of_slash {url : List Char} (absolute : url.head? = some '/') :
    ∃ path, requestPath? url = some path := by
  cases url with
  | nil => cases absolute
  | cons c cs =>
    obtain rfl := Option.some.inj absolute
    have noOrigin : withoutOrigin ('/' :: cs) = '/' :: cs := rfl
    simp only [requestPath?, noOrigin]
    rw [if_pos (by rfl)]
    split
    · exact ⟨_, rfl⟩
    · exact ⟨_, rfl⟩

/-- The hint of a request tells its method. -/
theorem hintOf_eq_iff {url path : List Char} (isPath : requestPath? url = some path)
    (method other : List Char) : hintOf ⟨method, url⟩ = hintOf ⟨other, url⟩ ↔ method = other := by
  rw [hintOf, hintOf, isPath]
  constructor
  · intro same
    have target := congrArg Hint.target (Option.some.inj same)
    exact List.append_cancel_right (String.ofList_injective (HintTarget.literal.inj target))
  · rintro rfl
    rfl

/-- The hint of a request with options has the method that is taken from their text.  This is the method of
    the request if and only if the two agree, and so for all options that can be read. -/
theorem fetchHint_method_iff {u : CodeUnit} {before text after url : List Char} {options : Entries}
    (cut : u.body.toList = before ++ (text ++ after)) (isFetch : IsFetch url options text)
    (absolute : url.head? = some '/') :
    ((∃ p ∈ placesIn fetchCall u.body, p.start = before.length) ↔ endsInWord false before = false ∧
      ∀ q ∈ placesIn fetchCall u.body, q.start < before.length → q.stop ≤ before.length) ∧
    ∀ p ∈ placesIn fetchCall u.body, p.start = before.length →
      ∃ hint ∈ hints u, hintOf p.value = some hint ∧ hintOf ⟨methodOf options.taken, url⟩ = some hint ∧
        (hintOf ⟨methodOf options.own, url⟩ = some hint ↔ methodOf options.taken = methodOf options.own) ∧
        (options.Readable → hintOf ⟨methodOf options.own, url⟩ = some hint) := by
  obtain ⟨path, isPath⟩ := requestPath?_of_slash absolute
  obtain ⟨starts, values⟩ := mem_placesIn_fetchCall_iff cut isFetch
  refine ⟨starts, fun p placed here => ?_⟩
  have value := values p placed here
  obtain ⟨hint, made⟩ : ∃ hint, hintOf ⟨methodOf options.taken, url⟩ = some hint := by
    rw [hintOf, isPath]
    exact ⟨_, rfl⟩
  have isMember : hint ∈ hints u := by
    refine List.mem_filterMap.mpr ⟨p.value, List.mem_append_left _ (value_mem_matchesIn fetchCall placed), ?_⟩
    rw [value, made]
  have agrees : hintOf ⟨methodOf options.own, url⟩ = some hint ↔
      methodOf options.taken = methodOf options.own := by
    rw [← made, hintOf_eq_iff isPath, eq_comm]
  refine ⟨hint, isMember, by rw [value, made], made, agrees, fun readable => agrees.mpr ?_⟩
  rw [readable.taken_eq_own]

/-- A unit with the given body. -/
def unitOfBody (body : String) : CodeUnit :=
  { name := "m", kind := .function, file := "src/client.ts", params := "()", body, declaration := ""
    firstLine := 1, lastLine := 1, isAsync := false, exported := false, defaultExport := false, docs := none }

/-- Options with the method in front of an object, which has an entry of that name too. -/
def methodFirst : Entries :=
  .text ⟨"method".toList, false⟩ "put".toList
    (.object ⟨"headers".toList, false⟩ (.text ⟨"method".toList, false⟩ "x".toList .nil) .nil)

def methodFirstBody : String :=
  "\x7b fetch(\"/api/orders\", \x7b method: \"put\", headers: \x7b method: \"x\" \x7d \x7d); \x7d"

/-- A method in front of all objects is the one in the hint. -/
theorem fetchHint_method_put :
    hintOf ⟨"PUT".toList, "/api/orders".toList⟩ ∈ (hints (unitOfBody methodFirstBody)).map some := by
  have cut : (unitOfBody methodFirstBody).body.toList =
      "\x7b ".toList ++ (printFetch "/api/orders".toList methodFirst ++ "; \x7d".toList) := by
    decide +kernel
  have isFetch : IsFetch "/api/orders".toList methodFirst (printFetch "/api/orders".toList methodFirst) :=
    isFetch_printFetch (by decide) (by decide)
  obtain ⟨starts, made⟩ := fetchHint_method_iff cut isFetch (by decide)
  obtain ⟨p, placed, here⟩ := starts.mpr ⟨by decide, by decide +kernel⟩
  obtain ⟨hint, isMember, -, -, -, own⟩ := made p placed here
  have readable : methodFirst.Readable := .method rfl (by decide) (by decide)
  have method : methodOf methodFirst.own = "PUT".toList := by decide +kernel
  rw [← method, own readable]
  exact List.mem_map_of_mem isMember

/-- Options with an object in front of the method. -/
def objectFirst : Entries :=
  .object ⟨"headers".toList, false⟩ (.text ⟨"accept".toList, false⟩ "json".toList .nil)
    (.text ⟨"method".toList, false⟩ "POST".toList .nil)

def objectFirstBody : String :=
  "\x7b fetch(\"/api/orders\", \x7b headers: \x7b accept: \"json\" \x7d, method: \"POST\" \x7d); \x7d"

/-- Behind an object the method is not found, and the hint names another one. -/
theorem fetchHint_method_behind_object :
    (unitOfBody objectFirstBody).body.toList =
      "\x7b ".toList ++ (printFetch "/api/orders".toList objectFirst ++ "; \x7d".toList) ∧
    IsFetch "/api/orders".toList objectFirst (printFetch "/api/orders".toList objectFirst) ∧
    methodOf objectFirst.own = "POST".toList ∧
    (hints (unitOfBody objectFirstBody)).map (·.target) = [.literal "GET /api/orders"] :=
  ⟨by decide +kernel, isFetch_printFetch (by decide) (by decide), by decide +kernel, by decide +kernel⟩

end CallAtlas.Routes
