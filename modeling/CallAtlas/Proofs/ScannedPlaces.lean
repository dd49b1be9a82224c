import CallAtlas.Framework.Scan

/-!
# Where matches stand in a text

`matchesFrom` gives the matches in a text without saying where they stand.  Here each comes with its place
(`placesFrom`, `map_value_placesFrom`).  A match starts at a place if and only if something can be read
there and no earlier match goes beyond it (`mem_placesIn_iff`).
-/

namespace CallAtlas.Scan

open Text

/-- A match, with the places where it starts and where the text goes on behind it. -/
structure Place (α : Type) where
  start : Nat
  stop : Nat
  value : α

/-- All matches in a text with their places, where the text starts at `start` and its next `skip`
    characters belong to the last match. -/
def placesFrom {α : Type} (m : Matcher α) (start skip : Nat) (inWord : Bool) : List Char → List (Place α)
  | [] => []
  | c :: cs =>
    match skip with
    | skip + 1 => placesFrom m (start + 1) skip (isWord c) cs
    | 0 =>
      match m inWord (c :: cs) with
      | some (a, rest) =>
        ⟨start, start + 1 + (cs.length - rest.length), a⟩ ::
          placesFrom m (start + 1) (cs.length - rest.length) (isWord c) cs
      | none => placesFrom m (start + 1) 0 (isWord c) cs

/-- All matches in a text with their places. -/
def placesIn {α : Type} (m : Matcher α) (text : String) : List (Place α) :=
  placesFrom m 0 0 false text.toList

/-- A word character stands at the end of the text, or in front of it if it is empty. -/
def endsInWord (inWord : Bool) (cs : List Char) : Bool := (cs.getLast?.map isWord).getD inWord

theorem endsInWord_cons (inWord : Bool) (c : Char) (cs : List Char) :
    endsInWord inWord (c :: cs) = endsInWord (isWord c) cs := by
  cases cs with
  | nil => rfl
  | cons d cs =>
    rw [endsInWord, endsInWord, List.getLast?_cons_cons, List.getLast?_eq_some_getLast (by simp)]
    rfl

section

variable {α : Type} (m : Matcher α)

/-- The matches are those that `matchesFrom` gives. -/
theorem map_value_placesFrom (start skip : Nat) (inWord : Bool) (cs : List Char) :
    (placesFrom m start skip inWord cs).map (·.value) = matchesFrom m skip inWord cs := by
  induction cs generalizing start skip inWord with
  | nil => rfl
  | cons c cs inductionHypothesis =>
    cases skip with
    | succ skip => exact inductionHypothesis (start + 1) skip (isWord c)
    | zero =>
      rw [placesFrom, matchesFrom]
      cases m inWord (c :: cs) with
      | none => exact inductionHypothesis (start + 1) 0 (isWord c)
      | some found => simp [inductionHypothesis]

theorem value_mem_matchesIn {text : String} {p : Place α} (placed : p ∈ placesIn m text) :
    p.value ∈ matchesIn m text := by
  have member := List.mem_map_of_mem (f := (·.value)) placed
  rwa [placesIn, map_value_placesFrom] at member

theorem start_le_of_mem_placesFrom {start skip : Nat} {inWord : Bool} {cs : List Char} {p : Place α}
    (placed : p ∈ placesFrom m start skip inWord cs) : start ≤ p.start := by
  induction cs generalizing start skip inWord with
  | nil => cases placed
  | cons c cs inductionHypothesis =>
    cases skip with
    | succ skip => exact Nat.le_of_succ_le (inductionHypothesis placed)
    | zero =>
      rw [placesFrom] at placed
      split at placed
      · rcases List.mem_cons.mp placed with rfl | later
        · exact Nat.le_refl _
        · exact Nat.le_of_succ_le (inductionHypothesis later)
      · exact Nat.le_of_succ_le (inductionHypothesis placed)

/-- The match at `start` itself. -/
theorem mem_placesFrom_start_iff (start skip : Nat) (inWord : Bool) (c : Char) (cs : List Char)
    (p : Place α) :
    p ∈ placesFrom m start skip inWord (c :: cs) ∧ p.start = start ↔
      skip = 0 ∧ ∃ rest, m inWord (c :: cs) = some (p.value, rest) ∧
        p = ⟨start, start + 1 + (cs.length - rest.length), p.value⟩ := by
  have later {skip : Nat} (placed : p ∈ placesFrom m (start + 1) skip (isWord c) cs) : p.start ≠ start :=
    fun here => absurd (start_le_of_mem_placesFrom m placed) (by omega)
  cases skip with
  | succ skip =>
    simp only [Nat.add_one_ne_zero, false_and, iff_false, not_and]
    exact later
  | zero =>
    rw [placesFrom]
    cases m inWord (c :: cs) with
    | none =>
      simp only [reduceCtorEq, false_and, exists_false, and_false, iff_false, not_and]
      exact later
    | some found =>
      obtain ⟨a, rest⟩ := found
      simp only [List.mem_cons, Option.some.injEq, Prod.mk.injEq, true_and]
      constructor
      · rintro ⟨rfl | placed, here⟩
        · exact ⟨rest, ⟨rfl, rfl⟩, rfl⟩
        · exact absurd here (later placed)
      · rintro ⟨_, ⟨rfl, rfl⟩, same⟩
        exact ⟨.inl same, by rw [same]⟩

/-- The scan of a text goes on behind any part of it with the matches of the rest.  It is free to match
    there if and only if no match goes beyond that part. -/
theorem placesFrom_append (start skip : Nat) (inWord : Bool) (before cs : List Char) :
    ∃ earlier skip', placesFrom m start skip inWord (before ++ cs) =
        earlier ++ placesFrom m (start + before.length) skip' (endsInWord inWord before) cs ∧
      (∀ p ∈ earlier, p.start < start + before.length) ∧
      (skip' = 0 ↔ skip ≤ before.length ∧ ∀ p ∈ earlier, p.stop ≤ start + before.length) := by
  induction before generalizing start skip inWord with
  | nil => exact ⟨[], skip, rfl, by simp, by simp⟩
  | cons c before inductionHypothesis =>
    have length : start + (c :: before).length = start + 1 + before.length := by
      rw [List.length_cons]
      omega
    rw [endsInWord_cons, length, List.cons_append]
    cases skip with
    | succ skip =>
      obtain ⟨earlier, skip', same, starts, free⟩ := inductionHypothesis (start + 1) skip (isWord c)
      refine ⟨earlier, skip', same, starts, free.trans (and_congr_left' ?_)⟩
      rw [List.length_cons, Nat.add_le_add_iff_right]
    | zero =>
      rw [placesFrom]
      cases m inWord (c :: (before ++ cs)) with
      | none =>
        obtain ⟨earlier, skip', same, starts, free⟩ := inductionHypothesis (start + 1) 0 (isWord c)
        exact ⟨earlier, skip', same, starts, free.trans (by simp)⟩
      | some found =>
        obtain ⟨a, rest⟩ := found
        obtain ⟨earlier, skip', same, starts, free⟩ :=
          inductionHypothesis (start + 1) ((before ++ cs).length - rest.length) (isWord c)
        refine ⟨⟨start, start + 1 + ((before ++ cs).length - rest.length), a⟩ :: earlier, skip',
          by simp only [same, List.cons_append], ?_, free.trans ?_⟩
        · rw [List.forall_mem_cons]
          exact ⟨by dsimp only; omega, starts⟩
        · simp only [List.forall_mem_cons, Nat.add_le_add_iff_left, Nat.zero_le, true_and]

/-- A match starts at a place if and only if something can be read there, and no match that starts earlier
    goes beyond it. -/
theorem mem_placesIn_iff {text : String} {before cs : List Char} {c : Char}
    (cut : text.toList = before ++ c :: cs) (p : Place α) :
    p ∈ placesIn m text ∧ p.start = before.length ↔
      (∀ q ∈ placesIn m text, q.start < before.length → q.stop ≤ before.length) ∧
      ∃ rest, m (endsInWord false before) (c :: cs) = some (p.value, rest) ∧
        p = ⟨before.length, before.length + 1 + (cs.length - rest.length), p.value⟩ := by
  obtain ⟨earlier, skip, same, starts, free⟩ := placesFrom_append m 0 0 false before (c :: cs)
  simp only [Nat.zero_add, Nat.zero_le, true_and] at same starts free
  rw [placesIn, cut, same]
  have here : p ∈ earlier ++ placesFrom m before.length skip (endsInWord false before) (c :: cs) ∧
      p.start = before.length ↔
        p ∈ placesFrom m before.length skip (endsInWord false before) (c :: cs) ∧
          p.start = before.length := by
    refine and_congr_left fun atPlace => ?_
    rw [List.mem_append, or_iff_right]
    exact fun early => absurd (starts p early) (by omega)
  have earlierStop : (∀ q ∈ earlier ++ placesFrom m before.length skip (endsInWord false before) (c :: cs),
      q.start < before.length → q.stop ≤ before.length) ↔ ∀ q ∈ earlier, q.stop ≤ before.length := by
    constructor
    · exact fun stop q early => stop q (List.mem_append_left _ early) (starts q early)
    · intro stop q member below
      rcases List.mem_append.mp member with early | late
      · exact stop q early
      · exact absurd (start_le_of_mem_placesFrom m late) (by omega)
  rw [here, earlierStop, mem_placesFrom_start_iff, free]

end

end CallAtlas.Scan
