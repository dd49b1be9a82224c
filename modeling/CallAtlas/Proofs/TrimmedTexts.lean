import CallAtlas.Text.Blank

/-!
# Trimmed texts

Trimming takes a run of characters off an end, and it stops at the first character that stays.  So it is enough
to know that one: what a text keeps at its end is decided by its last character (`dropEndWhile_append_of_last`),
and a text whose first and last characters stay is all that is left between runs that go
(`trimMatches_enclosed`).
-/

namespace CallAtlas.Text

section

variable {p : Char → Bool}

/-! ## One end -/

theorem dropEndWhile_append_of_all {back : List Char} (all : ∀ c ∈ back, p c = true) (front : List Char) :
    dropEndWhile p (front ++ back) = dropEndWhile p front := by
  have reversed : ∀ c ∈ back.reverse, p c = true := fun c member => all c (List.mem_reverse.mp member)
  rw [dropEndWhile, List.reverse_append, List.dropWhile_append_of_pos reversed, dropEndWhile]

/-- A text is kept whole up to a character that stays. -/
theorem dropEndWhile_append_of_last {front : List Char} {c : Char} (last : front.getLast? = some c)
    (stays : p c = false) (back : List Char) : dropEndWhile p (front ++ back) = front ++ dropEndWhile p back := by
  obtain ⟨before, rfl⟩ := List.getLast?_eq_some_iff.mp last
  simp only [dropEndWhile, List.reverse_append, List.dropWhile_append]
  split
  · rename_i nothing
    simp [List.isEmpty_iff.mp nothing, stays]
  · simp

theorem dropEndWhile_of_last {cs : List Char} (last : ∀ c, cs.getLast? = some c → p c = false) :
    dropEndWhile p cs = cs := by
  cases ends : cs.getLast? with
  | none =>
    rw [List.getLast?_eq_none_iff.mp ends]
    rfl
  | some c =>
    have kept := dropEndWhile_append_of_last ends (last c ends) []
    rw [List.append_nil] at kept
    rw [kept]
    exact List.append_nil cs

theorem not_of_getLast?_dropEndWhile {cs : List Char} {c : Char}
    (last : (dropEndWhile p cs).getLast? = some c) : p c = false := by
  rw [dropEndWhile, List.getLast?_reverse] at last
  have stops := List.head?_dropWhile_not p cs.reverse
  simpa [last] using stops

theorem dropEndWhile_dropEndWhile (cs : List Char) : dropEndWhile p (dropEndWhile p cs) = dropEndWhile p cs :=
  dropEndWhile_of_last fun _ => not_of_getLast?_dropEndWhile

theorem dropEndWhile_cons_of_neg {c : Char} (stays : p c = false) (cs : List Char) :
    dropEndWhile p (c :: cs) = c :: dropEndWhile p cs := by
  have last : [c].getLast? = some c := rfl
  exact dropEndWhile_append_of_last last stays cs

theorem dropEndWhile_cons_of_pos {c : Char} (goes : p c = true) (cs : List Char) :
    dropEndWhile p (c :: cs) = if dropEndWhile p cs = [] then [] else c :: dropEndWhile p cs := by
  simp only [dropEndWhile, List.reverse_cons, List.dropWhile_append, List.isEmpty_iff, List.reverse_eq_nil_iff]
  split
  · simp [goes]
  · simp

theorem exists_append_dropEndWhile (cs : List Char) :
    ∃ back, cs = dropEndWhile p cs ++ back ∧ ∀ c ∈ back, p c = true := by
  refine ⟨(cs.reverse.takeWhile p).reverse, ?_, fun c member => ?_⟩
  · rw [dropEndWhile, ← List.reverse_append, List.takeWhile_append_dropWhile, List.reverse_reverse]
  · exact List.all_eq_true.mp List.all_takeWhile c (List.mem_reverse.mp member)

/-! ## Both ends -/

theorem dropWhile_of_head {cs : List Char} (first : ∀ c, cs.head? = some c → p c = false) :
    cs.dropWhile p = cs := by
  cases cs with
  | nil => rfl
  | cons c cs => simp [first c rfl]

theorem trimMatches_of_all {cs : List Char} (all : ∀ c ∈ cs, p c = true) : trimMatches p cs = [] := by
  have gone : cs.dropWhile p = [] := by
    rw [← List.append_nil cs, List.dropWhile_append_of_pos all]
    rfl
  rw [trimMatches, gone]
  rfl

theorem trimMatches_enclosed {front core back : List Char} (frontGoes : ∀ c ∈ front, p c = true)
    (backGoes : ∀ c ∈ back, p c = true) (first : ∀ c, core.head? = some c → p c = false)
    (last : ∀ c, core.getLast? = some c → p c = false) : trimMatches p (front ++ core ++ back) = core := by
  cases core with
  | nil =>
    refine trimMatches_of_all fun c member => ?_
    rw [List.append_nil, List.mem_append] at member
    exact member.elim (frontGoes c) (backGoes c)
  | cons c core =>
    have start : (front ++ (c :: core ++ back)).dropWhile p = c :: core ++ back := by
      rw [List.dropWhile_append_of_pos frontGoes]
      exact dropWhile_of_head fun d isFirst => first d isFirst
    rw [trimMatches, List.append_assoc, start, dropEndWhile_append_of_all backGoes, dropEndWhile_of_last last]

end

/-! ## Blanks -/

@[simp]
theorem isBlank_space : isBlank ' ' = true := by decide

theorem trimEnd_trimEnd (cs : List Char) : trimEnd (trimEnd cs) = trimEnd cs := dropEndWhile_dropEndWhile cs

theorem trimEnd_cons_of_solid {c : Char} (solid : isBlank c = false) (cs : List Char) :
    trimEnd (c :: cs) = c :: trimEnd cs :=
  dropEndWhile_cons_of_neg solid cs

theorem trimEnd_append_of_solid {front : List Char} (solid : ∀ c ∈ front, isBlank c = false) (back : List Char) :
    trimEnd (front ++ back) = front ++ trimEnd back := by
  induction front with
  | nil => rfl
  | cons c front inductionHypothesis =>
    rw [List.cons_append, trimEnd_cons_of_solid (solid c List.mem_cons_self),
      inductionHypothesis fun d member => solid d (List.mem_cons_of_mem c member), List.cons_append]

theorem trimEnd_cons_of_isBlank {c : Char} (blank : isBlank c = true) (cs : List Char) :
    trimEnd (c :: cs) = if trimEnd cs = [] then [] else c :: trimEnd cs :=
  dropEndWhile_cons_of_pos blank cs

theorem solid_of_head?_trimStart {cs : List Char} {c : Char} (first : (trimStart cs).head? = some c) :
    isBlank c = false := by
  have stops := List.head?_dropWhile_not isBlank cs
  rw [trimStart] at first
  simpa [first] using stops

theorem solid_of_getLast?_trimEnd {cs : List Char} {c : Char} (last : (trimEnd cs).getLast? = some c) :
    isBlank c = false :=
  not_of_getLast?_dropEndWhile last

theorem trim_cons_of_isBlank {c : Char} (blank : isBlank c = true) (cs : List Char) : trim (c :: cs) = trim cs := by
  simp [trim, trimStart, blank]

theorem trim_cons_of_solid {c : Char} (solid : isBlank c = false) (cs : List Char) :
    trim (c :: cs) = c :: trimEnd cs := by
  have start : trimStart (c :: cs) = c :: cs := by simp [trimStart, solid]
  rw [trim, start, trimEnd_cons_of_solid solid]

theorem trim_trimEnd (cs : List Char) : trim (trimEnd cs) = trim cs := by
  induction cs with
  | nil => rfl
  | cons c cs inductionHypothesis =>
    by_cases blank : isBlank c = true
    · rw [trim_cons_of_isBlank blank, ← inductionHypothesis, trimEnd_cons_of_isBlank blank]
      split
      · rename_i nothing
        rw [nothing]
      · rw [trim_cons_of_isBlank blank]
    · have solid : isBlank c = false := by simpa using blank
      rw [trimEnd_cons_of_solid solid, trim_cons_of_solid solid, trim_cons_of_solid solid, trimEnd_trimEnd]

/-- Blanks at the end of a text are not seen. -/
theorem trim_append_of_blank {back : List Char} (blank : ∀ c ∈ back, isBlank c = true) (front : List Char) :
    trim (front ++ back) = trim front := by
  rw [← trim_trimEnd, trimEnd, dropEndWhile_append_of_all blank, ← trimEnd, trim_trimEnd]

theorem trimEnd_of_trim {cs : List Char} (trimmed : trim cs = cs) : trimEnd cs = cs := by
  rw [← trimmed, trim, trimEnd_trimEnd]

/-- A text is what trimming leaves of it, with blanks around. -/
theorem exists_around_trim (cs : List Char) :
    ∃ front back, cs = front ++ trim cs ++ back ∧ (∀ c ∈ front, isBlank c = true) ∧
      (∀ c ∈ back, isBlank c = true) ∧ (∀ c, (trim cs).head? = some c → isBlank c = false) ∧
      ∀ c, (trim cs).getLast? = some c → isBlank c = false := by
  obtain ⟨back, start, backBlank⟩ := exists_append_dropEndWhile (p := isBlank) (trimStart cs)
  have parts : cs = cs.takeWhile isBlank ++ trimStart cs := List.takeWhile_append_dropWhile.symm
  refine ⟨cs.takeWhile isBlank, back, ?_, ?_, backBlank, ?_, fun c => solid_of_getLast?_trimEnd⟩
  · rw [List.append_assoc, trim, trimEnd, ← start]
    exact parts
  · exact fun c member => List.all_eq_true.mp List.all_takeWhile c member
  · intro c first
    have startFirst : (trimStart cs).head? = some c := by
      rw [start, ← trimEnd, ← trim, List.head?_append, first]
      rfl
    exact solid_of_head?_trimStart startFirst

theorem trim_trim (cs : List Char) : trim (trim cs) = trim cs := by
  obtain ⟨-, -, -, -, -, first, last⟩ := exists_around_trim cs
  have kept : trimMatches isBlank ([] ++ trim cs ++ []) = trim cs :=
    trimMatches_enclosed (by simp) (by simp) first last
  rw [List.nil_append, List.append_nil] at kept
  exact kept

/-! ## Joined pieces -/

theorem joinWith_eq_intercalate (sep : List Char) (pieces : List (List Char)) :
    joinWith sep pieces = sep.intercalate pieces := by
  induction pieces using joinWith.induct with
  | case1 => rfl
  | case2 piece => simp [joinWith]
  | case3 piece second rest inductionHypothesis =>
    rw [joinWith, inductionHypothesis, List.intercalate_cons_cons]

theorem intercalate_concat {sep : List Char} {pieces : List (List Char)} (nonempty : pieces ≠ [])
    (piece : List Char) : sep.intercalate (pieces ++ [piece]) = sep.intercalate pieces ++ sep ++ piece := by
  induction pieces with
  | nil => exact absurd rfl nonempty
  | cons first pieces inductionHypothesis =>
    by_cases more : pieces = []
    · simp [more]
    · rw [List.cons_append, List.intercalate_cons_of_ne_nil (by simp), inductionHypothesis more,
        List.intercalate_cons_of_ne_nil more]
      simp only [List.append_assoc]

end CallAtlas.Text
