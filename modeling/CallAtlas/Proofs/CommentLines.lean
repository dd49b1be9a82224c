import CallAtlas.Doc.Comment
import CallAtlas.Proofs.NormalPaths
import CallAtlas.Proofs.TrimmedTexts

/-!
# The lines of a comment

Each line of a comment stands in a frame of blanks and a star.  Without its frame a line is what was written
there, up to blanks at its end (`bare_framed`).  These blanks are never seen, and a carriage return is one of
them, so it does not matter which line ends a comment has (`ofRaw?_withReturns`).
-/

namespace CallAtlas.Text

/-! ## Cutting at line feeds -/

theorem splitFrom_ne_nil (p : Char → Bool) (acc cs : List Char) : splitFrom p acc cs ≠ [] := by
  induction cs generalizing acc with
  | nil => simp [splitFrom]
  | cons c cs inductionHypothesis =>
    rw [splitFrom]
    split
    · simp
    · exact inductionHypothesis (c :: acc)

theorem lines_append {line : List Char} (unbroken : '\n' ∉ line) (rest : List Char) :
    lines (line ++ '\n' :: rest) = dropReturn line :: lines rest := by
  have free : ∀ c ∈ line, decide (c = '\n') = false := fun c member =>
    decide_eq_false fun same => unbroken (same ▸ member)
  have cut : splitAt (· = '\n') (line ++ '\n' :: rest) = line :: splitAt (· = '\n') rest := by
    rw [splitAt, splitFrom_append_cons free (by decide)]
    rfl
  obtain ⟨first, more, later⟩ : ∃ first more, splitAt (· = '\n') rest = first :: more :=
    List.exists_cons_of_ne_nil (splitFrom_ne_nil (· = '\n') [] rest)
  simp only [lines, cut, later, List.dropLast_cons_cons, List.map_cons, List.getLast?_cons_cons, List.cons_append]

end CallAtlas.Text

namespace CallAtlas.DocComment

open Text

/-! ## Frames -/

theorem bare_dropReturn (line : List Char) : bare (dropReturn line) = bare line := by
  unfold dropReturn
  split
  · rename_i last
    obtain ⟨front, rfl⟩ := List.getLast?_eq_some_iff.mp last
    have returnBlank : ∀ c ∈ ['\r'], isBlank c = true := by simp [isBlank]
    rw [List.dropLast_concat, bare, bare, trim_append_of_blank returnBlank]
  · rfl

theorem bare_framed (line : List Char) : bare (' ' :: '*' :: ' ' :: line) = trimEnd line := by
  have framed : trim (' ' :: '*' :: ' ' :: line) = '*' :: trimEnd (' ' :: line) := by
    have solid : isBlank '*' = false := by decide
    rw [trim_cons_of_isBlank isBlank_space, trim_cons_of_solid solid]
  have inside : stripChar ' ' (trimEnd (' ' :: line)) = trimEnd line := by
    rw [trimEnd_cons_of_isBlank isBlank_space]
    split
    · rename_i nothing
      rw [nothing]
      rfl
    · rfl
  have star : stripChar '*' ('*' :: trimEnd (' ' :: line)) = trimEnd (' ' :: line) := rfl
  rw [bare, framed, star, inside, trimEnd_trimEnd]

theorem map_bare_lines_append {line : List Char} (unbroken : '\n' ∉ line) (rest : List Char) :
    (lines (line ++ '\n' :: rest)).map bare = bare line :: (lines rest).map bare := by
  rw [lines_append unbroken, List.map_cons, bare_dropReturn]

/-! ## Line ends -/

/-- The text with another text in the place of every line feed. -/
def withLineEnds (lineEnd cs : List Char) : List Char := cs.flatMap fun c => if c = '\n' then lineEnd else [c]

/-- The text with a carriage return in front of every line feed. -/
def withReturns (text : String) : String := String.ofList (withLineEnds ['\r', '\n'] text.toList)

section

variable {lineEnd : List Char}

theorem withLineEnds_append (cs rest : List Char) :
    withLineEnds lineEnd (cs ++ rest) = withLineEnds lineEnd cs ++ withLineEnds lineEnd rest :=
  List.flatMap_append

theorem withLineEnds_cons_of_ne {c : Char} (other : c ≠ '\n') (cs : List Char) :
    withLineEnds lineEnd (c :: cs) = c :: withLineEnds lineEnd cs := by
  simp [withLineEnds, other]

theorem withLineEnds_of_unbroken {line : List Char} (unbroken : '\n' ∉ line) :
    withLineEnds lineEnd line = line := by
  induction line with
  | nil => rfl
  | cons c line inductionHypothesis =>
    simp only [List.mem_cons, not_or] at unbroken
    rw [withLineEnds_cons_of_ne (Ne.symm unbroken.1), inductionHypothesis unbroken.2]

theorem reverse_withLineEnds (cs : List Char) :
    (withLineEnds lineEnd cs).reverse = withLineEnds lineEnd.reverse cs.reverse := by
  rw [withLineEnds, List.reverse_flatMap, withLineEnds]
  congr 1
  funext c
  simp only [Function.comp]
  split <;> rfl

theorem isBlank_of_mem_withLineEnds {cs : List Char} (endBlank : ∀ c ∈ lineEnd, isBlank c = true)
    (blank : ∀ c ∈ cs, isBlank c = true) : ∀ c ∈ withLineEnds lineEnd cs, isBlank c = true := by
  intro c member
  obtain ⟨d, inside, place⟩ := List.mem_flatMap.mp member
  split at place
  · exact endBlank c place
  · rw [List.mem_singleton.mp place]
    exact blank d inside

/-- A visible character at the start stands there in the text itself. -/
theorem cons_of_withLineEnds {cs rest : List Char} {c : Char} (endBlank : ∀ d ∈ lineEnd, isBlank d = true)
    (nonempty : lineEnd ≠ []) (solid : isBlank c = false) (same : withLineEnds lineEnd cs = c :: rest) :
    ∃ tail, cs = c :: tail ∧ withLineEnds lineEnd tail = rest := by
  cases cs with
  | nil => cases same
  | cons d tail =>
    by_cases isEnd : d = '\n'
    · obtain ⟨e, more, rfl⟩ := List.exists_cons_of_ne_nil nonempty
      rw [withLineEnds, List.flatMap_cons, if_pos isEnd, List.cons_append, List.cons.injEq] at same
      rw [← same.1, endBlank e List.mem_cons_self] at solid
      cases solid
    · rw [withLineEnds_cons_of_ne isEnd, List.cons.injEq] at same
      exact ⟨tail, by rw [same.1], same.2⟩

theorem head?_withLineEnds {cs : List Char} (first : ∀ c, cs.head? = some c → isBlank c = false) :
    (withLineEnds lineEnd cs).head? = cs.head? := by
  cases cs with
  | nil => rfl
  | cons c cs =>
    have other : c ≠ '\n' := by
      rintro rfl
      cases first '\n' rfl
    rw [withLineEnds_cons_of_ne other]
    rfl

theorem trim_withLineEnds (endBlank : ∀ c ∈ lineEnd, isBlank c = true) (cs : List Char) :
    trim (withLineEnds lineEnd cs) = withLineEnds lineEnd (trim cs) := by
  obtain ⟨front, back, parts, frontBlank, backBlank, first, last⟩ := exists_around_trim cs
  have spread : withLineEnds lineEnd cs = withLineEnds lineEnd front ++ withLineEnds lineEnd (trim cs) ++
      withLineEnds lineEnd back := by
    rw [← withLineEnds_append, ← withLineEnds_append, ← parts]
  rw [spread]
  refine trimMatches_enclosed (isBlank_of_mem_withLineEnds endBlank frontBlank)
    (isBlank_of_mem_withLineEnds endBlank backBlank) ?_ ?_
  · intro c isFirst
    rw [head?_withLineEnds first] at isFirst
    exact first c isFirst
  · intro c isLast
    have reversed : ∀ d, (trim cs).reverse.head? = some d → isBlank d = false := by
      intro d isFirst
      rw [List.head?_reverse] at isFirst
      exact last d isFirst
    rw [← List.head?_reverse, reverse_withLineEnds, head?_withLineEnds reversed, List.head?_reverse] at isLast
    exact last c isLast

theorem dropOpenings_withLineEnds (endBlank : ∀ c ∈ lineEnd, isBlank c = true) (nonempty : lineEnd ≠ [])
    (cs : List Char) : dropOpenings (withLineEnds lineEnd cs) = withLineEnds lineEnd (dropOpenings cs) := by
  induction cs using dropOpenings.induct with
  | case1 cs inductionHypothesis => exact inductionHypothesis
  | case2 cs notOpening =>
    rw [dropOpenings.eq_2 cs notOpening]
    refine dropOpenings.eq_2 _ fun rest same => ?_
    obtain ⟨tail, rfl, behindSlash⟩ := cons_of_withLineEnds endBlank nonempty (by decide) same
    obtain ⟨tail, rfl, behindStar⟩ := cons_of_withLineEnds endBlank nonempty (by decide) behindSlash
    obtain ⟨tail, rfl, -⟩ := cons_of_withLineEnds endBlank nonempty (by decide) behindStar
    exact notOpening tail rfl

theorem dropClosingsReversed_withLineEnds (endBlank : ∀ c ∈ lineEnd, isBlank c = true) (nonempty : lineEnd ≠ [])
    (cs : List Char) :
    dropClosingsReversed (withLineEnds lineEnd cs) = withLineEnds lineEnd (dropClosingsReversed cs) := by
  induction cs using dropClosingsReversed.induct with
  | case1 cs inductionHypothesis => exact inductionHypothesis
  | case2 cs notClosing =>
    rw [dropClosingsReversed.eq_2 cs notClosing]
    refine dropClosingsReversed.eq_2 _ fun rest same => ?_
    obtain ⟨tail, rfl, behindSlash⟩ := cons_of_withLineEnds endBlank nonempty (by decide) same
    obtain ⟨tail, rfl, -⟩ := cons_of_withLineEnds endBlank nonempty (by decide) behindSlash
    exact notClosing tail rfl

theorem inner_withLineEnds (endBlank : ∀ c ∈ lineEnd, isBlank c = true) (nonempty : lineEnd ≠ [])
    (raw : List Char) : inner (withLineEnds lineEnd raw) = withLineEnds lineEnd (inner raw) := by
  have reverseBlank : ∀ c ∈ lineEnd.reverse, isBlank c = true := fun c member =>
    endBlank c (List.mem_reverse.mp member)
  rw [inner, trim_withLineEnds endBlank, dropOpenings_withLineEnds endBlank nonempty, reverse_withLineEnds,
    dropClosingsReversed_withLineEnds reverseBlank (by simpa using nonempty), reverse_withLineEnds,
    List.reverse_reverse, inner]

end

theorem map_bare_lines_withReturns (cs : List Char) :
    (lines (withLineEnds ['\r', '\n'] cs)).map bare = (lines cs).map bare := by
  -- Line by line: what stands behind the first line feed is shorter.
  induction length : cs.length using Nat.strongRecOn generalizing cs with
  | ind n inductionHypothesis =>
    by_cases broken : '\n' ∈ cs
    · obtain ⟨line, rest, rfl, unbroken⟩ := List.eq_append_cons_of_mem broken
      have spread : withLineEnds ['\r', '\n'] (line ++ '\n' :: rest) =
          line ++ ['\r'] ++ '\n' :: withLineEnds ['\r', '\n'] rest := by
        rw [withLineEnds_append, withLineEnds_of_unbroken unbroken, List.append_assoc]
        rfl
      have returnBlank : ∀ c ∈ ['\r'], isBlank c = true := by simp [isBlank]
      have bareReturn : bare (line ++ ['\r']) = bare line := by
        rw [bare, bare, trim_append_of_blank returnBlank]
      have shorter : rest.length < n := by
        rw [← length, List.length_append, List.length_cons]
        omega
      rw [spread, map_bare_lines_append (by simpa using unbroken), map_bare_lines_append unbroken, bareReturn,
        inductionHypothesis rest.length shorter rest rfl]
    · rw [withLineEnds_of_unbroken broken]

/-- Whether lines end with or without a carriage return makes no difference to any comment. -/
theorem ofRaw?_withReturns (raw : String) : ofRaw? (withReturns raw) = ofRaw? raw := by
  have endBlank : ∀ c ∈ ['\r', '\n'], isBlank c = true := by simp [isBlank]
  have sameLines : bareLines (withReturns raw).toList = bareLines raw.toList := by
    rw [withReturns, String.toList_ofList, bareLines, inner_withLineEnds endBlank (by simp),
      map_bare_lines_withReturns, bareLines]
  simp only [ofRaw?, sameLines]

end CallAtlas.DocComment
