import CallAtlas.Proofs.DigestedLexemes

/-!
# What the normal form of a text keeps

A digest covers texts in normal form.  What is left of a text there is told without looking at the steps that
make it: bring all line ends into one form and take the blanks off both ends (`IsCore`); then the characters other
than spaces and tabs are left (`solids`), and of the spaces and tabs only which gaps they stand in (`Padded`).

The one fact about the steps that everything rests on is `respace_around`: a character that is not blank keeps
what stands in front of it apart from what stands behind it.
-/

namespace CallAtlas.Digest

open CallAtlas.Lexical CallAtlas.Text

/-! ## What a reader sees of a text -/

/-- The second text is the first with every line end turned into a line feed. -/
inductive Unified : List Char → List Char → Prop where
  | nil : Unified [] []
  | pair {cs ds : List Char} : Unified cs ds → Unified ('\r' :: '\n' :: cs) ('\n' :: ds)
  | lone {cs ds : List Char} : cs.head? ≠ some '\n' → Unified cs ds → Unified ('\r' :: cs) ('\n' :: ds)
  | other {c : Char} {cs ds : List Char} : c ≠ '\r' → Unified cs ds → Unified (c :: cs) (c :: ds)

/-- The text begins and ends with characters that are not blank. -/
structure Firm (cs : List Char) : Prop where
  first : ∃ c rest, cs = c :: rest ∧ isBlank c = false
  last : ∃ front c, cs = front ++ [c] ∧ isBlank c = false

/-- What a text holds between the blanks at its ends, with line feeds for line ends. -/
inductive IsCore (text core : List Char) : Prop where
  | within {lines front back : List Char} (unified : Unified text lines) (parts : lines = front ++ core ++ back)
      (frontBlank : ∀ c ∈ front, isBlank c = true) (backBlank : ∀ c ∈ back, isBlank c = true)
      (firm : core = [] ∨ Firm core) : IsCore text core

/-- The characters other than spaces and tabs. -/
def solids (cs : List Char) : List Char := cs.filter fun c => !isPad c

/-- A space or a tab stands in the gap behind the first `k` other characters. -/
def Padded (cs : List Char) (k : Nat) : Prop :=
  ∃ front c back, cs = front ++ c :: back ∧ isPad c = true ∧ (solids front).length = k

/-! ## Line ends -/

theorem unified_unifyLineEnds (cs : List Char) : Unified cs (unifyLineEnds cs) := by
  induction cs using unifyLineEnds.induct with
  | case1 => exact .nil
  | case2 cs inductionHypothesis =>
    rw [unifyLineEnds]
    exact .pair inductionHypothesis
  | case3 c cs apart inductionHypothesis =>
    rw [unifyLineEnds]
    · by_cases lineEnd : c = '\r'
      · subst lineEnd
        refine .lone ?_ inductionHypothesis
        intro follows
        obtain ⟨rest, rfl⟩ := List.head?_eq_some_iff.mp follows
        exact apart rest rfl rfl
      · rw [if_neg lineEnd]
        exact .other lineEnd inductionHypothesis
    · exact apart

theorem Unified.unique {cs ds others : List Char} (first : Unified cs ds) (second : Unified cs others) :
    ds = others := by
  induction first generalizing others with
  | nil =>
    cases second
    rfl
  | pair _ inductionHypothesis =>
    cases second with
    | pair later => rw [inductionHypothesis later]
    | lone alone => exact absurd rfl alone
    | other notReturn => exact absurd rfl notReturn
  | lone alone _ inductionHypothesis =>
    cases second with
    | pair => exact absurd rfl alone
    | lone _ later => rw [inductionHypothesis later]
    | other notReturn => exact absurd rfl notReturn
  | other notReturn _ inductionHypothesis =>
    cases second with
    | pair => exact absurd rfl notReturn
    | lone => exact absurd rfl notReturn
    | other _ later => rw [inductionHypothesis later]

theorem Unified.free {cs ds : List Char} (unified : Unified cs ds) : '\r' ∉ ds := by
  induction unified with
  | nil => simp
  | pair _ inductionHypothesis => simp [inductionHypothesis]
  | lone _ _ inductionHypothesis => simp [inductionHypothesis]
  | other notReturn _ inductionHypothesis => simp [inductionHypothesis, Ne.symm notReturn]

theorem Unified.refl {cs : List Char} (free : '\r' ∉ cs) : Unified cs cs := by
  induction cs with
  | nil => exact .nil
  | cons c cs inductionHypothesis =>
    simp only [List.mem_cons, not_or] at free
    exact .other (Ne.symm free.1) (inductionHypothesis free.2)

/-- Once line ends are line feeds there is nothing left to do about them. -/
theorem Unified.normalForm {cs lines : List Char} (unified : Unified cs lines) :
    normalForm cs = normalForm lines := by
  have left : unifyLineEnds cs = lines := (unified_unifyLineEnds cs).unique unified
  have right : unifyLineEnds lines = lines := (unified_unifyLineEnds lines).unique (.refl unified.free)
  simp only [Digest.normalForm, left, right]

/-! ## A firm character between two texts -/

theorem respace_around {c : Char} (solid : isBlank c = false) (after : Bool) (front back : List Char) :
    respace after (front ++ c :: back) = respace after front ++ c :: respace false back := by
  induction front using unifyLineEnds.induct generalizing after with
  | case1 => exact respace_solid solid after back
  | case2 front inductionHypothesis =>
    rw [List.cons_append, List.cons_append, respace_lineEnd, respace_lineEnd, inductionHypothesis,
      List.cons_append]
  | case3 d front apart inductionHypothesis =>
    rw [List.cons_append]
    cases pad : isPad d with
    | true =>
      rw [respace_pad pad, respace_pad pad]
      cases after with
      | true => exact inductionHypothesis true
      | false => exact congrArg (' ' :: ·) (inductionHypothesis true)
    | false =>
      -- The character cannot be the line feed that would make one line end with the carriage return before it.
      have stillApart : Apart d (front ++ c :: back) := by
        intro rest isReturn follows
        cases front with
        | nil =>
          rw [List.nil_append, List.cons.injEq] at follows
          rw [follows.1] at solid
          cases solid
        | cons e front =>
          rw [List.cons_append, List.cons.injEq] at follows
          exact apart front isReturn (by rw [follows.1])
      rw [respace_other pad stillApart, respace_other pad apart, inductionHypothesis, List.cons_append]

section

variable {core : List Char}

theorem Firm.respace_append (firm : Firm core) (after : Bool) (back : List Char) :
    respace after (core ++ back) = respace after core ++ respace false back := by
  obtain ⟨front, c, rfl, solid⟩ := firm.last
  have alone := respace_around solid after front []
  rw [List.append_assoc, List.singleton_append, respace_around solid, alone, List.append_assoc]
  rfl

theorem Firm.respace_enclosed (firm : Firm core) (after : Bool) (front back : List Char) :
    respace after (front ++ core ++ back) = respace after front ++ respace false core ++ respace false back := by
  obtain ⟨c, rest, form, solid⟩ := firm.first
  have begins : respace after (front ++ (core ++ back)) =
      respace after front ++ respace false (core ++ back) := by
    rw [form, List.cons_append, respace_around solid, respace_solid solid]
  rw [List.append_assoc, begins, firm.respace_append, List.append_assoc]

theorem Firm.respace (firm : Firm core) : Firm (Lexical.respace false core) := by
  constructor
  · obtain ⟨c, rest, rfl, solid⟩ := firm.first
    exact ⟨c, _, respace_solid solid false rest, solid⟩
  · obtain ⟨front, c, rfl, solid⟩ := firm.last
    exact ⟨_, c, respace_around solid false front [], solid⟩

theorem Firm.trim_enclosed (firm : Firm core) (front back : List Char) :
    trim (front ++ core ++ back) = trimStart front ++ core ++ trimEnd back := by
  have start : trimStart (front ++ (core ++ back)) = trimStart front ++ (core ++ back) := by
    obtain ⟨c, rest, rfl, solid⟩ := firm.first
    simp only [trimStart, List.dropWhile_append]
    split
    · rename_i nothing
      simp [List.isEmpty_iff.mp nothing, solid]
    · rfl
  have stop : trimEnd (trimStart front ++ core ++ back) = trimStart front ++ core ++ trimEnd back := by
    obtain ⟨before, c, rfl, solid⟩ := firm.last
    simp only [trimEnd, dropEndWhile, List.reverse_append, List.dropWhile_append]
    split
    · rename_i nothing
      simp [List.isEmpty_iff.mp nothing, solid]
    · simp
  rw [trim, List.append_assoc, start, ← List.append_assoc, stop]

end

/-- The normal form of a text with a firm middle: only the surroundings are trimmed. -/
theorem Firm.normalForm_enclosed {core : List Char} (firm : Firm core) (front back : List Char) :
    normalForm (front ++ core ++ back) =
      trimStart (Lexical.respace false front) ++ Lexical.respace false core ++
        trimEnd (Lexical.respace false back) := by
  rw [normalForm_eq_trim_respace, firm.respace_enclosed, firm.respace.trim_enclosed]

/-! ## The core of a text -/

theorem isBlank_of_mem_respace {cs : List Char} (blank : ∀ c ∈ cs, isBlank c = true) (after : Bool) :
    ∀ c ∈ respace after cs, isBlank c = true := by
  intro c member
  rcases mem_respace member with inside | rfl | rfl
  · exact blank c inside
  · rfl
  · rfl

theorem trimStart_of_blank {cs : List Char} (blank : ∀ c ∈ cs, isBlank c = true) : trimStart cs = [] := by
  simpa [trimStart] using blank

theorem trimEnd_of_blank {cs : List Char} (blank : ∀ c ∈ cs, isBlank c = true) : trimEnd cs = [] := by
  simpa [trimEnd, dropEndWhile] using blank

theorem trim_of_blank {cs : List Char} (blank : ∀ c ∈ cs, isBlank c = true) : trim cs = [] := by
  rw [trim, trimStart_of_blank blank]
  rfl

theorem exists_firm (cs : List Char) :
    (∀ c ∈ cs, isBlank c = true) ∨ ∃ front core back, cs = front ++ core ++ back ∧
      (∀ c ∈ front, isBlank c = true) ∧ (∀ c ∈ back, isBlank c = true) ∧ Firm core := by
  induction cs with
  | nil => simp
  | cons c cs inductionHypothesis =>
    by_cases blank : isBlank c = true
    · rcases inductionHypothesis with allBlank | ⟨front, core, back, rfl, frontBlank, backBlank, firm⟩
      · exact .inl (by simpa [blank] using allBlank)
      · exact .inr ⟨c :: front, core, back, rfl, by simpa [blank] using frontBlank, backBlank, firm⟩
    · -- The first character stays, and with it all that comes before the blanks at the end.
      have solid : isBlank c = false := by simpa using blank
      right
      rcases inductionHypothesis with allBlank | ⟨front, core, back, rfl, -, backBlank, firm⟩
      · exact ⟨[], [c], cs, rfl, by simp, allBlank, ⟨c, [], rfl, solid⟩, ⟨[], c, rfl, solid⟩⟩
      · obtain ⟨before, d, rfl, lastSolid⟩ := firm.last
        exact ⟨[], c :: front ++ (before ++ [d]), back, rfl, by simp, backBlank, ⟨c, _, rfl, solid⟩,
          ⟨c :: front ++ before, d, by simp, lastSolid⟩⟩

theorem exists_isCore (text : List Char) : ∃ core, IsCore text core := by
  have unified := unified_unifyLineEnds text
  rcases exists_firm (unifyLineEnds text) with allBlank | ⟨front, core, back, parts, frontBlank, backBlank, firm⟩
  · have parts : unifyLineEnds text = unifyLineEnds text ++ [] ++ [] := by simp
    exact ⟨[], .within unified parts allBlank (by simp) (.inl rfl)⟩
  · exact ⟨core, .within unified parts frontBlank backBlank (.inr firm)⟩

theorem isBlank_of_parts {front back : List Char} (frontBlank : ∀ c ∈ front, isBlank c = true)
    (backBlank : ∀ c ∈ back, isBlank c = true) : ∀ c ∈ front ++ [] ++ back, isBlank c = true := by
  intro c member
  rw [List.append_nil, List.mem_append] at member
  exact member.elim (frontBlank c) (backBlank c)

theorem IsCore.unique {text core other : List Char} (first : IsCore text core) (second : IsCore text other) :
    core = other := by
  -- Each of them is what trimming leaves of the text with line feeds.
  have trimmed : ∀ {core : List Char}, IsCore text core → core = trim (unifyLineEnds text) := by
    intro core isCore
    obtain ⟨unified, parts, frontBlank, backBlank, firm⟩ := isCore
    rw [(unified_unifyLineEnds text).unique unified, parts]
    rcases firm with rfl | firm
    · rw [trim_of_blank (isBlank_of_parts frontBlank backBlank)]
    · rw [firm.trim_enclosed, trimStart_of_blank frontBlank, trimEnd_of_blank backBlank]
      simp
  rw [trimmed first, trimmed second]

theorem IsCore.normalForm {text core : List Char} (isCore : IsCore text core) :
    Digest.normalForm text = respace false core := by
  obtain ⟨unified, rfl, frontBlank, backBlank, firm⟩ := isCore
  rw [unified.normalForm]
  rcases firm with rfl | firm
  · rw [normalForm_eq_trim_respace,
      trim_of_blank (isBlank_of_mem_respace (isBlank_of_parts frontBlank backBlank) false)]
    rfl
  · rw [firm.normalForm_enclosed, trimStart_of_blank (isBlank_of_mem_respace frontBlank false),
      trimEnd_of_blank (isBlank_of_mem_respace backBlank false)]
    simp

theorem IsCore.free {text core : List Char} (isCore : IsCore text core) : '\r' ∉ core := by
  obtain ⟨unified, rfl, -, -, -⟩ := isCore
  intro member
  exact unified.free (by simp [member])

/-! ## Spaces and tabs -/

theorem solids_cons_pad {c : Char} (pad : isPad c = true) (cs : List Char) : solids (c :: cs) = solids cs := by
  simp [solids, pad]

theorem solids_cons_solid {c : Char} (solid : isPad c = false) (cs : List Char) :
    solids (c :: cs) = c :: solids cs := by
  simp [solids, solid]

theorem not_padded_nil (k : Nat) : ¬ Padded [] k := by
  rintro ⟨front, c, back, split, -⟩
  simp at split

theorem padded_cons_pad {c : Char} (pad : isPad c = true) (cs : List Char) (k : Nat) :
    Padded (c :: cs) k ↔ k = 0 ∨ Padded cs k := by
  constructor
  · rintro ⟨front, d, back, split, dPad, count⟩
    cases front with
    | nil => exact .inl count.symm
    | cons e front =>
      rw [List.cons_append, List.cons.injEq] at split
      rw [← split.1, solids_cons_pad pad] at count
      exact .inr ⟨front, d, back, split.2, dPad, count⟩
  · rintro (rfl | ⟨front, d, back, rfl, dPad, count⟩)
    · exact ⟨[], c, cs, rfl, pad, rfl⟩
    · exact ⟨c :: front, d, back, rfl, dPad, by rw [solids_cons_pad pad, count]⟩

theorem not_padded_cons_zero {c : Char} (solid : isPad c = false) (cs : List Char) : ¬ Padded (c :: cs) 0 := by
  rintro ⟨front, d, back, split, dPad, count⟩
  cases front with
  | nil =>
    rw [List.nil_append, List.cons.injEq] at split
    rw [← split.1, solid] at dPad
    cases dPad
  | cons e front =>
    rw [List.cons_append, List.cons.injEq] at split
    rw [← split.1, solids_cons_solid solid] at count
    cases count

theorem padded_cons_succ {c : Char} (solid : isPad c = false) (cs : List Char) (k : Nat) :
    Padded (c :: cs) (k + 1) ↔ Padded cs k := by
  constructor
  · rintro ⟨front, d, back, split, dPad, count⟩
    cases front with
    | nil => cases count
    | cons e front =>
      rw [List.cons_append, List.cons.injEq] at split
      rw [← split.1, solids_cons_solid solid, List.length_cons, Nat.add_right_cancel_iff] at count
      exact ⟨front, d, back, split.2, dPad, count⟩
  · rintro ⟨front, d, back, rfl, dPad, count⟩
    exact ⟨c :: front, d, back, rfl, dPad, by rw [solids_cons_solid solid, List.length_cons, count]⟩

/-- No tab is left and no two spaces stand next to each other; `after` tells whether a space stands in front. -/
inductive Narrow : Bool → List Char → Prop where
  | nil {after : Bool} : Narrow after []
  | space {cs : List Char} : Narrow true cs → Narrow false (' ' :: cs)
  | solid {after : Bool} {c : Char} {cs : List Char} : isPad c = false → Narrow false cs → Narrow after (c :: cs)

theorem Narrow.not_padded_zero {cs : List Char} (narrow : Narrow true cs) : ¬ Padded cs 0 := by
  cases narrow with
  | nil => exact not_padded_nil 0
  | solid solid => exact not_padded_cons_zero solid _

/-- With one space at most in each gap, a text is known from its other characters and the gaps with a space. -/
theorem Narrow.ext {after : Bool} {cs ds : List Char} (first : Narrow after cs) (second : Narrow after ds)
    (sameSolids : solids cs = solids ds) (sameGaps : ∀ k, Padded cs k ↔ Padded ds k) : cs = ds := by
  have isSpace : isPad ' ' = true := rfl
  induction first generalizing ds with
  | nil =>
    cases second with
    | nil => rfl
    | space =>
      -- The second text has a space in front of everything, and the first has none.
      exact absurd ((sameGaps 0).mpr ((padded_cons_pad isSpace _ 0).mpr (.inl rfl))) (not_padded_nil 0)
    | solid solid =>
      rw [solids_cons_solid solid] at sameSolids
      cases sameSolids
  | @space cs narrow inductionHypothesis =>
    have front : Padded (' ' :: cs) 0 := (padded_cons_pad isSpace cs 0).mpr (.inl rfl)
    cases second with
    | nil => exact absurd ((sameGaps 0).mp front) (not_padded_nil 0)
    | solid solid => exact absurd ((sameGaps 0).mp front) (not_padded_cons_zero solid _)
    | @space ds otherNarrow =>
      rw [solids_cons_pad isSpace, solids_cons_pad isSpace] at sameSolids
      rw [inductionHypothesis otherNarrow sameSolids]
      intro k
      cases k with
      | zero => exact iff_of_false narrow.not_padded_zero otherNarrow.not_padded_zero
      | succ k => simpa [padded_cons_pad isSpace] using sameGaps (k + 1)
  | @solid after c cs solid _ inductionHypothesis =>
    cases second with
    | nil =>
      rw [solids_cons_solid solid] at sameSolids
      cases sameSolids
    | space =>
      exact absurd ((sameGaps 0).mpr ((padded_cons_pad isSpace _ 0).mpr (.inl rfl)))
        (not_padded_cons_zero solid cs)
    | @solid _ d ds otherSolid otherNarrow =>
      rw [solids_cons_solid solid, solids_cons_solid otherSolid, List.cons.injEq] at sameSolids
      rw [sameSolids.1, inductionHypothesis otherNarrow sameSolids.2]
      intro k
      exact ((padded_cons_succ solid cs k).symm.trans (sameGaps (k + 1))).trans (padded_cons_succ otherSolid ds k)

/-! ## What respacing keeps -/

theorem narrow_respace (after : Bool) (cs : List Char) : Narrow after (respace after cs) := by
  induction cs using unifyLineEnds.induct generalizing after with
  | case1 => exact .nil
  | case2 cs inductionHypothesis =>
    rw [respace_lineEnd]
    exact .solid rfl (inductionHypothesis false)
  | case3 c cs apart inductionHypothesis =>
    cases pad : isPad c with
    | true =>
      rw [respace_pad pad]
      cases after with
      | true => exact inductionHypothesis true
      | false => exact .space (inductionHypothesis true)
    | false =>
      rw [respace_other pad apart]
      refine .solid ?_ (inductionHypothesis false)
      unfold Mode.seen
      split
      · rfl
      · exact pad

section

variable {cs : List Char}

/-- Without carriage returns, only the spaces and tabs are changed. -/
theorem respace_cons_of_free {c : Char} (notReturn : c ≠ '\r') (other : isPad c = false) (after : Bool)
    (cs : List Char) : respace after (c :: cs) = c :: respace false cs := by
  rw [respace_other other fun _ isReturn => absurd isReturn notReturn, Mode.seen, if_neg notReturn]

theorem solids_respace (free : '\r' ∉ cs) (after : Bool) : solids (respace after cs) = solids cs := by
  induction cs generalizing after with
  | nil => rfl
  | cons c cs inductionHypothesis =>
    simp only [List.mem_cons, not_or] at free
    cases pad : isPad c with
    | true =>
      rw [respace_pad pad, solids_cons_pad pad]
      cases after with
      | true => exact inductionHypothesis free.2 true
      | false => exact (solids_cons_pad rfl _).trans (inductionHypothesis free.2 true)
    | false =>
      rw [respace_cons_of_free (Ne.symm free.1) pad, solids_cons_solid pad, solids_cons_solid pad,
        inductionHypothesis free.2]

/-- Behind a space the pads in front vanish, so the first gap is left out of the comparison there. -/
theorem padded_respace_or (free : '\r' ∉ cs) (after : Bool) (k : Nat) :
    (after = true ∧ k = 0) ∨ Padded (respace after cs) k ↔ (after = true ∧ k = 0) ∨ Padded cs k := by
  induction cs generalizing after k with
  | nil => rfl
  | cons c cs inductionHypothesis =>
    simp only [List.mem_cons, not_or] at free
    cases pad : isPad c with
    | true =>
      have onward := inductionHypothesis free.2 true k
      rw [respace_pad pad, padded_cons_pad pad]
      cases after with
      | true => simp_all
      | false => simpa [padded_cons_pad (show isPad ' ' = true from rfl)] using onward
    | false =>
      rw [respace_cons_of_free (Ne.symm free.1) pad]
      cases k with
      | zero => simp [not_padded_cons_zero pad]
      | succ k => simpa [padded_cons_succ pad] using inductionHypothesis free.2 false k

theorem padded_respace (free : '\r' ∉ cs) (k : Nat) : Padded (respace false cs) k ↔ Padded cs k := by
  simpa using padded_respace_or free false k

theorem return_not_mem_respace (free : '\r' ∉ cs) (after : Bool) : '\r' ∉ respace after cs := by
  intro member
  rcases mem_respace member with inside | space | lineFeed
  · exact free inside
  · cases space
  · cases lineFeed

theorem respace_respace (free : '\r' ∉ cs) : respace false (respace false cs) = respace false cs := by
  have stillFree := return_not_mem_respace free false
  exact (narrow_respace false _).ext (narrow_respace false _) (solids_respace stillFree false)
    (padded_respace stillFree)

end

/-! ## Normal forms -/

section

variable {text other core otherCore : List Char}

theorem normalForm_eq_iff (first : IsCore text core) (second : IsCore other otherCore) :
    normalForm text = normalForm other ↔
      solids core = solids otherCore ∧ ∀ k, Padded core k ↔ Padded otherCore k := by
  rw [first.normalForm, second.normalForm, ← solids_respace first.free false,
    ← solids_respace second.free false]
  simp only [← padded_respace first.free, ← padded_respace second.free]
  constructor
  · intro same
    rw [same]
    exact ⟨rfl, fun k => Iff.rfl⟩
  · rintro ⟨sameSolids, sameGaps⟩
    exact (narrow_respace false core).ext (narrow_respace false otherCore) sameSolids sameGaps

/-- A normal form has no blanks at its ends, so it is its own core. -/
theorem IsCore.respace (isCore : IsCore text core) :
    IsCore (Lexical.respace false core) (Lexical.respace false core) := by
  have unified := Unified.refl (return_not_mem_respace isCore.free false)
  obtain ⟨-, -, -, -, firm⟩ := isCore
  have parts : Lexical.respace false core = [] ++ Lexical.respace false core ++ [] := by simp
  refine .within unified parts (by simp) (by simp) ?_
  rcases firm with rfl | firm
  · exact .inl rfl
  · exact .inr firm.respace

theorem normalForm_normalForm (text : List Char) : normalForm (normalForm text) = normalForm text := by
  obtain ⟨core, isCore⟩ := exists_isCore text
  rw [isCore.normalForm, isCore.respace.normalForm, respace_respace isCore.free]

end

theorem normalize_eq_iff (x y : String) :
    Digest.normalize x = Digest.normalize y ↔ normalForm x.toList = normalForm y.toList := by
  simp only [Digest.normalize, String.ofList_inj]

theorem contentHash_eq_iff_contentBytes {p p' b b' : String}
    (noCollision : ¬ Sha256.Collide (contentBytes p b) (contentBytes p' b')) :
    contentHash p b = contentHash p' b' ↔ contentBytes p b = contentBytes p' b' := by
  constructor
  · intro same
    by_contra different
    exact noCollision ⟨different, same⟩
  · exact congrArg Sha256.hex

/-- Digests are equal exactly where normal forms are, and normal forms are equal exactly where the texts, without
    the blanks around them and with line feeds for line ends, have the same characters other than spaces and tabs
    and the same gaps with a space or a tab. -/
theorem contentHash_eq_iff :
    (∀ p p' b b' : String, zero ∉ p.toList → zero ∉ p'.toList →
      ¬ Sha256.Collide (contentBytes p b) (contentBytes p' b') →
      (contentHash p b = contentHash p' b' ↔
        Digest.normalize p = Digest.normalize p' ∧ Digest.normalize b = Digest.normalize b')) ∧
    (∀ x : String, Digest.normalize (Digest.normalize x) = Digest.normalize x) ∧
    (∀ x : String, ∃! core, IsCore x.toList core) ∧
    ∀ (x y : String) (core other : List Char), IsCore x.toList core → IsCore y.toList other →
      (Digest.normalize x = Digest.normalize y ↔
        solids core = solids other ∧ ∀ k, Padded core k ↔ Padded other k) := by
  refine ⟨?_, ?_, ?_, ?_⟩
  · intro p p' b b' free otherFree noCollision
    rw [contentHash_eq_iff_contentBytes noCollision, normalize_eq_iff, normalize_eq_iff]
    constructor
    · exact normalize_eq_of_contentBytes free otherFree
    · rintro ⟨front, back⟩
      simp only [contentBytes, Digest.normalize, front, back]
  · intro x
    rw [normalize_eq_iff, Digest.normalize, String.toList_ofList, normalForm_normalForm]
  · intro x
    obtain ⟨core, isCore⟩ := exists_isCore x.toList
    exact ⟨core, isCore, fun _ isOther => isOther.unique isCore⟩
  · intro x y core other first second
    rw [normalize_eq_iff, normalForm_eq_iff first second]

/-- Another layout has the same digest, and text that moves from the parameters to the body is seen. -/
theorem contentHash_eq_iff_layout :
    (¬ Sha256.Collide (contentBytes "(a, b)" "\x7b\r\n\treturn a;\r\x7d")
        (contentBytes " (a,\tb)" "\x7b\n  return a;\n\x7d\n") ∧
      ¬ Sha256.Collide (contentBytes "(a)" "b") (contentBytes "(a)b" "") ∧
      IsCore "\ta\r\n b ".toList "a\n b".toList ∧ IsCore "a\n \tb\r".toList "a\n \tb".toList) ∧
    contentHash "(a, b)" "\x7b\r\n\treturn a;\r\x7d" = contentHash " (a,\tb)" "\x7b\n  return a;\n\x7d\n" ∧
    contentHash "(a)" "b" ≠ contentHash "(a)b" "" ∧
    (solids "a\n b".toList = solids "a\n \tb".toList ∧
      ∀ k, Padded "a\n b".toList k ↔ Padded "a\n \tb".toList k) := by
  obtain ⟨hashes, -, -, texts⟩ := contentHash_eq_iff
  have sameBytes : contentBytes "(a, b)" "\x7b\r\n\treturn a;\r\x7d" =
      contentBytes " (a,\tb)" "\x7b\n  return a;\n\x7d\n" := by decide +kernel
  have differentDigests : Sha256.hex (contentBytes "(a)" "b") ≠ Sha256.hex (contentBytes "(a)b" "") := by
    decide +kernel
  have noCollision : ¬ Sha256.Collide (contentBytes "(a, b)" "\x7b\r\n\treturn a;\r\x7d")
      (contentBytes " (a,\tb)" "\x7b\n  return a;\n\x7d\n") := fun collision => collision.1 sameBytes
  have noOther : ¬ Sha256.Collide (contentBytes "(a)" "b") (contentBytes "(a)b" "") :=
    fun collision => differentDigests collision.2
  have firm : Firm "a\n b".toList := ⟨⟨'a', "\n b".toList, rfl, rfl⟩, ⟨"a\n ".toList, 'b', rfl, rfl⟩⟩
  have otherFirm : Firm "a\n \tb".toList := ⟨⟨'a', "\n \tb".toList, rfl, rfl⟩, ⟨"a\n \t".toList, 'b', rfl, rfl⟩⟩
  have parts : unifyLineEnds "\ta\r\n b ".toList = ['\t'] ++ "a\n b".toList ++ [' '] := by decide
  have otherParts : unifyLineEnds "a\n \tb\r".toList = [] ++ "a\n \tb".toList ++ ['\n'] := by decide
  have first : IsCore "\ta\r\n b ".toList "a\n b".toList :=
    .within (unified_unifyLineEnds _) parts (by simp [isBlank]) (by simp [isBlank]) (.inr firm)
  have second : IsCore "a\n \tb\r".toList "a\n \tb".toList :=
    .within (unified_unifyLineEnds _) otherParts (by simp) (by simp [isBlank]) (.inr otherFirm)
  refine ⟨⟨noCollision, noOther, first, second⟩, ?_, ?_, (texts _ _ _ _ first second).mp (by decide)⟩
  · exact (hashes _ _ _ _ (by decide) (by decide) noCollision).mpr ⟨by decide, by decide⟩
  · intro same
    exact absurd ((hashes _ _ _ _ (by decide) (by decide) noOther).mp same).1 (by decide)

end CallAtlas.Digest
