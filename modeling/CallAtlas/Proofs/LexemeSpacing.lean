import CallAtlas.Digest.Content
import CallAtlas.Proofs.Lexemes
import Mathlib.Data.List.Induction
import Mathlib.Data.List.TakeWhile

/-!
# Lexemes and spacing

A digest covers a text in a normal form that is made without a look at lexemes.  Yet it keeps them: where a
text has lexemes, its normal form has the same ones, but for the spacing inside of literals
(`Lexes.normalForm`).  The three steps of the normal form are taken one by one: line ends, tabs and runs of
spaces (`Lexes.respace`), blanks in front (`Lexes.trimStart`), and blanks at the end (`Lexes.trimEnd`).
-/

namespace CallAtlas.Lexical

open CallAtlas.Digest CallAtlas.Syntax CallAtlas.Text

def isPad (c : Char) : Bool := c = ' ' || c = '\t'

/-- The text with line feeds only at line ends, and one space for every run of spaces and tabs; `after` tells
    whether a space was just written. -/
def respace : Bool → List Char → List Char
  | _, [] => []
  | _, '\r' :: '\n' :: cs => '\n' :: respace false cs
  | after, c :: cs =>
    if isPad c then if after then respace true cs else ' ' :: respace true cs
    else Mode.seen c :: respace false cs

/-- The lexeme with the spacing inside of a literal brought into one form. -/
def Lexeme.spaced (l : Lexeme) : Lexeme :=
  { l with text := if l.kind.isLiteral then respace false l.text else l.text }

/-! ## The text in one form -/

/-- No line end is cut apart between the two. -/
def Apart (c : Char) (cs : List Char) : Prop := ∀ rest, c = '\r' → cs = '\n' :: rest → False

theorem respace_pad {c : Char} (pad : isPad c = true) (after : Bool) (cs : List Char) :
    respace after (c :: cs) = if after then respace true cs else ' ' :: respace true cs := by
  have apart : Apart c cs := by
    rintro rest rfl -
    cases pad
  rw [respace, if_pos pad]
  exact apart

theorem respace_other {c : Char} {cs : List Char} (other : isPad c = false)
    (apart : Apart c cs) (after : Bool) : respace after (c :: cs) = Mode.seen c :: respace false cs := by
  rw [respace, other, if_neg Bool.false_ne_true]
  exact apart

theorem respace_lineEnd (after : Bool) (cs : List Char) :
    respace after ('\r' :: '\n' :: cs) = '\n' :: respace false cs := by
  rw [respace]

theorem ne_of_isBlank {c d : Char} (blank : isBlank c = true) (solid : isBlank d = false) : c ≠ d := by
  rintro rfl
  rw [solid] at blank
  cases blank

theorem ne_of_not_isBlank {c : Char} (solid : isBlank c = false) :
    isPad c = false ∧ c ≠ '\r' := by
  constructor
  · rw [Bool.eq_false_iff]
    intro pad
    rcases Bool.or_eq_true_iff.mp pad with space | tab
    · rw [of_decide_eq_true space] at solid
      cases solid
    · rw [of_decide_eq_true tab] at solid
      cases solid
  · rintro rfl
    cases solid

theorem respace_solid {c : Char} (solid : isBlank c = false) (after : Bool) (cs : List Char) :
    respace after (c :: cs) = c :: respace false cs := by
  obtain ⟨other, notReturn⟩ := ne_of_not_isBlank solid
  rw [respace_other other fun rest same => absurd same notReturn, Mode.seen, if_neg notReturn]

theorem respace_append {front : List Char} (solid : ∀ c ∈ front, isBlank c = false) (cs : List Char) :
    respace false (front ++ cs) = front ++ respace false cs := by
  induction front with
  | nil => rfl
  | cons c front inductionHypothesis =>
    rw [List.cons_append, respace_solid (solid c List.mem_cons_self),
      inductionHypothesis fun d member => solid d (List.mem_cons_of_mem c member), List.cons_append]

theorem expandTabs_cons (c : Char) (cs : List Char) :
    expandTabs (c :: cs) = (if c = '\t' then [' ', ' ', ' ', ' '] else [c]) ++ expandTabs cs := rfl

/-- Line ends, tabs and runs of spaces can be brought into one form in one go. -/
theorem collapseSpaces_eq_respace (after : Bool) (cs : List Char) :
    collapseSpaces after (expandTabs (unifyLineEnds cs)) = respace after cs := by
  induction cs using unifyLineEnds.induct generalizing after with
  | case1 => rfl
  | case2 cs inductionHypothesis =>
    rw [unifyLineEnds, expandTabs_cons, respace_lineEnd, ← inductionHypothesis]
    rfl
  | case3 c cs apart inductionHypothesis =>
    rw [unifyLineEnds, expandTabs_cons]
    · by_cases space : c = ' '
      · subst space
        rw [respace_pad rfl, ← inductionHypothesis]
        cases after <;> rfl
      · by_cases tab : c = '\t'
        · subst tab
          rw [respace_pad rfl, ← inductionHypothesis]
          cases after <;> rfl
        · rw [respace_other (by simp [isPad, space, tab]) apart, ← inductionHypothesis, Mode.seen]
          by_cases lineEnd : c = '\r'
          · subst lineEnd
            rfl
          · simp [lineEnd, tab, space, collapseSpaces]
    · exact apart

theorem normalForm_eq_trim_respace (cs : List Char) : normalForm cs = trim (respace false cs) := by
  rw [normalForm, collapseSpaces_eq_respace]

theorem isLineEnd_seen (c : Char) : isLineEnd (Mode.seen c) = isLineEnd c := by
  unfold Mode.seen
  split
  · rename_i lineEnd
    rw [lineEnd]
    rfl
  · rfl

theorem isSpace_seen {c : Char} (blank : isSpace c = true) : isSpace (Mode.seen c) = true := by
  unfold Mode.seen
  split
  · rfl
  · exact blank

theorem isLineEnd_pad {c : Char} (pad : isPad c = true) : isLineEnd c = false := by
  rcases Bool.or_eq_true_iff.mp pad with space | tab
  · rw [of_decide_eq_true space]
    rfl
  · rw [of_decide_eq_true tab]
    rfl

theorem any_isLineEnd_respace (after : Bool) (cs : List Char) :
    (respace after cs).any isLineEnd = cs.any isLineEnd := by
  induction cs using unifyLineEnds.induct generalizing after with
  | case1 => rfl
  | case2 cs inductionHypothesis =>
    rw [respace_lineEnd]
    rfl
  | case3 c cs apart inductionHypothesis =>
    rw [List.any_cons]
    by_cases pad : isPad c = true
    · rw [respace_pad pad, isLineEnd_pad pad, Bool.false_or]
      cases after with
      | true => exact inductionHypothesis true
      | false =>
        rw [if_neg Bool.false_ne_true, List.any_cons, inductionHypothesis]
        rfl
    · rw [respace_other (by simpa using pad) apart, List.any_cons, inductionHypothesis, isLineEnd_seen]

/-! ## Quoted texts and comments -/

namespace Mode

/-- A tab does what a space does. -/
theorem step_tab (m : Mode) : m.step '\t' = m.step ' ' := by
  cases m with
  | string double => cases double <;> rfl
  | _ => rfl

/-- A second space does nothing. -/
theorem step_space_again {m next : Mode} (stepped : m.step ' ' = some next) :
    next.step ' ' = some next := by
  cases m with
  | string double => cases double <;> cases stepped <;> rfl
  | stringEscape double => cases double <;> cases stepped <;> rfl
  | _ => cases stepped <;> rfl

theorem step_pad {c : Char} (pad : isPad c = true) (m : Mode) :
    m.step (seen c) = m.step ' ' := by
  rcases Bool.or_eq_true_iff.mp pad with space | tab
  · rw [of_decide_eq_true space]
    rfl
  · rw [of_decide_eq_true tab]
    exact step_tab m

theorem seen_ne_return (c : Char) : seen c ≠ '\r' := by
  unfold seen
  split
  · decide
  · assumption

theorem run_cons {c : Char} {cs : List Char} (apart : Apart c cs) (m : Mode) :
    m.run (c :: cs) = (m.step (seen c)).elim ([], m, c :: cs) fun next =>
      (c :: (run next cs).1, (run next cs).2) := by
  rw [run]
  · cases m.step (seen c) <;> rfl
  · exact apart

theorem run_cons_of_ne {c : Char} (notReturn : c ≠ '\r') (cs : List Char) (m : Mode) :
    m.run (c :: cs) = (m.step c).elim ([], m, c :: cs) fun next =>
      (c :: (run next cs).1, (run next cs).2) := by
  rw [run_cons fun rest same => absurd same notReturn, seen, if_neg notReturn]

/-- What is read, and where it ends, does not depend on the spacing.  In front a space may be missing that
    would change nothing. -/
theorem run_respace (m : Mode) (cs : List Char) (after : Bool)
    (ready : after = true → m.step ' ' = some m) :
    m.run (respace after cs) =
      (respace after (m.run cs).1, (m.run cs).2.1, respace false (m.run cs).2.2) := by
  induction cs using unifyLineEnds.induct generalizing m after with
  | case1 => rfl
  | case2 cs inductionHypothesis =>
    rw [respace_lineEnd, run_cons_of_ne (by decide), run]
    cases stepped : m.step '\n' with
    | none =>
      dsimp only [Option.elim_none]
      rw [respace_lineEnd, respace]
    | some next =>
      dsimp only [Option.elim_some]
      rw [inductionHypothesis next false (by simp), respace_lineEnd]
  | case3 c cs apart inductionHypothesis =>
    rw [run_cons apart]
    by_cases pad : isPad c = true
    · rw [step_pad pad, respace_pad pad]
      cases stepped : m.step ' ' with
      | none =>
        -- Then no space is missing in front.
        have written : after = false := by
          cases after with
          | false => rfl
          | true =>
            rw [ready rfl] at stepped
            cases stepped
        rw [written, if_neg Bool.false_ne_true, run_cons_of_ne (by decide), stepped]
        dsimp only [Option.elim_none]
        rw [respace_pad pad, respace, if_neg Bool.false_ne_true]
      | some next =>
        have again := step_space_again stepped
        dsimp only [Option.elim_some]
        cases after with
        | true =>
          rw [ready rfl] at stepped
          cases stepped
          rw [if_pos rfl, inductionHypothesis m true fun _ => again, respace_pad pad, if_pos rfl]
        | false =>
          rw [if_neg Bool.false_ne_true, run_cons_of_ne (by decide), stepped]
          dsimp only [Option.elim_some]
          rw [inductionHypothesis next true fun _ => again, respace_pad pad, if_neg Bool.false_ne_true]
    · have other : isPad c = false := by simpa using pad
      rw [respace_other other apart, run_cons_of_ne (seen_ne_return c)]
      cases stepped : m.step (seen c) with
      | none =>
        dsimp only [Option.elim_none]
        rw [respace_other other apart, respace]
      | some next =>
        -- What is read behind a carriage return does not start with a line feed either.
        have stillApart : Apart c (next.run cs).1 := by
          intro rest same begins
          have whole := run_append next cs
          rw [begins, List.cons_append] at whole
          exact apart _ same whole.symm
        dsimp only [Option.elim_some]
        rw [inductionHypothesis next false (by simp), respace_other other stillApart]

end Mode

/-! ## Lexemes and gaps in another spacing -/

/-- A blank stays a blank, if not always the same. -/
theorem exists_respace_of_isBlank {c : Char} (blank : isBlank c = true) (cs : List Char) :
    ∃ d ds, respace false (c :: cs) = d :: ds ∧ isBlank d = true := by
  by_cases pad : isPad c = true
  · exact ⟨' ', respace true cs, respace_pad pad false cs, rfl⟩
  · by_cases lineEnd : c = '\r'
    · subst lineEnd
      refine ⟨'\n', ?_⟩
      by_cases both : ∃ rest, cs = '\n' :: rest
      · obtain ⟨rest, rfl⟩ := both
        exact ⟨_, respace_lineEnd false rest, rfl⟩
      · exact ⟨_, respace_other rfl (fun rest _ same => both ⟨rest, same⟩) false, rfl⟩
    · refine ⟨c, respace false cs, ?_, blank⟩
      rw [respace_other (by simpa using pad) fun rest same => absurd same lineEnd, Mode.seen,
        if_neg lineEnd]

theorem head?_respace_eq_some_iff {c : Char} (solid : isBlank c = false) (cs : List Char) :
    (respace false cs).head? = some c ↔ cs.head? = some c := by
  cases cs with
  | nil => rfl
  | cons d ds =>
    by_cases blank : isBlank d = true
    · obtain ⟨e, es, form, stillBlank⟩ := exists_respace_of_isBlank blank ds
      simp [form, ne_of_isBlank blank solid, ne_of_isBlank stillBlank solid]
    · rw [respace_solid (by simpa using blank)]
      rfl

theorem startsGap_respace (c : Char) (cs : List Char) :
    startsGap (c :: respace false cs) = startsGap (c :: cs) := by
  have slash := head?_respace_eq_some_iff (show isBlank '/' = false from rfl) cs
  have star := head?_respace_eq_some_iff (show isBlank '*' = false from rfl) cs
  simp only [startsGap, Bool.beq_eq_decide_eq, slash, star]

theorem takeWhile_respace (cs : List Char) :
    (respace false cs).takeWhile (fun c => !isBlank c) = cs.takeWhile fun c => !isBlank c := by
  induction cs with
  | nil => rfl
  | cons c cs inductionHypothesis =>
    by_cases blank : isBlank c = true
    · obtain ⟨d, ds, form, stillBlank⟩ := exists_respace_of_isBlank blank cs
      simp [form, blank, stillBlank]
    · rw [respace_solid (by simpa using blank)]
      simp [blank, inductionHypothesis]

theorem dropWhile_respace (cs : List Char) :
    (respace false cs).dropWhile (fun c => !isBlank c) =
      respace false (cs.dropWhile fun c => !isBlank c) := by
  induction cs with
  | nil => rfl
  | cons c cs inductionHypothesis =>
    by_cases blank : isBlank c = true
    · obtain ⟨d, ds, form, stillBlank⟩ := exists_respace_of_isBlank blank cs
      simp [form, blank, stillBlank]
    · rw [respace_solid (by simpa using blank)]
      simp [blank, inductionHypothesis]

theorem opening?_of_isBlank {c : Char} (blank : isBlank c = true) (goal : Goal) :
    opening? goal c = none := by
  have ne : ∀ d : Char, isBlank d = false → c ≠ d := fun _ => ne_of_isBlank blank
  simp [opening?, ne doubleQuote rfl, ne singleQuote rfl, ne backtick rfl, ne '\x7d' rfl, ne '/' rfl]

/-- No lexeme starts with a blank. -/
theorem not_isBlank_of_lexeme? {goal : Goal} {c : Char} {cs : List Char} {found : Lexeme × List Char}
    (read : lexeme? goal (c :: cs) = some found) : isBlank c = false := by
  rw [Bool.eq_false_iff]
  intro blank
  unfold lexeme? at read
  split at read
  · cases read
  · simp [opening?_of_isBlank blank, blank, solid?] at read

theorem isLiteral_of_literalKind? {c : Char} {first last : Mode} {kind : Kind}
    (ends : literalKind? c first last = some kind) : kind.isLiteral = true := by
  unfold literalKind? at ends
  split at ends <;> cases ends <;> rfl

theorem solid?_isBlank_eq_false {cs rest : List Char} {l : Lexeme}
    (found : solid? (cs.takeWhile fun c => !isBlank c) = some (l, rest)) :
    ∀ c ∈ rest, isBlank c = false := by
  intro c member
  have inside : c ∈ cs.takeWhile fun c => !isBlank c := by
    rw [← (solid?_append found).1]
    exact List.mem_append_right l.text member
  simpa using List.mem_takeWhile_imp inside

/-- The same lexeme is read, but for the spacing inside of a literal. -/
theorem lexeme?_respace {goal : Goal} {cs rest : List Char} {l : Lexeme}
    (read : lexeme? goal cs = some (l, rest)) (after : Bool) :
    lexeme? goal (respace after cs) = some (l.spaced, respace false rest) := by
  cases cs with
  | nil => cases read
  | cons c cs =>
    have solid := not_isBlank_of_lexeme? read
    have taken := takeWhile_respace (c :: cs)
    have dropped := dropWhile_respace (c :: cs)
    rw [respace_solid solid] at taken dropped ⊢
    unfold lexeme? at read ⊢
    rw [startsGap_respace]
    split at read
    · cases read
    · rename_i noGap
      rw [if_neg noGap]
      dsimp only at read ⊢
      -- A literal is read by its mode; anything else ends before the next blank, which stays in its place.
      cases opens : opening? goal c with
      | some mode =>
        rw [opens] at read
        obtain ⟨kind, ends, same⟩ := Option.map_eq_some_iff.mp read
        cases same
        dsimp only
        rw [mode.run_respace cs false (by simp), ends, Option.map_some, Lexeme.spaced,
          isLiteral_of_literalKind? ends, if_pos rfl, respace_solid solid]
      | none =>
        rw [opens] at read
        obtain ⟨⟨found, others⟩, ofRun, same⟩ := Option.map_eq_some_iff.mp read
        cases same
        dsimp only
        rw [taken, dropped, ofRun, Option.map_some, Lexeme.spaced, (solid?_append ofRun).2,
          if_neg Bool.false_ne_true, respace_append (solid?_isBlank_eq_false ofRun)]

theorem mark_spaced (l : Lexeme) (newLine : Bool) : l.spaced.mark newLine = l.mark newLine := by
  unfold Lexeme.mark Lexeme.spaced
  cases l.kind.isLiteral <;> rfl

/-- A comment stays a comment. -/
theorem comment?_respace {cs text rest : List Char} (here : comment? cs = some (text, rest)) :
    comment? (respace false cs) = some (respace false text, respace false rest) := by
  cases cs with
  | nil => cases here
  | cons c cs =>
    rw [comment?] at here
    split at here
    · rename_i line
      cases here
      subst line
      rw [respace_solid rfl, comment?, if_pos rfl, Mode.lineComment.run_respace cs false (by simp),
        respace_solid rfl, respace_solid rfl]
    · rename_i noLine
      split at here
      · rename_i block
        cases here
        obtain ⟨rfl, closed⟩ : c = '*' ∧ (Mode.block.run cs).2.1 = .closed := by simpa using block
        rw [respace_solid rfl, comment?, if_neg noLine, Mode.block.run_respace cs false (by simp),
          if_pos (by simpa using closed), respace_solid rfl, respace_solid rfl]
      · cases here

theorem gap?_of_isSpace {c : Char} (blank : isSpace c = true) (cs : List Char) :
    gap? (c :: cs) = some ([c], cs) := by
  rw [gap?, if_pos blank]

/-- A gap is one blank or a comment. -/
theorem gap?_eq_some_iff (cs text rest : List Char) :
    gap? cs = some (text, rest) ↔
      (∃ c, isSpace c = true ∧ text = [c] ∧ cs = c :: rest) ∨
        ∃ ds, cs = '/' :: ds ∧ comment? ds = some (text, rest) := by
  cases cs with
  | nil => simp [gap?]
  | cons c cs =>
    rw [gap?]
    by_cases blank : isSpace c = true
    · have notSlash : c ≠ '/' := by
        rintro rfl
        cases blank
      simp only [blank, if_true, Option.some.injEq, Prod.mk.injEq, List.cons.injEq, notSlash, false_and,
        exists_false, or_false]
      constructor
      · rintro ⟨rfl, rfl⟩
        exact ⟨c, blank, rfl, rfl, rfl⟩
      · rintro ⟨d, -, rfl, rfl, rfl⟩
        exact ⟨rfl, rfl⟩
    · by_cases slash : c = '/'
      · subst slash
        simp only [blank, Bool.false_eq_true, if_false, if_true, List.cons.injEq, true_and,
          exists_eq_left']
        refine ⟨.inr, fun either => either.resolve_left ?_⟩
        rintro ⟨d, space, -, rfl, -⟩
        exact blank space
      · simp only [blank, slash, Bool.false_eq_true, if_false, reduceCtorEq, List.cons.injEq, false_and,
          exists_false, or_false, false_iff]
        rintro ⟨d, space, -, rfl, -⟩
        exact blank space

section

variable {goals : Goals} {past : List Mark} {broken : Bool} {cs : List Char} {out : List Lexeme}

/-- In front of a blank the lexemes are those behind it. -/
theorem lexes_space_iff {c : Char} (blank : isSpace c = true) :
    Lexes goals past broken (c :: cs) out ↔ Lexes goals past (broken || isLineEnd c) cs out := by
  have here := gap?_of_isSpace blank cs
  constructor
  · intro lexed
    cases lexed with
    | gap other later =>
      rw [here] at other
      cases other
      simpa using later
    | lexeme other _ =>
      rw [lexeme?_eq_none_of_gap? here] at other
      cases other
  · intro later
    exact .gap here (by simpa using later)

/-- The same lexemes are read in another spacing, but for the spacing inside of literals. -/
theorem Lexes.respace (lexed : Lexes goals past broken cs out) (after : Bool) :
    Lexes goals past broken (Lexical.respace after cs) (out.map Lexeme.spaced) := by
  induction lexed generalizing after with
  | done => exact .done
  | @gap past broken cs text rest out here later inductionHypothesis =>
    rcases (gap?_eq_some_iff ..).mp here with ⟨c, blank, rfl, rfl⟩ | ⟨ds, rfl, comment⟩
    · simp only [List.any_cons, List.any_nil, Bool.or_false] at inductionHypothesis
      by_cases pad : isPad c = true
      · have behind := inductionHypothesis true
        rw [isLineEnd_pad pad, Bool.or_false] at behind
        rw [respace_pad pad]
        cases after with
        | true => exact behind
        | false => exact (lexes_space_iff rfl).mpr (by simpa [isLineEnd] using behind)
      · have other : isPad c = false := by simpa using pad
        by_cases both : c = '\r' ∧ ∃ more, rest = '\n' :: more
        · -- The line feed alone ends the line as well.
          obtain ⟨rfl, more, rfl⟩ := both
          have behind := (lexes_space_iff rfl).mp (inductionHypothesis false)
          rw [respace_lineEnd]
          exact (lexes_space_iff rfl).mpr (by simpa [isLineEnd] using behind)
        · have apart : Apart c rest := fun more same begins => both ⟨same, more, begins⟩
          rw [respace_other other apart, lexes_space_iff (isSpace_seen blank), isLineEnd_seen]
          exact inductionHypothesis false
    · rw [respace_solid rfl]
      refine .gap ((gap?_eq_some_iff ..).mpr (.inr ⟨_, rfl, comment?_respace comment⟩)) ?_
      rw [any_isLineEnd_respace]
      exact inductionHypothesis false
  | lexeme read later inductionHypothesis =>
    refine .lexeme (lexeme?_respace read after) ?_
    rw [mark_spaced]
    exact inductionHypothesis false

/-! ## Blanks in front -/

/-- It does not matter whether a line ends in front of the first lexeme. -/
theorem Lexes.first (lexed : Lexes goals [] broken cs out) (other : Bool) :
    Lexes goals [] other cs out := by
  generalize start : ([] : List Mark) = past at lexed
  induction lexed generalizing other with
  | done => exact .done
  | gap here _ inductionHypothesis => exact .gap here (inductionHypothesis _ start)
  | lexeme read later _ =>
    subst start
    have never : ∀ flag, lineEnded [] flag = false := fun flag => by simp [lineEnded]
    rw [never] at read later
    exact .lexeme (by rwa [never]) (by rwa [never])

/-- A blank in front of a lexeme separates. -/
theorem Lexes.isSpace_of_isBlank {c : Char} (lexed : Lexes goals past broken (c :: cs) out)
    (blank : isBlank c = true) : isSpace c = true := by
  cases lexed with
  | gap here _ =>
    rcases (gap?_eq_some_iff ..).mp here with ⟨d, space, -, same⟩ | ⟨ds, same, -⟩
    · cases same
      exact space
    · cases same
      cases blank
  | lexeme read _ =>
    rw [not_isBlank_of_lexeme? read] at blank
    cases blank

theorem Lexes.trimStart (lexed : Lexes goals [] broken cs out) :
    Lexes goals [] broken (Text.trimStart cs) out := by
  induction cs generalizing broken with
  | nil => exact lexed
  | cons c cs inductionHypothesis =>
    rw [Text.trimStart, List.dropWhile_cons]
    split
    · rename_i blank
      have behind := (lexes_space_iff (lexed.isSpace_of_isBlank blank)).mp lexed
      exact inductionHypothesis (behind.first broken)
    · exact lexed

end

/-! ## Blanks at the end -/

/-- One more character at the end is left over, or it is read to the end. -/
theorem Mode.run_concat (m : Mode) (cs : List Char) (c : Char) :
    m.run (cs ++ [c]) = ((m.run cs).1, (m.run cs).2.1, (m.run cs).2.2 ++ [c]) ∨
      ((m.run (cs ++ [c])).2.2 = [] ∧ (m.run cs).2.2 = [] ∧
        ∃ before : Mode, before.step (seen c) = some (m.run (cs ++ [c])).2.1) := by
  induction cs using unifyLineEnds.induct generalizing m with
  | case1 =>
    have apart : Apart c [] := fun _ _ same => nomatch same
    rw [List.nil_append, run_cons apart]
    cases stepped : m.step (seen c) with
    | none => exact .inl rfl
    | some next => exact .inr ⟨rfl, rfl, m, stepped⟩
  | case2 cs inductionHypothesis =>
    rw [List.cons_append, List.cons_append, run, run]
    cases stepped : m.step '\n' with
    | none => exact .inl rfl
    | some next =>
      rcases inductionHypothesis next with left | ⟨empty, emptyBefore, last⟩
      · exact .inl (by simp [left])
      · exact .inr ⟨empty, emptyBefore, last⟩
  | case3 d cs apart inductionHypothesis =>
    rw [List.cons_append, run_cons apart]
    by_cases completes : d = '\r' ∧ cs = [] ∧ c = '\n'
    · -- The character at the end completes a line end.
      obtain ⟨rfl, rfl, rfl⟩ := completes
      rw [show seen '\r' = '\n' from rfl, List.nil_append, run]
      cases stepped : m.step '\n' with
      | none => exact .inl rfl
      | some next => exact .inr ⟨rfl, rfl, m, stepped⟩
    · have stillApart : Apart d (cs ++ [c]) := by
        intro rest same begins
        cases cs with
        | nil => exact completes ⟨same, rfl, (List.cons.inj begins).1⟩
        | cons e es => exact apart es same (by rw [(List.cons.inj begins).1])
      rw [run_cons stillApart]
      cases stepped : m.step (seen d) with
      | none => exact .inl rfl
      | some next =>
        rcases inductionHypothesis next with left | ⟨empty, emptyBefore, last⟩
        · exact .inl (by simp [left])
        · exact .inr ⟨empty, emptyBefore, last⟩

/-- The mode behind the last character of a literal or of a closed comment. -/
def Mode.isFirm : Mode → Bool
  | closed | opened | flags => true
  | _ => false

/-- No literal ends with a blank, nor does a comment that is closed. -/
theorem Mode.isFirm_of_isBlank {m last : Mode} {c : Char} (blank : isBlank c = true)
    (stepped : m.step (seen c) = some last) : last.isFirm = false := by
  have stillBlank : isBlank (seen c) = true := by
    unfold seen
    split
    · rfl
    · exact blank
  generalize seen c = d at stepped stillBlank
  have ne : ∀ e : Char, isBlank e = false → d ≠ e := fun _ => ne_of_isBlank stillBlank
  have noName : isNameChar d = false := by simp [isNameChar, stillBlank]
  have inText : inTemplate d = .template := by
    simp [inTemplate, ne backtick rfl, ne '\\' rfl, ne '$' rfl]
  cases m with
  | string double =>
    have noQuote : d ≠ if double then doubleQuote else singleQuote := by
      cases double with
      | true => exact ne doubleQuote rfl
      | false => exact ne singleQuote rfl
    rw [step, if_neg noQuote, if_neg (ne '\\' rfl)] at stepped
    split at stepped
    · cases stepped
    · cases stepped
      rfl
  | _ =>
    by_cases lineEnd : isLineEnd d = true <;>
      simp [step, lineEnd, noName, inText, ne '*' rfl, ne '/' rfl, ne '\\' rfl, ne '\x7b' rfl, ne '[' rfl,
        ne ']' rfl] at stepped <;> cases stepped <;> rfl

theorem isFirm_of_literalKind? {c : Char} {first last : Mode} {kind : Kind}
    (ends : literalKind? c first last = some kind) : last.isFirm = true := by
  unfold literalKind? at ends
  split at ends <;> first | rfl | cases ends

section

variable {c : Char} (blank : isBlank c = true)

include blank

theorem Mode.run_concat_of_isFirm {m : Mode} {cs : List Char}
    (firm : (m.run (cs ++ [c])).2.1.isFirm = true) :
    m.run (cs ++ [c]) = ((m.run cs).1, (m.run cs).2.1, (m.run cs).2.2 ++ [c]) := by
  rcases m.run_concat cs c with left | ⟨-, -, before, stepped⟩
  · exact left
  · rw [isFirm_of_isBlank blank stepped] at firm
    cases firm

theorem startsGap_concat (d : Char) (cs : List Char) :
    startsGap (d :: (cs ++ [c])) = startsGap (d :: cs) := by
  cases cs with
  | nil =>
    have notSlash : c ≠ '/' := ne_of_isBlank blank rfl
    have notStar : c ≠ '*' := ne_of_isBlank blank rfl
    simp [startsGap, notSlash, notStar]
  | cons e cs => rfl

theorem takeWhile_concat (cs : List Char) :
    (cs ++ [c]).takeWhile (fun d => !isBlank d) = cs.takeWhile fun d => !isBlank d := by
  induction cs with
  | nil => simp [blank]
  | cons d cs inductionHypothesis => simp only [List.cons_append, List.takeWhile_cons, inductionHypothesis]

theorem dropWhile_concat (cs : List Char) :
    (cs ++ [c]).dropWhile (fun d => !isBlank d) = (cs.dropWhile fun d => !isBlank d) ++ [c] := by
  induction cs with
  | nil => simp [blank]
  | cons d cs inductionHypothesis =>
    simp only [List.cons_append, List.dropWhile_cons, inductionHypothesis]
    split <;> rfl

/-- A blank at the end does not belong to a lexeme. -/
theorem lexeme?_concat {goal : Goal} {cs rest : List Char} {l : Lexeme}
    (read : lexeme? goal (cs ++ [c]) = some (l, rest)) :
    ∃ less, rest = less ++ [c] ∧ lexeme? goal cs = some (l, less) := by
  cases cs with
  | nil =>
    rw [List.nil_append] at read
    rw [not_isBlank_of_lexeme? read] at blank
    cases blank
  | cons d cs =>
    have taken := takeWhile_concat blank (d :: cs)
    have dropped := dropWhile_concat blank (d :: cs)
    rw [List.cons_append] at read taken dropped
    unfold lexeme? at read ⊢
    rw [startsGap_concat blank] at read
    split at read
    · cases read
    · rename_i noGap
      rw [if_neg noGap]
      dsimp only at read ⊢
      cases opens : opening? goal d with
      | some mode =>
        rw [opens] at read
        obtain ⟨kind, ends, same⟩ := Option.map_eq_some_iff.mp read
        cases same
        have whole := Mode.run_concat_of_isFirm blank (isFirm_of_literalKind? ends)
        rw [whole] at ends ⊢
        exact ⟨_, rfl, by simp [ends]⟩
      | none =>
        rw [opens] at read
        dsimp only at read
        rw [taken, dropped] at read
        obtain ⟨⟨found, others⟩, ofRun, same⟩ := Option.map_eq_some_iff.mp read
        cases same
        exact ⟨_, (List.append_assoc ..).symm, by simp [ofRun]⟩

/-- A blank at the end is left over by a comment, or stands inside of a comment up to the end. -/
theorem comment?_concat {cs text rest : List Char} (here : comment? (cs ++ [c]) = some (text, rest)) :
    (∃ less, rest = less ++ [c] ∧ comment? cs = some (text, less)) ∨
      rest = [] ∧ ∃ shorter, comment? cs = some (shorter, []) := by
  cases cs with
  | nil =>
    rw [List.nil_append, comment?] at here
    split at here
    · rename_i slash
      rw [slash] at blank
      cases blank
    · split at here
      · rename_i block
        rw [Bool.and_eq_true, decide_eq_true_eq] at block
        rw [block.1] at blank
        cases blank
      · cases here
  | cons d cs =>
    rw [List.cons_append, comment?] at here
    rw [comment?]
    split at here
    · rename_i line
      rw [if_pos line]
      cases here
      rcases Mode.lineComment.run_concat cs c with left | ⟨empty, emptyBefore, -⟩
      · exact .inl ⟨_, by rw [left], by rw [left]⟩
      · exact .inr ⟨empty, _, by rw [emptyBefore]⟩
    · rename_i noLine
      rw [if_neg noLine]
      split at here
      · rename_i block
        obtain ⟨star, closed⟩ : d = '*' ∧ (Mode.block.run (cs ++ [c])).2.1 = .closed := by simpa using block
        have whole := Mode.run_concat_of_isFirm blank (by rw [closed]; rfl)
        rw [whole] at closed here
        dsimp only at closed
        cases here
        exact .inl ⟨_, rfl, by simp [star, closed]⟩
      · cases here

/-- Without a blank at the end a text has the same lexemes. -/
theorem Lexes.of_concat {goals : Goals} {past : List Mark} {broken : Bool} {cs : List Char}
    {out : List Lexeme} (lexed : Lexes goals past broken (cs ++ [c]) out) :
    Lexes goals past broken cs out := by
  have nothing : ∀ {past : List Mark} {broken : Bool} {out : List Lexeme},
      Lexes goals past broken [] out → out = [] := fun empty => empty.unique .done
  -- The blank is the last gap, or left over by the first gap or lexeme, or inside of a comment up to the end.
  generalize whole : cs ++ [c] = text at lexed
  induction lexed generalizing cs with
  | done => simp at whole
  | @gap past broken text read rest out here later inductionHypothesis =>
    subst whole
    rcases (gap?_eq_some_iff ..).mp here with ⟨d, space, rfl, form⟩ | ⟨ds, form, comment⟩
    · cases cs with
      | nil =>
        obtain ⟨-, rfl⟩ := List.cons.inj form
        rw [nothing later]
        exact .done
      | cons e es =>
        obtain ⟨rfl, rfl⟩ := List.cons.inj form
        exact .gap (gap?_of_isSpace space es) (inductionHypothesis rfl)
    · cases cs with
      | nil =>
        obtain ⟨rfl, -⟩ := List.cons.inj form
        cases blank
      | cons e es =>
        obtain ⟨rfl, rfl⟩ := List.cons.inj form
        rcases comment?_concat blank comment with ⟨less, rfl, shorter⟩ | ⟨rfl, text, shorter⟩
        · exact .gap ((gap?_eq_some_iff ..).mpr (.inr ⟨es, rfl, shorter⟩)) (inductionHypothesis rfl)
        · rw [nothing later]
          exact .gap ((gap?_eq_some_iff ..).mpr (.inr ⟨es, rfl, shorter⟩)) .done
  | lexeme read later inductionHypothesis =>
    subst whole
    obtain ⟨less, rfl, shorter⟩ := lexeme?_concat blank read
    exact .lexeme shorter (inductionHypothesis rfl)

end

theorem Lexes.trimEnd {goals : Goals} {past : List Mark} {broken : Bool} {cs : List Char}
    {out : List Lexeme} (lexed : Lexes goals past broken cs out) :
    Lexes goals past broken (Text.trimEnd cs) out := by
  induction cs using List.reverseRecOn with
  | nil => exact lexed
  | append_singleton cs c inductionHypothesis =>
    by_cases blank : isBlank c = true
    · have shorter : Text.trimEnd (cs ++ [c]) = Text.trimEnd cs := by
        simp [Text.trimEnd, dropEndWhile, blank]
      rw [shorter]
      exact inductionHypothesis (lexed.of_concat blank)
    · have whole : Text.trimEnd (cs ++ [c]) = cs ++ [c] := by
        simp [Text.trimEnd, dropEndWhile, blank]
      rwa [whole]

/-- The normal form of a text has the same lexemes, but for the spacing inside of literals. -/
theorem Lexes.normalForm {goals : Goals} {broken : Bool} {cs : List Char} {out : List Lexeme}
    (lexed : Lexes goals [] broken cs out) :
    Lexes goals [] broken (Digest.normalForm cs) (out.map Lexeme.spaced) := by
  rw [normalForm_eq_trim_respace]
  exact (lexed.respace false).trimStart.trimEnd

end CallAtlas.Lexical
