import CallAtlas.Doc.Comment

/-!
# Types in braces

A text may start with a type in braces, and its end is found by counting: the depth is the number of open braces.
A scan goes on from one character to the next (`DepthStep`) until a brace closes the last open one.  Where it
starts with an open brace, the depth stays above zero as long as it goes on, so no brace is closed where none is
open (`scanBraces_ne_unopened`).

What is taken off ends at the first brace that closes as many as were opened (`FirstClosing`), which is the same as
to say that it is balanced (`Balanced`).  Without such a brace nothing is taken off (`stripType_exact`).
-/

namespace CallAtlas.DocComment

open Text

/-! ## Braces in balance -/

/-- Every brace that is opened is closed, and none is closed that was not opened. -/
inductive Balanced : List Char → Prop where
  | nil : Balanced []
  | other {c : Char} {cs : List Char} : c ≠ '\x7b' → c ≠ '\x7d' → Balanced cs → Balanced (c :: cs)
  | braces {inside rest : List Char} : Balanced inside → Balanced rest →
      Balanced ('\x7b' :: (inside ++ '\x7d' :: rest))

/-- A brace stands between `front` and `rest`, and with it as many braces are closed as are opened.  At the start of
    the text `depth` braces are open. -/
structure Closing (depth : Nat) (text front rest : List Char) : Prop where
  cut : text = front ++ '\x7d' :: rest
  even : front.count '\x7d' + 1 = depth + front.count '\x7b'

/-- The first brace with which as many are closed as are opened. -/
structure FirstClosing (depth : Nat) (text front rest : List Char) : Prop extends
    Closing depth text front rest where
  first : ∀ other behind, Closing depth text other behind → front.length ≤ other.length

/-! ## One character -/

/-- The scan goes on behind a character, with another depth. -/
inductive DepthStep : Nat → Char → Nat → Prop where
  | opening {depth : Nat} : DepthStep depth '\x7b' (depth + 1)
  | closing {depth : Nat} : DepthStep (depth + 2) '\x7d' (depth + 1)
  | other {depth : Nat} {c : Char} : c ≠ '\x7b' → c ≠ '\x7d' → DepthStep depth c depth

/-- The scan stops at a brace that is closed when at most one is open, and goes on behind all other characters. -/
theorem depthStep_cases (depth : Nat) (c : Char) :
    (c = '\x7d' ∧ depth = 0) ∨ (c = '\x7d' ∧ depth = 1) ∨ ∃ behind, DepthStep depth c behind := by
  by_cases opens : c = '\x7b'
  · subst opens
    exact .inr (.inr ⟨_, .opening⟩)
  by_cases closes : c = '\x7d'
  · subst closes
    match depth with
    | 0 => exact .inl ⟨rfl, rfl⟩
    | 1 => exact .inr (.inl ⟨rfl, rfl⟩)
    | _ + 2 => exact .inr (.inr ⟨_, .closing⟩)
  · exact .inr (.inr ⟨_, .other opens closes⟩)

theorem scanBraces_zero (cs : List Char) : scanBraces 0 ('\x7d' :: cs) = .unopened := rfl

theorem scanBraces_one (cs : List Char) : scanBraces 1 ('\x7d' :: cs) = .closed cs := rfl

section

variable {depth behind : Nat} {c : Char}

theorem DepthStep.scanBraces_cons (step : DepthStep depth c behind) (cs : List Char) :
    scanBraces depth (c :: cs) = scanBraces behind cs := by
  cases step with
  | opening | closing => rfl
  | other notOpen notClose => rw [scanBraces, if_neg notOpen, if_neg notClose]

theorem DepthStep.positive (step : DepthStep depth c behind) (positive : 0 < depth) : 0 < behind := by
  cases step with
  | opening | closing => exact Nat.succ_pos _
  | other => exact positive

/-- Behind the character, the rest of the text is closed where the whole text is. -/
theorem DepthStep.closing_iff (step : DepthStep depth c behind) {cs front rest : List Char} :
    Closing depth (c :: cs) (c :: front) rest ↔ Closing behind cs front rest := by
  have sameEven : (c :: front).count '\x7d' + 1 = depth + (c :: front).count '\x7b' ↔
      front.count '\x7d' + 1 = behind + front.count '\x7b' := by
    cases step with
    | opening =>
      have notClose : '\x7b' ≠ '\x7d' := by decide
      rw [List.count_cons_of_ne notClose, List.count_cons_self]
      omega
    | closing =>
      have notOpen : '\x7d' ≠ '\x7b' := by decide
      rw [List.count_cons_of_ne notOpen, List.count_cons_self]
      omega
    | other notOpen notClose => rw [List.count_cons_of_ne notOpen, List.count_cons_of_ne notClose]
  constructor
  · intro closing
    exact ⟨(List.cons.inj closing.cut).2, sameEven.mp closing.even⟩
  · intro closing
    exact ⟨by rw [closing.cut, List.cons_append], sameEven.mpr closing.even⟩

/-- A brace that closes all is not the character over which the scan goes on. -/
theorem DepthStep.exists_of_closing (step : DepthStep depth c behind) {cs front rest : List Char}
    (closing : Closing depth (c :: cs) front rest) :
    ∃ later, front = c :: later ∧ Closing behind cs later rest := by
  cases front with
  | nil =>
    obtain ⟨closes, -⟩ := List.cons.inj closing.cut
    have lastOpen : 0 + 1 = depth + 0 := closing.even
    cases step with
    | opening => exact absurd closes (by decide)
    | closing => omega
    | other _ notClose => exact absurd closes notClose
  | cons first later =>
    obtain rfl := (List.cons.inj closing.cut).1
    exact ⟨later, rfl, step.closing_iff.mp closing⟩

theorem DepthStep.firstClosing (step : DepthStep depth c behind) {cs front rest : List Char}
    (closing : FirstClosing behind cs front rest) : FirstClosing depth (c :: cs) (c :: front) rest where
  toClosing := step.closing_iff.mpr closing.toClosing
  first := by
    intro other after otherCloses
    obtain ⟨later, rfl, laterCloses⟩ := step.exists_of_closing otherCloses
    exact Nat.succ_le_succ (closing.first later after laterCloses)

end

/-! ## Whole scans -/

/-- The depth stays above zero, so no brace is closed where none is open. -/
theorem scanBraces_ne_unopened {depth : Nat} (positive : 0 < depth) (cs : List Char) :
    scanBraces depth cs ≠ .unopened := by
  induction cs generalizing depth with
  | nil => nofun
  | cons c cs inductionHypothesis =>
    rcases depthStep_cases depth c with ⟨-, rfl⟩ | ⟨rfl, rfl⟩ | ⟨behind, step⟩
    · exact absurd positive (Nat.lt_irrefl 0)
    · rw [scanBraces_one]
      nofun
    · rw [step.scanBraces_cons]
      exact inductionHypothesis (step.positive positive)

theorem exists_firstClosing_of_closed {depth : Nat} {cs rest : List Char}
    (closed : scanBraces depth cs = .closed rest) : ∃ front, FirstClosing depth cs front rest := by
  induction cs generalizing depth with
  | nil => cases closed
  | cons c cs inductionHypothesis =>
    rcases depthStep_cases depth c with ⟨rfl, rfl⟩ | ⟨rfl, rfl⟩ | ⟨behind, step⟩
    · rw [scanBraces_zero] at closed
      cases closed
    · rw [scanBraces_one] at closed
      obtain rfl := BraceScan.closed.inj closed
      exact ⟨[], ⟨rfl, rfl⟩, fun _ _ _ => Nat.zero_le _⟩
    · rw [step.scanBraces_cons] at closed
      obtain ⟨front, first⟩ := inductionHypothesis closed
      exact ⟨c :: front, step.firstClosing first⟩

theorem not_closing_of_unclosed {depth : Nat} {cs : List Char} (unclosed : scanBraces depth cs = .unclosed)
    (front rest : List Char) : ¬ Closing depth cs front rest := by
  induction cs generalizing depth front with
  | nil =>
    intro closing
    exact List.append_ne_nil_of_right_ne_nil front (List.cons_ne_nil _ _) closing.cut.symm
  | cons c cs inductionHypothesis =>
    rcases depthStep_cases depth c with ⟨rfl, rfl⟩ | ⟨rfl, rfl⟩ | ⟨behind, step⟩
    · rw [scanBraces_zero] at unclosed
      cases unclosed
    · rw [scanBraces_one] at unclosed
      cases unclosed
    · intro closing
      rw [step.scanBraces_cons] at unclosed
      obtain ⟨later, -, laterCloses⟩ := step.exists_of_closing closing
      exact inductionHypothesis unclosed later laterCloses

/-- A balanced text leaves the depth as it is. -/
theorem scanBraces_append {inside : List Char} (balanced : Balanced inside) (depth : Nat) (rest : List Char) :
    scanBraces (depth + 1) (inside ++ rest) = scanBraces (depth + 1) rest := by
  induction balanced generalizing depth rest with
  | nil => rfl
  | other notOpen notClose _ inductionHypothesis =>
    rw [List.cons_append, (DepthStep.other notOpen notClose).scanBraces_cons, inductionHypothesis]
  | braces _ _ insideHypothesis restHypothesis =>
    rw [List.cons_append, List.append_assoc, List.cons_append, DepthStep.opening.scanBraces_cons, insideHypothesis,
      DepthStep.closing.scanBraces_cons, restHypothesis]

/-- A scan that finds its end has a balanced text before the first brace that lowers its depth.  Behind a brace that
    is opened there are two such texts, one inside it and one behind the brace that closes it. -/
theorem exists_balanced_of_closed {depth : Nat} {cs rest : List Char}
    (closed : scanBraces (depth + 1) cs = .closed rest) :
    ∃ inside behind, Balanced inside ∧ cs = inside ++ '\x7d' :: behind ∧
      scanBraces (depth + 1) ('\x7d' :: behind) = .closed rest := by
  cases cs with
  | nil => cases closed
  | cons c cs =>
    by_cases closes : c = '\x7d'
    · subst closes
      exact ⟨[], cs, .nil, rfl, closed⟩
    by_cases opens : c = '\x7b'
    · subst opens
      rw [DepthStep.opening.scanBraces_cons] at closed
      obtain ⟨inside, middle, insideBalanced, rfl, atMiddle⟩ := exists_balanced_of_closed closed
      rw [DepthStep.closing.scanBraces_cons] at atMiddle
      obtain ⟨next, behind, nextBalanced, rfl, atBehind⟩ := exists_balanced_of_closed atMiddle
      exact ⟨_, behind, .braces insideBalanced nextBalanced, by simp, atBehind⟩
    · rw [(DepthStep.other opens closes).scanBraces_cons] at closed
      obtain ⟨inside, behind, balanced, rfl, atBehind⟩ := exists_balanced_of_closed closed
      exact ⟨c :: inside, behind, .other opens closes balanced, rfl, atBehind⟩
termination_by cs.length
decreasing_by all_goals simp_all <;> omega

/-! ## The type at the start of a text -/

theorem typeScan?_ne_unopened (text : List Char) : typeScan? text ≠ some .unopened := by
  unfold typeScan?
  split
  · rename_i opens
    obtain ⟨cs, rfl⟩ := List.head?_eq_some_iff.mp opens
    rw [DepthStep.opening.scanBraces_cons]
    exact fun unopened => scanBraces_ne_unopened Nat.one_pos cs (Option.some.inj unopened)
  · nofun

theorem typeScan?_eq_closed_iff {text rest : List Char} :
    typeScan? text = some (.closed rest) ↔
      ∃ inside, Balanced inside ∧ text = '\x7b' :: (inside ++ '\x7d' :: rest) := by
  constructor
  · intro scan
    unfold typeScan? at scan
    split at scan
    · rename_i opens
      obtain ⟨cs, rfl⟩ := List.head?_eq_some_iff.mp opens
      rw [DepthStep.opening.scanBraces_cons] at scan
      obtain ⟨inside, behind, balanced, rfl, closed⟩ := exists_balanced_of_closed (Option.some.inj scan)
      rw [scanBraces_one] at closed
      obtain rfl := BraceScan.closed.inj closed
      exact ⟨inside, balanced, rfl⟩
    · cases scan
  · rintro ⟨inside, balanced, rfl⟩
    have closed : scanBraces 1 (inside ++ '\x7d' :: rest) = .closed rest := by
      rw [scanBraces_append balanced 0, scanBraces_one]
    rw [typeScan?, List.head?_cons, if_pos rfl, DepthStep.opening.scanBraces_cons, closed]

/-- A text starts with no brace, or its first brace is never closed, or the scan ends at the first brace that closes
    as many as were opened. -/
theorem typeScan?_cases (text : List Char) :
    (text.head? ≠ some '\x7b' ∧ typeScan? text = none) ∨
      ((∀ front rest, ¬ Closing 0 text front rest) ∧ typeScan? text = some .unclosed) ∨
      ∃ front rest, FirstClosing 0 text front rest ∧ Balanced (front ++ ['\x7d']) ∧
        typeScan? text = some (.closed rest) := by
  by_cases opens : text.head? = some '\x7b'
  · have scanned : typeScan? text = some (scanBraces 0 text) := if_pos opens
    cases scan : scanBraces 0 text with
    | closed rest =>
      rw [scan] at scanned
      obtain ⟨front, first⟩ := exists_firstClosing_of_closed scan
      obtain ⟨inside, balanced, cut⟩ := typeScan?_eq_closed_iff.mp scanned
      -- Both cut the text in front of the same rest.
      have same : front = '\x7b' :: inside := List.append_cancel_right (first.cut.symm.trans cut)
      have whole : Balanced (front ++ ['\x7d']) := by
        rw [same]
        exact .braces balanced .nil
      exact .inr (.inr ⟨front, rest, first, whole, scanned⟩)
    | unclosed =>
      rw [scan] at scanned
      exact .inr (.inl ⟨not_closing_of_unclosed scan, scanned⟩)
    | unopened =>
      rw [scan] at scanned
      exact absurd scanned (typeScan?_ne_unopened text)
  · exact .inl ⟨opens, if_neg opens⟩

theorem stripType_of_closed {text rest : List Char} (scan : typeScan? (trimStart text) = some (.closed rest)) :
    stripType text = trimStart rest := by
  simp only [stripType, scan]

/-- No brace is closed where none is open.  If a text starts with a brace and some brace closes as many as were
    opened, the text up to the first such brace is taken off, and it is balanced; else nothing but the blanks at the
    start. -/
theorem stripType_exact (text : List Char) :
    typeScan? (trimStart text) ≠ some .unopened ∧
      (∀ front rest, (trimStart text).head? = some '\x7b' → Closing 0 (trimStart text) front rest →
        ∃ type behind, FirstClosing 0 (trimStart text) type behind ∧ Balanced (type ++ ['\x7d']) ∧
          stripType text = trimStart behind) ∧
      ((trimStart text).head? ≠ some '\x7b' ∨ (∀ front rest, ¬ Closing 0 (trimStart text) front rest) →
        stripType text = trimStart text) := by
  refine ⟨typeScan?_ne_unopened _, ?_⟩
  rcases typeScan?_cases (trimStart text) with ⟨notOpen, scan⟩ | ⟨never, scan⟩ | ⟨type, behind, first, balanced, scan⟩
  · refine ⟨fun _ _ opens => absurd opens notOpen, fun _ => ?_⟩
    simp only [stripType, scan]
  · refine ⟨fun front rest _ closing => absurd closing (never front rest), fun _ => ?_⟩
    simp only [stripType, scan]
  · refine ⟨fun _ _ _ _ => ⟨type, behind, first, balanced, stripType_of_closed scan⟩, ?_⟩
    rintro (notOpen | never)
    · obtain ⟨inside, -, cut⟩ := typeScan?_eq_closed_iff.mp scan
      rw [cut] at notOpen
      exact absurd rfl notOpen
    · exact absurd first.toClosing (never type behind)

/-- Of two types in braces, the last brace closes as many as were opened too, but only the first type is taken off.  A
    brace that is never closed stays. -/
theorem stripType_exact_twoTypes :
    let twoTypes := [' ', '\x7b', '\x7b', 'é', '\x7d', '\x7d', ' ', '\x7b', 'b', '\x7d']
    let unclosed := [' ', '\x7b', 'a']
    Closing 0 (trimStart twoTypes) ['\x7b', '\x7b', 'é', '\x7d', '\x7d', ' ', '\x7b', 'b'] [] ∧
      (∃ type behind, FirstClosing 0 (trimStart twoTypes) type behind ∧ Balanced (type ++ ['\x7d']) ∧
        stripType twoTypes = trimStart behind) ∧
      (∀ front rest, ¬ Closing 0 (trimStart unclosed) front rest) ∧ stripType unclosed = trimStart unclosed := by
  have last : Closing 0 (trimStart [' ', '\x7b', '\x7b', 'é', '\x7d', '\x7d', ' ', '\x7b', 'b', '\x7d'])
      ['\x7b', '\x7b', 'é', '\x7d', '\x7d', ' ', '\x7b', 'b'] [] := ⟨rfl, rfl⟩
  have never : ∀ front rest, ¬ Closing 0 (trimStart [' ', '\x7b', 'a']) front rest :=
    not_closing_of_unclosed rfl
  exact ⟨last, (stripType_exact _).2.1 _ _ rfl last, never, (stripType_exact _).2.2 (.inr never)⟩

end CallAtlas.DocComment
