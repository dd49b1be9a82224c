import CallAtlas.Syntax.Token
import CallAtlas.Text.Blank

/-!
# Lexemes

The tokens of a text with their exact spelling, as the language reads them: names, numbers and punctuators
are the longest that fit, strings, templates and regular expressions go on to their closing mark, and blanks
and comments stand between them.

Two things are not decided by the characters alone: whether a slash starts a regular expression, and whether
a closing brace goes on with a template.  The syntax decides them, from the lexemes before and the line ends
between them, so it comes in as a parameter (`Goals`).  What literals say has no influence on it.  Under
every such parameter a text has at most one list of lexemes (`Lexes.unique`).
-/

namespace CallAtlas.Lexical

open CallAtlas.Syntax CallAtlas.Text

/-! ## Names, numbers and punctuators -/

/-- A character of a name. -/
def isNameChar (c : Char) : Bool := isWordChar c && !isBlank c

/-- The longest beginning that a machine reads, and the rest. -/
def munch {σ : Type} (step : σ → Char → Option σ) : σ → List Char → List Char × List Char
  | _, [] => ([], [])
  | s, c :: cs =>
    match step s c with
    | none => ([], c :: cs)
    | some next => (c :: (munch step next cs).1, (munch step next cs).2)

/-- A place inside a name.  A character may be written as an escape, with or without braces. -/
inductive NameMode where
  | plain
  | slash
  | unicode
  | braced

def NameMode.step : NameMode → Char → Option NameMode
  | plain, c => if isNameChar c then some plain else if c = '\\' then some slash else none
  | slash, c => if c = 'u' then some unicode else none
  | unicode, c => if c = '\x7b' then some braced else if isNameChar c then some plain else none
  | braced, c => if c = '\x7d' then some plain else if isNameChar c then some braced else none

/-- A place inside a number. -/
inductive NumberMode where
  | zero
  | radix
  | whole
  | fraction
  | exponent
  | power
  | long

def NumberMode.digit (mode : NumberMode) (c : Char) : Option NumberMode :=
  if c.isDigit || c = '_' then some mode else none

def NumberMode.step : NumberMode → Char → Option NumberMode
  | zero, c => if "xXoObB".toList.contains c then some radix else afterDigit c
  | radix, c => if c.isAlphanum || c = '_' then some radix else none
  | whole, c => afterDigit c
  | fraction, c => if c = 'e' || c = 'E' then some exponent else fraction.digit c
  | exponent, c => if c = '+' || c = '-' then some power else power.digit c
  | power, c => power.digit c
  | long, _ => none
where
  afterDigit (c : Char) : Option NumberMode :=
    if c = '.' then some fraction
    else if c = 'e' || c = 'E' then some exponent
    else if c = 'n' then some long
    else whole.digit c

inductive Kind where
  | word
  | number
  | punctuator
  | string
  /-- A piece of a template, from its start or behind a substitution, up to its end or to a substitution. -/
  | template (resumes opens : Bool)
  | regExp
  deriving DecidableEq

/-- The lexeme quotes a text. -/
def Kind.isLiteral : Kind → Bool
  | string | template _ _ | regExp => true
  | word | number | punctuator => false

/-- A token as it is written. -/
structure Lexeme where
  kind : Kind
  text : List Char
  deriving DecidableEq

/-- The lexeme that is made of its first character and what a machine reads behind it. -/
def begun (kind : Kind) (first : Char) (read : List Char × List Char) : Lexeme × List Char :=
  (⟨kind, first :: read.1⟩, read.2)

/-- The name, number or punctuator that characters without a blank start with, and the rest of them. -/
def solid? : List Char → Option (Lexeme × List Char)
  | [] => none
  | c :: cs =>
    if isNameChar c && !c.isDigit then some (begun .word c (munch NameMode.step .plain cs))
    else if c = '\\' then some (begun .word c (munch NameMode.step .slash cs))
    else if c = '#' then
      if (munch NameMode.step .plain cs).1.isEmpty then none
      else some (begun .word c (munch NameMode.step .plain cs))
    else if c.isDigit then
      some (begun .number c (munch NumberMode.step (if c = '0' then .zero else .whole) cs))
    else if c = '.' && (cs.head?.map Char.isDigit).getD false then
      some (begun .number c (munch NumberMode.step .fraction cs))
    else
      (Token.punctuator? (c :: cs)).bind fun p =>
        (Token.afterPrefix? p.toList (c :: cs)).map fun rest => (⟨.punctuator, p.toList⟩, rest)

/-! ## Quoted texts and comments -/

/-- A place inside a comment, a string, a template or a regular expression, or behind it. -/
inductive Mode where
  | lineComment
  | block
  | star
  | string (double : Bool)
  | stringEscape (double : Bool)
  | template
  | dollar
  | templateEscape
  | regExp
  | regExpEscape
  | charClass
  | classEscape
  | flags
  | closed
  | opened
  deriving DecidableEq

namespace Mode

/-- One character of the text of a template. -/
def inTemplate (c : Char) : Mode :=
  if c = backtick then closed
  else if c = '\\' then templateEscape
  else if c = '$' then dollar
  else template

/-- The mode behind one more character, if it belongs to the text. -/
def step : Mode → Char → Option Mode
  | lineComment, c => if isLineEnd c then none else some lineComment
  | block, c => some (if c = '*' then star else block)
  | star, c => some (if c = '/' then closed else if c = '*' then star else block)
  | string double, c =>
    if c = (if double then doubleQuote else singleQuote) then some closed
    else if c = '\\' then some (stringEscape double)
    else if c = '\n' then none
    else some (string double)
  | stringEscape double, _ => some (string double)
  | template, c => some (inTemplate c)
  | dollar, c => some (if c = '\x7b' then opened else inTemplate c)
  | templateEscape, _ => some template
  | regExp, c =>
    if isLineEnd c then none
    else some (if c = '/' then flags else if c = '[' then charClass
      else if c = '\\' then regExpEscape else regExp)
  | regExpEscape, c => if isLineEnd c then none else some regExp
  | charClass, c =>
    if isLineEnd c then none
    else some (if c = ']' then regExp else if c = '\\' then classEscape else charClass)
  | classEscape, c => if isLineEnd c then none else some charClass
  | flags, c => if isNameChar c then some flags else none
  | closed, _ => none
  | opened, _ => none

/-- A carriage return is read as a line feed. -/
def seen (c : Char) : Char := if c = '\r' then '\n' else c

/-- What is read from a mode on, the mode at its end, and the rest.  A carriage return and a line feed are
    one line end. -/
def run : Mode → List Char → List Char × Mode × List Char
  | m, [] => ([], m, [])
  | m, '\r' :: '\n' :: cs =>
    match m.step '\n' with
    | none => ([], m, '\r' :: '\n' :: cs)
    | some next => ('\r' :: '\n' :: (run next cs).1, (run next cs).2)
  | m, c :: cs =>
    match m.step (seen c) with
    | none => ([], m, c :: cs)
    | some next => (c :: (run next cs).1, (run next cs).2)

end Mode

/-! ## Lexemes of a text -/

/-- What the syntax expects. -/
structure Goal where
  /-- A slash starts a regular expression. -/
  regExp : Bool
  /-- A closing brace goes on with a template. -/
  template : Bool

/-- What the syntax sees of a lexeme. -/
structure Mark where
  kind : Kind
  /-- Its spelling, if it is no literal. -/
  text : List Char
  /-- A line ends in front of it. -/
  newLine : Bool

/-- What the syntax expects behind the given lexemes, the last one first, and a line end that may have come
    since. -/
def Goals := List Mark → Bool → Goal

/-- The mode in which a character starts a literal. -/
def opening? (goal : Goal) (c : Char) : Option Mode :=
  if c = doubleQuote then some (.string true)
  else if c = singleQuote then some (.string false)
  else if c = backtick || (c = '\x7d' && goal.template) then some .template
  else if c = '/' && goal.regExp then some .regExp
  else none

/-- The kind of a literal with the given first character, from its mode there to its mode at the end. -/
def literalKind? (first : Char) : Mode → Mode → Option Kind
  | .string _, .closed => some .string
  | .template, .closed => some (.template (first = '\x7d') false)
  | .template, .opened => some (.template (first = '\x7d') true)
  | .regExp, .flags => some .regExp
  | _, _ => none

/-- The text starts with a blank or a comment. -/
def startsGap : List Char → Bool
  | [] => false
  | c :: cs => isSpace c || (c = '/' && (cs.head? == some '/' || cs.head? == some '*'))

/-- The comment whose first slash stands in front of a text, and the rest. -/
def comment? : List Char → Option (List Char × List Char)
  | [] => none
  | c :: cs =>
    if c = '/' then some ('/' :: c :: (Mode.lineComment.run cs).1, (Mode.lineComment.run cs).2.2)
    else if c = '*' && (Mode.block.run cs).2.1 = .closed then
      some ('/' :: c :: (Mode.block.run cs).1, (Mode.block.run cs).2.2)
    else none

/-- The blank or comment that a text starts with, and the rest. -/
def gap? : List Char → Option (List Char × List Char)
  | [] => none
  | c :: cs => if isSpace c then some ([c], cs) else if c = '/' then comment? cs else none

/-- The lexeme that a text starts with, and the rest.  What is no literal ends before the next blank. -/
def lexeme? (goal : Goal) (cs : List Char) : Option (Lexeme × List Char) :=
  if startsGap cs then none
  else
    match cs with
    | [] => none
    | c :: rest =>
      match opening? goal c with
      | some mode =>
        (literalKind? c mode (mode.run rest).2.1).map fun kind =>
          (⟨kind, c :: (mode.run rest).1⟩, (mode.run rest).2.2)
      | none =>
        (solid? (cs.takeWhile fun d => !isBlank d)).map fun found =>
          (found.1, found.2 ++ cs.dropWhile fun d => !isBlank d)

/-- What the syntax sees of the lexeme. -/
def Lexeme.mark (l : Lexeme) (newLine : Bool) : Mark :=
  { kind := l.kind
    text := if l.kind.isLiteral then [] else l.text
    newLine }

/-- A line has ended since the last lexeme.  In front of the first one that does not count. -/
def lineEnded (past : List Mark) (broken : Bool) : Bool := broken && !past.isEmpty

/-- The text is made of the given lexemes, behind those of `past`, where `broken` says that a line has ended
    since. -/
inductive Lexes (goals : Goals) : List Mark → Bool → List Char → List Lexeme → Prop where
  | done {past : List Mark} {broken : Bool} : Lexes goals past broken [] []
  | gap {past : List Mark} {broken : Bool} {cs text rest : List Char} {out : List Lexeme} :
      gap? cs = some (text, rest) → Lexes goals past (broken || text.any isLineEnd) rest out →
      Lexes goals past broken cs out
  | lexeme {past : List Mark} {broken : Bool} {cs rest : List Char} {l : Lexeme} {out : List Lexeme} :
      lexeme? (goals past (lineEnded past broken)) cs = some (l, rest) →
      Lexes goals (l.mark (lineEnded past broken) :: past) false rest out →
      Lexes goals past broken cs (l :: out)

/-- The lexemes of a text, found in less than `fuel` steps. -/
def lexemes? (goals : Goals) : Nat → List Mark → Bool → List Char → Option (List Lexeme)
  | 0, _, _, _ => none
  | fuel + 1, past, broken, cs =>
    if cs.isEmpty then some []
    else
      match gap? cs with
      | some (text, rest) => lexemes? goals fuel past (broken || text.any isLineEnd) rest
      | none =>
        (lexeme? (goals past (lineEnded past broken)) cs).bind fun found =>
          (lexemes? goals fuel (found.1.mark (lineEnded past broken) :: past) false found.2).map
            (found.1 :: ·)

theorem Lexes.of_lexemes? {goals : Goals} {fuel : Nat} {past : List Mark} {broken : Bool} {cs : List Char}
    {out : List Lexeme} (found : lexemes? goals fuel past broken cs = some out) :
    Lexes goals past broken cs out := by
  induction fuel generalizing past broken cs out with
  | zero => cases found
  | succ fuel inductionHypothesis =>
    rw [lexemes?] at found
    split at found
    · rename_i empty
      obtain rfl := List.isEmpty_iff.mp empty
      cases found
      exact .done
    · cases here : gap? cs with
      | some gap =>
        rw [here] at found
        exact .gap here (inductionHypothesis found)
      | none =>
        rw [here] at found
        obtain ⟨next, read, rest⟩ := Option.bind_eq_some_iff.mp found
        obtain ⟨more, later, rfl⟩ := Option.map_eq_some_iff.mp rest
        exact .lexeme read (inductionHypothesis later)

/-! ## At most one list of lexemes -/

theorem startsGap_of_gap? {cs : List Char} {found : List Char × List Char} (here : gap? cs = some found) :
    startsGap cs = true := by
  cases cs with
  | nil => cases here
  | cons c cs =>
    rw [gap?] at here
    split at here
    · rename_i blank
      simp [startsGap, blank]
    · split at here
      · rename_i slash
        cases cs with
        | nil => cases here
        | cons d cs =>
          rw [comment?] at here
          split at here
          · rename_i line
            simp [startsGap, slash, line]
          · split at here
            · rename_i block
              rw [Bool.and_eq_true, decide_eq_true_eq] at block
              simp [startsGap, slash, block.1]
            · cases here
      · cases here

theorem lexeme?_eq_none_of_gap? {goal : Goal} {cs : List Char} {found : List Char × List Char}
    (here : gap? cs = some found) : lexeme? goal cs = none := by
  unfold lexeme?
  rw [if_pos (startsGap_of_gap? here)]

theorem Lexes.unique {goals : Goals} {past : List Mark} {broken : Bool} {cs : List Char}
    {out others : List Lexeme} (first : Lexes goals past broken cs out)
    (second : Lexes goals past broken cs others) : out = others := by
  induction first generalizing others with
  | done =>
    cases second with
    | done => rfl
    | gap here _ => cases here
    | lexeme here _ => cases here
  | gap here _ inductionHypothesis =>
    cases second with
    | done => cases here
    | gap other later =>
      rw [here] at other
      cases other
      exact inductionHypothesis later
    | lexeme other _ =>
      rw [lexeme?_eq_none_of_gap? here] at other
      cases other
  | lexeme here _ inductionHypothesis =>
    cases second with
    | done => cases here
    | gap other _ =>
      rw [lexeme?_eq_none_of_gap? other] at here
      cases here
    | lexeme other later =>
      rw [here] at other
      cases other
      rw [inductionHypothesis later]

/-! ## Nothing is lost -/

theorem munch_append {σ : Type} (step : σ → Char → Option σ) (s : σ) (cs : List Char) :
    (munch step s cs).1 ++ (munch step s cs).2 = cs := by
  induction cs generalizing s with
  | nil => rfl
  | cons c cs inductionHypothesis =>
    rw [munch]
    split
    · rfl
    · rw [List.cons_append, inductionHypothesis]

theorem afterPrefix?_append {p cs rest : List Char} (found : Token.afterPrefix? p cs = some rest) :
    p ++ rest = cs := by
  induction p generalizing cs with
  | nil =>
    cases found
    rfl
  | cons x p inductionHypothesis =>
    cases cs with
    | nil => cases found
    | cons c cs =>
      rw [Token.afterPrefix?] at found
      split at found
      · rename_i same
        rw [List.cons_append, inductionHypothesis found, same]
      · cases found

theorem Mode.run_append (m : Mode) (cs : List Char) : (m.run cs).1 ++ (m.run cs).2.2 = cs := by
  fun_induction Mode.run m cs with
  | case1 => rfl
  | case2 => rfl
  | case3 m cs next stepped inductionHypothesis => simpa using inductionHypothesis
  | case4 => rfl
  | case5 m c cs notBoth next stepped inductionHypothesis => simpa using inductionHypothesis

/-- A name, a number or a punctuator is the beginning of what it is read from. -/
theorem solid?_append {cs rest : List Char} {l : Lexeme} (found : solid? cs = some (l, rest)) :
    l.text ++ rest = cs ∧ l.kind.isLiteral = false := by
  have ofBegun : ∀ {kind : Kind} {c : Char} {σ : Type} {step : σ → Char → Option σ} {s : σ}
      {ds : List Char}, kind.isLiteral = false → begun kind c (munch step s ds) = (l, rest) →
        l.text ++ rest = c :: ds ∧ l.kind.isLiteral = false := by
    intro kind c σ step s ds plain same
    cases same
    exact ⟨by rw [List.cons_append, munch_append], plain⟩
  cases cs with
  | nil => cases found
  | cons c cs =>
    rw [solid?] at found
    split at found
    · exact ofBegun rfl (Option.some.inj found)
    · split at found
      · exact ofBegun rfl (Option.some.inj found)
      · split at found
        · split at found
          · cases found
          · exact ofBegun rfl (Option.some.inj found)
        · split at found
          · exact ofBegun rfl (Option.some.inj found)
          · split at found
            · exact ofBegun rfl (Option.some.inj found)
            · obtain ⟨p, -, read⟩ := Option.bind_eq_some_iff.mp found
              obtain ⟨after, cut, same⟩ := Option.map_eq_some_iff.mp read
              cases same
              exact ⟨afterPrefix?_append cut, rfl⟩

end CallAtlas.Lexical
