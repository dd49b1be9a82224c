import CallAtlas.Json.Commented
import CallAtlas.Proofs.JsonReading

/-!
# Comments and last commas are taken out, and nothing else

`strip` reads a text twice.  The first reading replaces comments by blanks and leaves every token as it is
(`withoutComments_spells`).  The second takes out a comma if the next token closes a bracket; it looks for that
token in the text, behind blanks (`withoutTrailingCommas_spells`).  In the tokens of a document those commas are
the ones behind last items, and no others (`withoutLastCommas_relaxed`).
-/

namespace CallAtlas.Json

open Text Commented

/-! ## Characters of scalars -/

theorem ne_of_hexFour? {a b c d : Char} (digits : (hexFour? a b c d).isSome = true) :
    ∀ x ∈ [a, b, c, d], x ≠ '"' ∧ x ≠ '\\' := by
  have noQuote : hexValue? '"' = none := by decide
  have noBackslash : hexValue? '\\' = none := by decide
  intro x member
  simp only [hexFour?, Option.bind_eq_bind] at digits
  constructor <;>
  · rintro rfl
    simp only [List.mem_cons, List.not_mem_nil, or_false] at member
    rcases member with rfl | rfl | rfl | rfl <;> simp_all

/-- Outside of strings the character means nothing to a reader of comments and commas. -/
def IsQuiet (c : Char) : Prop := c ≠ '"' ∧ c ≠ '/' ∧ c ≠ '\\' ∧ c ≠ ','

theorem isQuiet_of_isBare {c : Char} (bare : IsBare c) : IsQuiet c := by
  have others := bare.not_mem
  simp only [List.mem_cons, not_or] at others
  exact ⟨others.1, others.2.1, others.2.2.1, others.2.2.2.1⟩

theorem isQuiet_of_isSpace {c : Char} (space : isSpace c = true) : IsQuiet c := by
  refine ⟨?_, ?_, ?_, ?_⟩ <;>
  · rintro rfl
    simp [isSpace] at space

theorem isQuiet_of_areBlanks {g : List Char} (areBlanks : AreBlanks g) : ∀ c ∈ g, IsQuiet c :=
  fun c member => isQuiet_of_isSpace (areBlanks c member)

theorem isQuiet_of_isScalar {text : List Char} (isScalar : IsScalar text) :
    IsString text ∨ ∀ c ∈ text, IsQuiet c :=
  (isBare_of_isScalar isScalar).imp_right fun bare c member => isQuiet_of_isBare (bare.2 c member)

/-! ## What a reader copies -/

/-- A reader that knows two states, outside of strings and inside, and passes on what means nothing to it there. -/
structure Copies (outside inString : List Char → List Char) : Prop where
  nil : outside [] = []
  quiet : ∀ c cs, IsQuiet c → outside (c :: cs) = c :: outside cs
  opens : ∀ cs, outside ('"' :: cs) = '"' :: inString cs
  closes : ∀ cs, inString ('"' :: cs) = '"' :: outside cs
  escape : ∀ c cs, inString ('\\' :: c :: cs) = '\\' :: c :: inString cs
  plain : ∀ c cs, c ≠ '"' ∧ c ≠ '\\' → inString (c :: cs) = c :: inString cs

def Token.isComma : Token → Bool
  | comma => true
  | _ => false

namespace Copies

variable {outside inString : List Char → List Char} (copies : Copies outside inString)
include copies

theorem run {text : List Char} (quiet : ∀ c ∈ text, IsQuiet c) (rest : List Char) :
    outside (text ++ rest) = text ++ outside rest := by
  induction text with
  | nil => rfl
  | cons c cs inductionHypothesis =>
    have others := inductionHypothesis fun d member => quiet d (List.mem_cons_of_mem c member)
    rw [List.cons_append, copies.quiet c _ (quiet c List.mem_cons_self), others, List.cons_append]

theorem blanks {g : List Char} (areBlanks : AreBlanks g) : outside g = g := by
  have whole := copies.run (isQuiet_of_areBlanks areBlanks) []
  rwa [copies.nil, List.append_nil] at whole

theorem stringBody {body : List Char} (isBody : IsStringBody body) (rest : List Char) :
    inString (body ++ '"' :: rest) = body ++ '"' :: outside rest := by
  induction isBody with
  | nil => exact copies.closes rest
  | plain noQuote noBackslash _ _ inductionHypothesis =>
    simp only [List.cons_append, copies.plain _ _ ⟨noQuote, noBackslash⟩, inductionHypothesis]
  | escape _ _ inductionHypothesis =>
    simp only [List.cons_append, copies.escape, inductionHypothesis]
  | @unit a b c d cs digits _ inductionHypothesis =>
    -- The digits behind `\u` are read one by one, and none of them looks like the end of the string.
    have others := ne_of_hexFour? digits
    simp only [List.cons_append, copies.escape, copies.plain a _ (others a (by simp)),
      copies.plain b _ (others b (by simp)), copies.plain c _ (others c (by simp)),
      copies.plain d _ (others d (by simp)), inductionHypothesis]

theorem token {t : Token} (notComma : t.isComma = false) (rest : List Char) :
    outside (t.text ++ rest) = t.text ++ outside rest := by
  cases t with
  | opening b | closing b => cases b <;> exact copies.run (by simp [Token.text, IsQuiet]) rest
  | colon => exact copies.run (by simp [Token.text, IsQuiet]) rest
  | comma => cases notComma
  | scalar s =>
    rcases isQuiet_of_isScalar s.isScalar with ⟨body, isBody, spelled⟩ | quiet
    · have read := copies.stringBody isBody rest
      simp [Token.text, spelled, copies.opens, read]
    · exact copies.run quiet rest

end Copies

/-! ## Comments become blanks -/

theorem copies_withoutComments : Copies (withoutComments .outside) (withoutComments .inString) where
  nil := rfl
  quiet := by
    intro c cs ⟨noQuote, noSlash, _, _⟩
    simp [withoutComments, noSlash]
  opens := fun _ => rfl
  closes := fun _ => rfl
  escape := fun _ _ => rfl
  plain := by
    intro c cs ⟨noQuote, noBackslash⟩
    simp [withoutComments, noBackslash]

theorem withoutComments_token (t : Token) (rest : List Char) :
    withoutComments .outside (t.text ++ rest) = t.text ++ withoutComments .outside rest := by
  cases t with
  | comma => rfl
  | opening | closing | colon | scalar => exact copies_withoutComments.token rfl rest

theorem withoutComments_slashes (cs : List Char) :
    withoutComments .outside ('/' :: '/' :: cs) = withoutComments .lineComment cs := rfl

theorem withoutComments_slashStar (cs : List Char) :
    withoutComments .outside ('/' :: '*' :: cs) = withoutComments .blockComment cs := rfl

theorem withoutComments_lineComment {content : List Char} (oneLine : '\n' ∉ content) (rest : List Char) :
    withoutComments .lineComment (content ++ '\n' :: rest) = '\n' :: withoutComments .outside rest ∧
      withoutComments .lineComment content = [] := by
  induction content with
  | nil => exact ⟨rfl, rfl⟩
  | cons c cs inductionHypothesis =>
    simp only [List.mem_cons, not_or] at oneLine
    simp [withoutComments, Ne.symm oneLine.1, inductionHypothesis oneLine.2]

theorem withoutComments_blockComment {content : List Char} (noEnd : ¬ ['*', '/'] <:+: content)
    (rest : List Char) :
    withoutComments .blockComment (content ++ '*' :: '/' :: rest) = ' ' :: withoutComments .outside rest := by
  induction content with
  | nil => rfl
  | cons c cs inductionHypothesis =>
    have later : ¬ ['*', '/'] <:+: cs := fun inside => noEnd (inside.trans (List.suffix_cons c cs).isInfix)
    have goesOn : withoutComments .blockComment (c :: cs ++ '*' :: '/' :: rest) =
        withoutComments .blockComment (cs ++ '*' :: '/' :: rest) := by
      by_cases star : c = '*'
      · -- A star ends the comment only together with a slash, and that is not the next character.
        subst star
        cases cs with
        | nil => rfl
        | cons d ds =>
          have noSlash : d ≠ '/' := by
            rintro rfl
            exact noEnd ⟨[], ds, rfl⟩
          simp [withoutComments, noSlash]
      · simp [withoutComments, star]
    rw [goesOn, inductionHypothesis later]

theorem exists_blanks_of_isGap {g : List Char} (isGap : IsGap g) :
    ∃ blanks, AreBlanks blanks ∧
      ∀ rest, withoutComments .outside (g ++ rest) = blanks ++ withoutComments .outside rest := by
  induction isGap with
  | nil => exact ⟨[], by simp [AreBlanks], fun rest => rfl⟩
  | @blank c g space _ inductionHypothesis =>
    obtain ⟨blanks, areBlanks, replaced⟩ := inductionHypothesis
    refine ⟨c :: blanks, by simpa [AreBlanks, space] using areBlanks, fun rest => ?_⟩
    simp [copies_withoutComments.quiet c _ (isQuiet_of_isSpace space), replaced]
  | @line content g oneLine _ inductionHypothesis =>
    obtain ⟨blanks, areBlanks, replaced⟩ := inductionHypothesis
    refine ⟨'\n' :: blanks, by simpa [AreBlanks, isSpace] using areBlanks, fun rest => ?_⟩
    have read := (withoutComments_lineComment oneLine (g ++ rest)).1
    simp [withoutComments_slashes, read, replaced]
  | @block content g noEnd _ inductionHypothesis =>
    obtain ⟨blanks, areBlanks, replaced⟩ := inductionHypothesis
    refine ⟨' ' :: blanks, by simpa [AreBlanks, isSpace] using areBlanks, fun rest => ?_⟩
    have read := withoutComments_blockComment noEnd (g ++ rest)
    simp [withoutComments_slashStar, read, replaced]

theorem withoutComments_spells {ts : List Token} {text : List Char} (spells : Spells IsGap IsLastGap ts text) :
    Spells AreBlanks AreBlanks ts (withoutComments .outside text) := by
  induction spells with
  | done isLast =>
    apply Spells.done
    cases isLast with
    | gap isGap =>
      obtain ⟨blanks, areBlanks, replaced⟩ := exists_blanks_of_isGap isGap
      have whole := replaced []
      rw [List.append_nil] at whole
      rw [whole]
      show AreBlanks (blanks ++ [])
      rwa [List.append_nil]
    | line oneLine isGap =>
      obtain ⟨blanks, areBlanks, replaced⟩ := exists_blanks_of_isGap isGap
      simpa [replaced, withoutComments_slashes, (withoutComments_lineComment oneLine []).2] using areBlanks
  | token isGap _ inductionHypothesis =>
    obtain ⟨blanks, areBlanks, replaced⟩ := exists_blanks_of_isGap isGap
    rw [List.append_assoc, replaced, withoutComments_token, ← List.append_assoc]
    exact .token areBlanks inductionHypothesis

theorem withoutComments_strict {ts : List Token} {text : List Char}
    (spells : Spells AreBlanks AreBlanks ts text) : withoutComments .outside text = text := by
  induction spells with
  | done areBlanks => exact copies_withoutComments.blanks areBlanks
  | token areBlanks _ inductionHypothesis =>
    rw [List.append_assoc, copies_withoutComments.run (isQuiet_of_areBlanks areBlanks), withoutComments_token,
      inductionHypothesis]

/-! ## Commas in front of closing brackets -/

def Token.isClosing : Token → Bool
  | closing _ => true
  | _ => false

def startsClosing (ts : List Token) : Bool := ts.head?.any Token.isClosing

/-- The tokens without the commas that stand directly in front of a closing bracket. -/
def withoutLastCommas : List Token → List Token
  | [] => []
  | t :: ts => if t.isComma && startsClosing ts then withoutLastCommas ts else t :: withoutLastCommas ts

theorem withoutLastCommas_cons {t : Token} {ts : List Token} (kept : (t.isComma && startsClosing ts) = false) :
    withoutLastCommas (t :: ts) = t :: withoutLastCommas ts := by
  rw [withoutLastCommas, kept]
  rfl

theorem length_withoutLastCommas_le (ts : List Token) : (withoutLastCommas ts).length ≤ ts.length := by
  induction ts with
  | nil => simp [withoutLastCommas]
  | cons t ts inductionHypothesis =>
    rw [withoutLastCommas]
    split <;> simp only [List.length_cons] <;> omega

/-- A closing bracket is known by its first character. -/
theorem Token.closes_of_first {t : Token} {c : Char}
    (mark : Token.ofMark? c = if t.isScalar then none else some t) :
    (c = '\x7d' || c = ']') = t.isClosing := by
  have known : (c = '\x7d' || c = ']') = (Token.ofMark? c).any Token.isClosing := by
    unfold Token.ofMark?
    split <;> simp_all [Token.isClosing]
  rw [known, mark]
  cases t <;> rfl

theorem closesNext_spells {ts : List Token} {text : List Char} (spells : Spells AreBlanks AreBlanks ts text) :
    closesNext text = startsClosing ts := by
  have blanks {g : List Char} (areBlanks : AreBlanks g) : ∀ c ∈ g, isBlank c = true :=
    fun c member => isBlank_of_isSpace (areBlanks c member)
  cases spells with
  | done areBlanks =>
    have nothing : (text ++ []).dropWhile isBlank = [] := List.dropWhile_append_of_pos (blanks areBlanks)
    rw [List.append_nil] at nothing
    simp [closesNext, nothing, startsClosing]
  | @token g rest t ts areBlanks _ =>
    obtain ⟨c, cs, spelled, visible, mark⟩ := t.exists_first
    have first : (g ++ t.text ++ rest).dropWhile isBlank = c :: (cs ++ rest) := by
      rw [List.append_assoc, List.dropWhile_append_of_pos (blanks areBlanks), spelled]
      simp [visible]
    rw [closesNext, first]
    simpa [startsClosing] using Token.closes_of_first mark

theorem withoutTrailingCommas_comma (cs : List Char) :
    withoutTrailingCommas false (',' :: cs) =
      if closesNext cs then withoutTrailingCommas false cs else ',' :: withoutTrailingCommas false cs := rfl

theorem copies_withoutTrailingCommas : Copies (withoutTrailingCommas false) (withoutTrailingCommas true) where
  nil := rfl
  quiet := by
    intro c cs ⟨noQuote, _, noBackslash, noComma⟩
    simp [withoutTrailingCommas, noBackslash]
  opens := fun _ => rfl
  closes := fun _ => rfl
  escape := fun _ _ => rfl
  plain := by
    intro c cs ⟨noQuote, noBackslash⟩
    by_cases comma : c = ','
    · subst comma
      rfl
    · simp [withoutTrailingCommas, noBackslash]

theorem Spells.blanks {g text : List Char} {ts : List Token} (areBlanks : AreBlanks g)
    (spells : Spells AreBlanks AreBlanks ts text) : Spells AreBlanks AreBlanks ts (g ++ text) := by
  have joined {g' : List Char} (areBlanks' : AreBlanks g') : AreBlanks (g ++ g') := by
    intro c member
    exact (List.mem_append.mp member).elim (areBlanks c) (areBlanks' c)
  cases spells with
  | done areBlanks' => exact .done (joined areBlanks')
  | token areBlanks' rest =>
    rw [← List.append_assoc, ← List.append_assoc]
    exact .token (joined areBlanks') rest

theorem withoutTrailingCommas_spells {ts : List Token} {text : List Char}
    (spells : Spells AreBlanks AreBlanks ts text) :
    Spells AreBlanks AreBlanks (withoutLastCommas ts) (withoutTrailingCommas false text) ∧
      (withoutLastCommas ts = ts → withoutTrailingCommas false text = text) := by
  induction spells with
  | done areBlanks =>
    rw [copies_withoutTrailingCommas.blanks areBlanks]
    exact ⟨.done areBlanks, fun _ => rfl⟩
  | @token g rest t ts areBlanks restSpells inductionHypothesis =>
    obtain ⟨later, unchanged⟩ := inductionHypothesis
    rw [List.append_assoc, copies_withoutTrailingCommas.run (isQuiet_of_areBlanks areBlanks)]
    -- The reader looks ahead in the text, `withoutLastCommas` in the tokens: `closesNext_spells` says they agree.
    by_cases dropped : (t.isComma && startsClosing ts) = true
    · have fewer : withoutLastCommas (t :: ts) = withoutLastCommas ts := by
        rw [withoutLastCommas, dropped]
        rfl
      obtain ⟨isComma, closing⟩ := Bool.and_eq_true_iff.mp dropped
      cases t with
      | opening _ | closing _ | colon | scalar _ => cases isComma
      | comma =>
        have skipped : withoutTrailingCommas false (Token.comma.text ++ rest) =
            withoutTrailingCommas false rest := by
          simp [Token.text, withoutTrailingCommas_comma, closesNext_spells restSpells, closing]
        rw [skipped, fewer]
        refine ⟨later.blanks areBlanks, fun same => ?_⟩
        -- A list of tokens that has lost its first one is not the same.
        have shorter := length_withoutLastCommas_le ts
        rw [same, List.length_cons] at shorter
        omega
    · have same : withoutLastCommas (t :: ts) = t :: withoutLastCommas ts :=
        withoutLastCommas_cons (Bool.eq_false_iff.mpr dropped)
      have kept : withoutTrailingCommas false (t.text ++ rest) =
          t.text ++ withoutTrailingCommas false rest := by
        cases t with
        | opening _ | closing _ | colon | scalar _ => exact copies_withoutTrailingCommas.token rfl rest
        | comma =>
          have notClosing : startsClosing ts = false := by simpa [Token.isComma] using dropped
          simp [Token.text, withoutTrailingCommas_comma, closesNext_spells restSpells, notClosing]
      rw [kept, same, ← List.append_assoc]
      refine ⟨.token areBlanks later, fun unchangedTokens => ?_⟩
      rw [unchanged (List.cons.inj unchangedTokens).2, List.append_assoc]

/-! ## The commas behind last items -/

mutual

theorem relaxed_tokens (document : Document) : Relaxed document document.tokens := by
  cases document with
  | scalar s => exact .scalar
  | array items => exact .array (relaxedItems_itemTokens items)
  | object members => exact .object (relaxedMembers_memberTokens members)

theorem relaxedItems_itemTokens (items : List Document) : RelaxedItems items (itemTokens items) := by
  match items with
  | [] => exact .nil
  | [d] => exact .last (relaxed_tokens d)
  | d :: e :: ds => exact .cons (relaxed_tokens d) (relaxedItems_itemTokens (e :: ds))

theorem relaxedMembers_memberTokens (members : List (Name × Document)) :
    RelaxedMembers members (memberTokens members) := by
  match members with
  | [] => exact .nil
  | [(name, d)] => exact .last (relaxed_tokens d)
  | (name, d) :: m :: ms => exact .cons (relaxed_tokens d) (relaxedMembers_memberTokens (m :: ms))

end

/-- The first token of a value opens or stands for itself. -/
theorem startsClosing_relaxed {document : Document} {ts : List Token} (relaxed : Relaxed document ts)
    (rest : List Token) : startsClosing (ts ++ rest) = false := by
  cases relaxed <;> rfl

theorem startsClosing_items {d : Document} {ds : List Document} {ts : List Token}
    (relaxed : RelaxedItems (d :: ds) ts) (rest : List Token) : startsClosing (ts ++ rest) = false := by
  cases relaxed with
  | last item => exact startsClosing_relaxed item rest
  | lastComma item | cons item _ =>
    rw [List.append_assoc]
    exact startsClosing_relaxed item _

theorem startsClosing_members {m : Name × Document} {ms : List (Name × Document)} {ts : List Token}
    (relaxed : RelaxedMembers (m :: ms) ts) (rest : List Token) : startsClosing (ts ++ rest) = false := by
  cases relaxed <;> rfl

mutual

/-- A value does not end with a comma, so what is taken out of it does not depend on what follows. -/
theorem withoutLastCommas_relaxed {document : Document} {ts : List Token} (relaxed : Relaxed document ts)
    (rest : List Token) : withoutLastCommas (ts ++ rest) = document.tokens ++ withoutLastCommas rest := by
  cases relaxed with
  | scalar => simp [Document.tokens, withoutLastCommas, Token.isComma]
  | array items =>
    have inside := withoutLastCommas_items items .square rest
    simp [Document.tokens, withoutLastCommas_cons, Token.isComma, inside]
  | object members =>
    have inside := withoutLastCommas_members members .curly rest
    simp [Document.tokens, withoutLastCommas_cons, Token.isComma, inside]

theorem withoutLastCommas_items {items : List Document} {ts : List Token} (relaxed : RelaxedItems items ts)
    (b : Bracket) (rest : List Token) :
    withoutLastCommas (ts ++ .closing b :: rest) = itemTokens items ++ .closing b :: withoutLastCommas rest := by
  have closed : withoutLastCommas (.closing b :: rest) = .closing b :: withoutLastCommas rest :=
    withoutLastCommas_cons rfl
  cases relaxed with
  | nil => exact closed
  | last item => rw [withoutLastCommas_relaxed item, closed, itemTokens]
  | lastComma item =>
    rw [List.append_assoc, withoutLastCommas_relaxed item, itemTokens]
    simp [withoutLastCommas, Token.isComma, startsClosing, Token.isClosing]
  | @cons d e ds ts us item items =>
    have between : (Token.comma.isComma && startsClosing (us ++ .closing b :: rest)) = false := by
      simp [startsClosing_items items]
    rw [List.append_assoc, List.cons_append, withoutLastCommas_relaxed item, withoutLastCommas_cons between,
      withoutLastCommas_items items b rest, itemTokens]
    simp

theorem withoutLastCommas_members {members : List (Name × Document)} {ts : List Token}
    (relaxed : RelaxedMembers members ts) (b : Bracket) (rest : List Token) :
    withoutLastCommas (ts ++ .closing b :: rest) =
      memberTokens members ++ .closing b :: withoutLastCommas rest := by
  have closed : withoutLastCommas (.closing b :: rest) = .closing b :: withoutLastCommas rest :=
    withoutLastCommas_cons rfl
  have named (name : Name) (ts : List Token) : withoutLastCommas (.scalar name.scalar :: .colon :: ts) =
      .scalar name.scalar :: .colon :: withoutLastCommas ts := by
    rw [withoutLastCommas_cons rfl, withoutLastCommas_cons rfl]
  cases relaxed with
  | nil => exact closed
  | last value =>
    simp only [List.cons_append]
    rw [named, withoutLastCommas_relaxed value, closed, memberTokens]
    rfl
  | lastComma value =>
    simp only [List.cons_append, List.append_assoc]
    rw [named, withoutLastCommas_relaxed value, memberTokens]
    simp [withoutLastCommas, Token.isComma, startsClosing, Token.isClosing]
  | @cons name d m ms ts us value members =>
    have between : (Token.comma.isComma && startsClosing (us ++ .closing b :: rest)) = false := by
      simp [startsClosing_members members]
    simp only [List.cons_append, List.append_assoc]
    rw [named, withoutLastCommas_relaxed value, withoutLastCommas_cons between,
      withoutLastCommas_members members b rest, memberTokens]
    simp

end

/-! ## Stripping -/

/-- Whatever comments, blanks and last commas are put into strict JSON, stripping gives strict JSON with the same
    tokens, and leaves strict JSON as it is. -/
theorem strip_exact {document : Document} {strict commented : String} (isStrict : Strict document strict)
    (isCommented : WithComments document commented) :
    Strict document (strip commented) ∧
      (∀ other, Strict other (strip commented) → other.tokens = document.tokens) ∧ strip strict = strict := by
  have tokens {ts : List Token} (relaxed : Relaxed document ts) : withoutLastCommas ts = document.tokens := by
    have all := withoutLastCommas_relaxed relaxed []
    simpa only [List.append_nil, withoutLastCommas] using all
  have stripped : Strict document (strip commented) := by
    obtain ⟨ts, relaxed, spells⟩ := isCommented
    have spelled := (withoutTrailingCommas_spells (withoutComments_spells spells)).1
    rw [tokens relaxed] at spelled
    simpa [Strict, strip] using spelled
  refine ⟨stripped, fun other isOther => isOther.tokens_unique stripped, ?_⟩
  have unchanged := (withoutTrailingCommas_spells isStrict).2 (tokens (relaxed_tokens document))
  simp [strip, withoutComments_strict isStrict, unchanged]

theorem isStringBody_of_plain {cs : List Char} (plain : ∀ c ∈ cs, c ≠ '"' ∧ c ≠ '\\' ∧ 0x20 ≤ c.val) :
    IsStringBody cs := by
  induction cs with
  | nil => exact .nil
  | cons c cs inductionHypothesis =>
    obtain ⟨noQuote, noBackslash, visible⟩ := plain c List.mem_cons_self
    exact .plain noQuote noBackslash visible
      (inductionHypothesis fun d member => plain d (List.mem_cons_of_mem c member))

theorem spells_pairs (gap lastGap : List Char → Prop) (pairs : List (List Char × Token)) {g text : List Char}
    {ts : List Token} (tokens : ts = pairs.map (·.2))
    (spelled : text = pairs.foldr (fun p rest => p.1 ++ p.2.text ++ rest) g) (gaps : ∀ p ∈ pairs, gap p.1)
    (last : lastGap g) : Spells gap lastGap ts text := by
  subst tokens spelled
  induction pairs with
  | nil => exact .done last
  | cons p pairs inductionHypothesis =>
    exact .token (gaps p List.mem_cons_self)
      (inductionHypothesis fun q member => gaps q (List.mem_cons_of_mem p member))

/-- A name that holds the beginning of a comment, and a comma in front of a bracket. -/
def trickyName : Name where
  text := ['"', 'a', '/', '/', ',', '\x7d', '"']
  isString := ⟨['a', '/', '/', ',', '\x7d'], isStringBody_of_plain (by simp), rfl⟩

/-- A string with an escaped quote in front of the beginning of a comment. -/
def trickyString : Scalar where
  text := ['"', '\\', '"', '/', '*', '"']
  isScalar := .string ⟨['\\', '"', '/', '*'], .escape (by simp) (isStringBody_of_plain (by simp)), rfl⟩

def trickyDocument : Document := .object [(trickyName, .array [.scalar trickyString])]

/-- Comments with stars, brackets and commas in them, one between a last comma and its bracket. -/
theorem strip_exact_tricky :
    let strict := "\x7b\"a//,\x7d\":[\"\\\"/*\"]\x7d"
    let commented := "\x7b/***/\"a//,\x7d\"://,\n[\"\\\"/*\",/*]*/],\t\x7d//"
    Strict trickyDocument strict ∧ WithComments trickyDocument commented ∧
      Strict trickyDocument (strip commented) ∧
      (∀ other, Strict other (strip commented) → other.tokens = trickyDocument.tokens) ∧
      strip strict = strict := by
  intro strict commented
  have isStrict : Strict trickyDocument strict := by
    have nothing : AreBlanks [] := by simp [AreBlanks]
    exact spells_pairs AreBlanks AreBlanks [([], .opening .curly), ([], .scalar trickyName.scalar), ([], .colon),
      ([], .opening .square), ([], .scalar trickyString), ([], .closing .square), ([], .closing .curly)]
      rfl (by decide) (by simp [nothing]) nothing
  have isCommented : WithComments trickyDocument commented := by
    refine ⟨_, .object (.lastComma (.array (.lastComma .scalar))), ?_⟩
    have stars : IsGap ['/', '*', '*', '*', '/'] := @IsGap.block ['*'] [] (by decide) .nil
    have line : IsGap ['/', '/', ',', '\n'] := @IsGap.line [','] [] (by decide) .nil
    have bracket : IsGap ['/', '*', ']', '*', '/'] := @IsGap.block [']'] [] (by decide) .nil
    have tab : IsGap ['\t'] := .blank (by decide) .nil
    have last : IsLastGap ['/', '/'] := @IsLastGap.line [] [] (by decide) .nil
    exact spells_pairs IsGap IsLastGap [([], .opening .curly),
      (['/', '*', '*', '*', '/'], .scalar trickyName.scalar), ([], .colon),
      (['/', '/', ',', '\n'], .opening .square), ([], .scalar trickyString), ([], .comma),
      (['/', '*', ']', '*', '/'], .closing .square), ([], .comma), (['\t'], .closing .curly)]
      rfl (by decide) (by simp [stars, line, bracket, tab, IsGap.nil]) last
  exact ⟨isStrict, isCommented, strip_exact isStrict isCommented⟩

end CallAtlas.Json
