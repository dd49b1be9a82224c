import CallAtlas.Proofs.LexemeSpacing
import CallAtlas.Proofs.SourceFiles
import CallAtlas.Staleness.Check
import Mathlib.Data.List.Basic

/-!
# Digests tell lexemes apart

Where the lexemes of the parameters or of the body change, the digest changes, and so a node that was
recorded before is reported as changed (`contentHash_ne_of_lexemes`).  Two things are not seen: how a literal
is spaced inside, and, if the parameters hold a zero character, where they end (`contentHash_unseen`).
-/

/-- Two messages with the same digest. -/
def CallAtlas.Digest.Sha256.Collide (m n : ByteArray) : Prop := m ≠ n ∧ hex m = hex n

namespace CallAtlas.Lexical

open CallAtlas.Digest CallAtlas.Syntax CallAtlas.Text

/-- The character that separates parameters and body. -/
def zero : Char := Char.ofNat 0

/-- The parameters and the body of a unit are made of the given lexemes. -/
structure UnitLexes (goals : Goals) (parameters body : String) (first second : List Lexeme) : Prop where
  parameters : Lexes goals [] false parameters.toList first
  body : Lexes goals [] false body.toList second

/-! ## Digested bytes -/

theorem contentBytes_eq (parameters body : String) :
    contentBytes parameters body =
      (Digest.normalize parameters ++ String.singleton zero ++ Digest.normalize body).toUTF8 := by
  have separator : [zero].utf8Encode.data = #[0] := rfl
  apply ByteArray.ext
  simp [contentBytes, separator]

theorem mem_respace {c : Char} {after : Bool} {cs : List Char} (member : c ∈ respace after cs) :
    c ∈ cs ∨ c = ' ' ∨ c = '\n' := by
  induction cs using unifyLineEnds.induct generalizing after with
  | case1 => cases member
  | case2 cs inductionHypothesis =>
    rw [respace_lineEnd] at member
    rcases List.mem_cons.mp member with rfl | later
    · exact .inr (.inr rfl)
    · exact (inductionHypothesis later).imp_left fun inside => by simp [inside]
  | case3 d cs apart inductionHypothesis =>
    have onward : ∀ {flag : Bool}, c ∈ respace flag cs → c ∈ d :: cs ∨ c = ' ' ∨ c = '\n' :=
      fun later => (inductionHypothesis later).imp_left (List.mem_cons_of_mem d)
    by_cases pad : isPad d = true
    · rw [respace_pad pad] at member
      cases after with
      | true => exact onward member
      | false =>
        rcases List.mem_cons.mp member with rfl | later
        · exact .inr (.inl rfl)
        · exact onward later
    · rw [respace_other (by simpa using pad) apart] at member
      rcases List.mem_cons.mp member with rfl | later
      · unfold Mode.seen
        split
        · exact .inr (.inr rfl)
        · exact .inl List.mem_cons_self
      · exact onward later

/-- The normal form has no zero character that the text does not have. -/
theorem zero_not_mem_normalize {text : String} (free : zero ∉ text.toList) :
    zero ∉ (Digest.normalize text).toList := by
  intro member
  rw [Digest.normalize, String.toList_ofList, normalForm_eq_trim_respace, trim, trimEnd, dropEndWhile,
    List.mem_reverse] at member
  have inside := List.mem_reverse.mp ((List.dropWhile_sublist _).mem member)
  rcases mem_respace ((List.dropWhile_sublist _).mem inside) with here | space | lineFeed
  · exact free here
  · cases space
  · cases lineFeed

/-- The first zero character tells where the first part ends. -/
theorem split_at_first {c : Char} {xs ys others rest : List Char} (free : c ∉ xs) (otherFree : c ∉ others)
    (same : xs ++ c :: ys = others ++ c :: rest) : xs = others ∧ ys = rest := by
  induction xs generalizing others with
  | nil =>
    cases others with
    | nil => exact ⟨rfl, (List.cons.inj same).2⟩
    | cons d others =>
      rw [List.nil_append, List.cons_append, List.cons.injEq] at same
      exact (otherFree (by simp [same.1])).elim
  | cons x xs inductionHypothesis =>
    cases others with
    | nil =>
      rw [List.nil_append, List.cons_append, List.cons.injEq] at same
      exact (free (by simp [same.1])).elim
    | cons d others =>
      rw [List.cons_append, List.cons_append, List.cons.injEq] at same
      obtain ⟨front, back⟩ := inductionHypothesis (fun member => free (List.mem_cons_of_mem x member))
        (fun member => otherFree (List.mem_cons_of_mem d member)) same.2
      exact ⟨by rw [same.1, front], back⟩

theorem normalize_eq_of_contentBytes {parameters body others otherBody : String}
    (free : zero ∉ parameters.toList) (otherFree : zero ∉ others.toList)
    (same : contentBytes parameters body = contentBytes others otherBody) :
    normalForm parameters.toList = normalForm others.toList ∧
      normalForm body.toList = normalForm otherBody.toList := by
  rw [contentBytes_eq, contentBytes_eq] at same
  have texts := congrArg String.toList (toUTF8_injective same)
  simp only [String.toList_append, String.toList_singleton, List.append_assoc, List.singleton_append]
    at texts
  obtain ⟨front, back⟩ := split_at_first (zero_not_mem_normalize free) (zero_not_mem_normalize otherFree)
    texts
  exact ⟨by simpa [Digest.normalize] using front, by simpa [Digest.normalize] using back⟩

/-- Texts with the same normal form have the same lexemes, but for the spacing inside of literals. -/
theorem spaced_eq_of_normalForm {goals : Goals} {cs ds : List Char} {out others : List Lexeme}
    (first : Lexes goals [] false cs out) (second : Lexes goals [] false ds others)
    (same : normalForm cs = normalForm ds) : out.map Lexeme.spaced = others.map Lexeme.spaced := by
  have normal := first.normalForm
  rw [same] at normal
  exact normal.unique second.normalForm

/-! ## Digests -/

/-- Two units whose lexemes differ in more than the spacing inside of literals have different digests, and
    if one is recorded and the other is found, the node has changed.  The parameters hold no zero character,
    and the bytes that are digested are no collision. -/
theorem contentHash_ne_of_lexemes {goals : Goals} {parameters body others otherBody : String}
    {first second first' second' : List Lexeme}
    (before : UnitLexes goals parameters body first second)
    (after : UnitLexes goals others otherBody first' second')
    (free : zero ∉ parameters.toList) (otherFree : zero ∉ others.toList)
    (noCollision : ¬ Sha256.Collide (contentBytes parameters body) (contentBytes others otherBody))
    (edited : (first.map Lexeme.spaced, second.map Lexeme.spaced) ≠
      (first'.map Lexeme.spaced, second'.map Lexeme.spaced)) :
    contentHash parameters body ≠ contentHash others otherBody ∧
      ∀ (tree : FileTree) (root : String) (config : Config) (n : Node) (u : CodeUnit),
        n.contentHash = contentHash parameters body → u.params = others → u.body = otherBody →
        tree.isFile (recordedPath tree root config.resolution.rootPrefixes n.filePath) = true →
        unitOfFile tree config.parsing.maxFileSize
          (recordedPath tree root config.resolution.rootPrefixes n.filePath) n.name = .ok (some u) →
        nodeStatus tree root config n = .stale u.hash .changed := by
  have different : contentHash parameters body ≠ contentHash others otherBody := by
    intro same
    have bytes : contentBytes parameters body = contentBytes others otherBody := by
      by_contra differ
      exact noCollision ⟨differ, same⟩
    -- The same bytes are the same normal forms, on both sides of the first zero character.
    obtain ⟨front, back⟩ := normalize_eq_of_contentBytes free otherFree bytes
    apply edited
    rw [spaced_eq_of_normalForm before.parameters after.parameters front,
      spaced_eq_of_normalForm before.body after.body back]
  refine ⟨different, ?_⟩
  rintro tree root config n u recorded rfl rfl file found
  have notCurrent : (u.hash == n.contentHash) = false := by
    rw [beq_eq_false_iff_ne, recorded]
    exact different.symm
  simp only [nodeStatus, file, found, notCurrent, Bool.not_true, Bool.false_eq_true, if_false]

/-- The braces that are open behind the given lexemes, the last one first; `true` stands for one that a
    template has opened. -/
def openBraces : List Mark → List Bool
  | [] => []
  | m :: past =>
    match m.kind with
    | .template resumes opens =>
      let around := if resumes then (openBraces past).tail else openBraces past
      if opens then true :: around else around
    | .punctuator =>
      if m.text = ['\x7b'] then false :: openBraces past
      else if m.text = ['\x7d'] then (openBraces past).tail
      else openBraces past
    | _ => openBraces past

/-- What is usual: a slash starts a regular expression at the start, behind an operator, and behind an opening
    bracket, and a brace that a template has opened leads back into it. -/
def usualGoals : Goals := fun past _ =>
  { regExp := (past.head?.map fun m => m.kind == .punctuator && m.text ∉ [[')'], [']'], ['\x7d']]).getD true
    template := (openBraces past).head? == some true }

/-- The lexemes of a body that returns `a` combined with a string. -/
def returned (operator quoted : String) : List Lexeme :=
  [⟨.punctuator, ['\x7b']⟩, ⟨.word, "return".toList⟩, ⟨.word, ['a']⟩, ⟨.punctuator, operator.toList⟩,
    ⟨.string, singleQuote :: quoted.toList ++ [singleQuote]⟩, ⟨.punctuator, [';']⟩, ⟨.punctuator, ['\x7d']⟩]

/-- The lexemes of the parameter `a` in parentheses. -/
def oneParameter : List Lexeme := [⟨.punctuator, ['(']⟩, ⟨.word, ['a']⟩, ⟨.punctuator, [')']⟩]

/-- Another operator is seen, whatever happens to the spacing. -/
theorem contentHash_ne_of_operator :
    let before := "\x7b return a + 'x  y'; \x7d"
    let after := "\x7b\r\n\treturn a - 'x y';\r\n\x7d"
    (UnitLexes usualGoals "(a)" before oneParameter (returned "+" "x  y") ∧
      UnitLexes usualGoals "( a )" after oneParameter (returned "-" "x y")) ∧
    contentHash "(a)" before ≠ contentHash "( a )" after ∧
      ∀ (tree : FileTree) (root : String) (config : Config) (n : Node) (u : CodeUnit),
        n.contentHash = contentHash "(a)" before → u.params = "( a )" → u.body = after →
        tree.isFile (recordedPath tree root config.resolution.rootPrefixes n.filePath) = true →
        unitOfFile tree config.parsing.maxFileSize
          (recordedPath tree root config.resolution.rootPrefixes n.filePath) n.name = .ok (some u) →
        nodeStatus tree root config n = .stale u.hash .changed := by
  intro before after
  have lexed : lexemes? usualGoals 30 [] false "(a)".toList = some oneParameter ∧
      lexemes? usualGoals 30 [] false before.toList = some (returned "+" "x  y") ∧
      lexemes? usualGoals 30 [] false "( a )".toList = some oneParameter ∧
      lexemes? usualGoals 30 [] false after.toList = some (returned "-" "x y") := by
    decide +kernel
  obtain ⟨ofParameters, ofBody, ofOthers, ofOtherBody⟩ := lexed
  have first : UnitLexes usualGoals "(a)" before oneParameter (returned "+" "x  y") :=
    ⟨.of_lexemes? ofParameters, .of_lexemes? ofBody⟩
  have second : UnitLexes usualGoals "( a )" after oneParameter (returned "-" "x y") :=
    ⟨.of_lexemes? ofOthers, .of_lexemes? ofOtherBody⟩
  have different : Sha256.hex (contentBytes "(a)" before) ≠ Sha256.hex (contentBytes "( a )" after) := by
    decide +kernel
  exact ⟨⟨first, second⟩, contentHash_ne_of_lexemes first second (by decide) (by decide)
    (fun collision => different collision.2) (by decide +kernel)⟩

/-- What is not seen: a space inside of a string, and the end of parameters with a zero character in a
    comment. -/
theorem contentHash_unseen :
    (UnitLexes usualGoals "(a)" "\x7b return a + 'x  y'; \x7d" oneParameter (returned "+" "x  y") ∧
      UnitLexes usualGoals "(a)" "\x7b return a + 'x y'; \x7d" oneParameter (returned "+" "x y") ∧
      returned "+" "x  y" ≠ returned "+" "x y" ∧
      contentHash "(a)" "\x7b return a + 'x  y'; \x7d" = contentHash "(a)" "\x7b return a + 'x y'; \x7d") ∧
    (UnitLexes usualGoals "a //" "b //\x00c\nd" [⟨.word, ['a']⟩] [⟨.word, ['b']⟩, ⟨.word, ['d']⟩] ∧
      UnitLexes usualGoals "a //\x00b //" "c\nd" [⟨.word, ['a']⟩] [⟨.word, ['c']⟩, ⟨.word, ['d']⟩] ∧
      contentHash "a //" "b //\x00c\nd" = contentHash "a //\x00b //" "c\nd") := by
  have spaced : lexemes? usualGoals 30 [] false "(a)".toList = some oneParameter ∧
      lexemes? usualGoals 30 [] false "\x7b return a + 'x  y'; \x7d".toList = some (returned "+" "x  y") ∧
      lexemes? usualGoals 30 [] false "\x7b return a + 'x y'; \x7d".toList = some (returned "+" "x y") ∧
      returned "+" "x  y" ≠ returned "+" "x y" ∧
      contentBytes "(a)" "\x7b return a + 'x  y'; \x7d" =
        contentBytes "(a)" "\x7b return a + 'x y'; \x7d" := by
    decide +kernel
  have cut : lexemes? usualGoals 30 [] false "a //".toList = some [⟨.word, ['a']⟩] ∧
      lexemes? usualGoals 30 [] false "b //\x00c\nd".toList = some [⟨.word, ['b']⟩, ⟨.word, ['d']⟩] ∧
      lexemes? usualGoals 30 [] false "a //\x00b //".toList = some [⟨.word, ['a']⟩] ∧
      lexemes? usualGoals 30 [] false "c\nd".toList = some [⟨.word, ['c']⟩, ⟨.word, ['d']⟩] ∧
      contentBytes "a //" "b //\x00c\nd" = contentBytes "a //\x00b //" "c\nd" := by
    decide +kernel
  obtain ⟨ofParameters, wide, narrow, different, sameBytes⟩ := spaced
  obtain ⟨ofShort, ofLong, ofOther, ofRest, sameCut⟩ := cut
  exact ⟨⟨⟨.of_lexemes? ofParameters, .of_lexemes? wide⟩, ⟨.of_lexemes? ofParameters, .of_lexemes? narrow⟩,
    different, congrArg Sha256.hex sameBytes⟩,
    ⟨.of_lexemes? ofShort, .of_lexemes? ofLong⟩, ⟨.of_lexemes? ofOther, .of_lexemes? ofRest⟩,
    congrArg Sha256.hex sameCut⟩

end CallAtlas.Lexical
