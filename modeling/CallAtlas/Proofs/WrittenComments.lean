import CallAtlas.Proofs.WrittenTags

/-!
# Comments as they are written

A comment is written as a block: an opening, the lines of the description and of the tags, each in its frame, and
an end.  What is read from the block is what was written (`ofRaw?_block`).

The first and the last line of a block are blank once their frame is gone.  The last one falls to the tag in front
of it, or to the description if there is no tag.
-/

namespace CallAtlas.DocComment

open Text

structure WrittenComment where
  description : Paragraph
  tags : List WrittenTag

/-- A line of a block, in its frame. -/
def framed (line : List Char) : List Char := ' ' :: '*' :: ' ' :: (line ++ ['\n'])

namespace WrittenComment

def lines (comment : WrittenComment) : List (List Char) :=
  comment.description.lines ++ comment.tags.flatMap WrittenTag.lines

def block (comment : WrittenComment) : String :=
  String.ofList ('/' :: '*' :: '*' :: '\n' :: (comment.lines.flatMap framed ++ [' ', '*', '/']))

/-- What the comment says.  Of several results, and of several deprecations, the last one counts. -/
def meaning (comment : WrittenComment) : DocComment where
  description :=
    if comment.description.lines = [] then none else some (String.ofList comment.description.text)
  params := comment.tags.flatMap WrittenTag.params
  returns := (comment.tags.flatMap WrittenTag.results).getLast?
  examples := comment.tags.flatMap WrittenTag.samples
  throws := comment.tags.flatMap WrittenTag.failures
  see := comment.tags.flatMap WrittenTag.references
  deprecated := (comment.tags.flatMap WrittenTag.deprecations).getLast?
  tags := comment.tags.flatMap WrittenTag.others

end WrittenComment

/-! ## The lines of a block -/

theorem unbroken_of_solid {cs : List Char} (solid : ∀ c ∈ cs, isBlank c = false) : '\n' ∉ cs := by
  intro member
  cases solid '\n' member

theorem WrittenTag.text_unbroken (tag : WrittenTag) : '\n' ∉ tag.text := by
  cases tag with
  | param type name text =>
    simp [WrittenTag.text, type.unbroken, unbroken_of_solid name.solid, text.unbroken]
  | returns type text => simp [WrittenTag.text, type.unbroken, text.unbroken]
  | throws text | see text | deprecated text | other name text => exact text.unbroken
  | sample => exact List.not_mem_nil

theorem WrittenTag.unbroken (tag : WrittenTag) : ∀ line ∈ tag.lines, '\n' ∉ line := by
  intro line member
  rcases List.mem_cons.mp member with rfl | below
  · have name := unbroken_of_solid tag.name_solid
    have text := tag.text_unbroken
    unfold headLine
    split <;> simp [name, text]
  · cases tag with
    | sample code => exact code.unbroken line below
    | param | returns | throws | see | deprecated | other => cases below

theorem WrittenComment.unbroken (comment : WrittenComment) : ∀ line ∈ comment.lines, '\n' ∉ line := by
  intro line member
  rcases List.mem_append.mp member with inDescription | inTags
  · exact comment.description.unbroken line inDescription
  · obtain ⟨tag, -, inTag⟩ := List.mem_flatMap.mp inTags
    exact tag.unbroken line inTag

/-- The opening and the end are taken off a block, and its first line feed stays. -/
theorem inner_block (body : List Char) :
    inner ('/' :: '*' :: '*' :: '\n' :: (body ++ [' ', '*', '/'])) = '\n' :: (body ++ [' ']) := by
  have slash : isBlank '/' = false := by decide
  have trimmed : trim ('/' :: '*' :: '*' :: '\n' :: (body ++ [' ', '*', '/'])) =
      '/' :: '*' :: '*' :: '\n' :: (body ++ [' ', '*', '/']) := by
    have last : ('*' :: '*' :: '\n' :: (body ++ [' ', '*', '/'])).getLast? = some '/' := by simp [List.getLast?_cons]
    rw [trim_cons_of_solid slash, trimEnd, dropEndWhile_of_last]
    intro c isLast
    rw [last] at isLast
    cases isLast
    exact slash
  have opened : dropOpenings ('/' :: '*' :: '*' :: '\n' :: (body ++ [' ', '*', '/'])) =
      '\n' :: (body ++ [' ', '*', '/']) := by
    rw [dropOpenings, dropOpenings.eq_2]
    intro cs same
    cases same
  have reversed : ('\n' :: (body ++ [' ', '*', '/'])).reverse = '/' :: '*' :: ' ' :: (body.reverse ++ ['\n']) := by simp
  have closed : dropClosingsReversed ('/' :: '*' :: ' ' :: (body.reverse ++ ['\n'])) =
      ' ' :: (body.reverse ++ ['\n']) := by
    rw [dropClosingsReversed, dropClosingsReversed.eq_2]
    intro cs same
    cases same
  rw [inner, trimmed, opened, reversed, closed]
  simp

theorem map_bare_lines_framed {ls : List (List Char)} (unbroken : ∀ line ∈ ls, '\n' ∉ line) :
    (lines (ls.flatMap framed ++ [' '])).map bare = ls.map trimEnd ++ [[]] := by
  induction ls with
  | nil => decide
  | cons line ls inductionHypothesis =>
    have first : '\n' ∉ ' ' :: '*' :: ' ' :: line := by simpa using unbroken line List.mem_cons_self
    have rest := inductionHypothesis fun other member => unbroken other (List.mem_cons_of_mem line member)
    have shape : (line :: ls).flatMap framed ++ [' '] =
        ' ' :: '*' :: ' ' :: line ++ '\n' :: (ls.flatMap framed ++ [' ']) := by
      simp [framed]
    rw [shape, map_bare_lines_append first, bare_framed, rest]
    rfl

theorem bareLines_block (comment : WrittenComment) :
    bareLines comment.block.toList = [] :: (comment.lines.map trimEnd ++ [[]]) := by
  have firstLine (rest : List Char) : (lines ('\n' :: rest)).map bare = [] :: (lines rest).map bare :=
    map_bare_lines_append List.not_mem_nil rest
  rw [bareLines, WrittenComment.block, String.toList_ofList, inner_block, firstLine,
    map_bare_lines_framed comment.unbroken]

/-! ## Cutting the lines into tags -/

theorem sections_append {front : List (List Char)} (plain : ∀ line ∈ front, opening? line = none)
    (rest : List (List Char)) : sections (front ++ rest) = (front ++ (sections rest).1, (sections rest).2) := by
  induction front with
  | nil => rfl
  | cons line front inductionHypothesis =>
    have others := inductionHypothesis fun other member => plain other (List.mem_cons_of_mem line member)
    simp only [List.cons_append, sections, others, plain line List.mem_cons_self]

theorem sections_cons_of_opening {line name text : List Char} (opens : opening? line = some (name, text))
    (rest : List (List Char)) :
    sections (line :: rest) = ([], ⟨name, text :: (sections rest).1⟩ :: (sections rest).2) := by
  simp only [sections, opens]

theorem opening?_eq_none {line : List Char} (noTag : (trimStart line).head? ≠ some '@') : opening? line = none := by
  unfold opening?
  split
  · rename_i rest starts
    exact absurd (by rw [starts]; rfl) noTag
  · rfl

theorem Paragraph.plain (paragraph : Paragraph) : ∀ line ∈ paragraph.lines, opening? line = none :=
  fun line member => opening?_eq_none (paragraph.noTag line member)

theorem Paragraph.map_trimEnd (paragraph : Paragraph) : paragraph.lines.map trimEnd = paragraph.lines := by
  have kept : ∀ line ∈ paragraph.lines, trimEnd line = id line := paragraph.ends
  rw [List.map_congr_left kept, List.map_id]

theorem WrittenTag.plain_below (tag : WrittenTag) : ∀ line ∈ tag.below, opening? line = none := by
  cases tag with
  | sample code => exact code.plain
  | param | returns | throws | see | deprecated | other => exact fun _ member => nomatch member

theorem WrittenTag.map_trimEnd_below (tag : WrittenTag) : tag.below.map trimEnd = tag.below := by
  cases tag with
  | sample code => exact code.map_trimEnd
  | param | returns | throws | see | deprecated | other => rfl

/-- The lines of tags and the blank line behind them.  In front of the first tag there is nothing but that line,
    if there is no tag; the tags say what was written. -/
theorem sections_tags (tags : List WrittenTag) (doc : DocComment) :
    (∀ line ∈ (sections ((tags.flatMap WrittenTag.lines).map trimEnd ++ [[]])).1, line = []) ∧
      (sections ((tags.flatMap WrittenTag.lines).map trimEnd ++ [[]])).2.foldl add doc =
        tags.foldl (fun doc tag => tag.addTo doc) doc := by
  induction tags generalizing doc with
  | nil => exact ⟨fun line member => List.mem_singleton.mp member, rfl⟩
  | cons tag tags inductionHypothesis =>
    obtain ⟨blank, folded⟩ := inductionHypothesis (tag.addTo doc)
    have shape : ((tag :: tags).flatMap WrittenTag.lines).map trimEnd ++ [[]] =
        trimEnd tag.headLine :: (tag.below ++ ((tags.flatMap WrittenTag.lines).map trimEnd ++ [[]])) := by
      simp [WrittenTag.lines, tag.map_trimEnd_below]
    -- The tag takes the lines below it, and whatever stands in front of the next one.
    rw [shape, sections_cons_of_opening tag.opening?_headLine, sections_append tag.plain_below]
    refine ⟨by simp, ?_⟩
    rw [List.foldl_cons, add_written tag blank, folded, List.foldl_cons]

/-! ## What all tags say together -/

theorem foldl_addTo (tags : List WrittenTag) (doc : DocComment) :
    tags.foldl (fun doc tag => tag.addTo doc) doc =
      { description := doc.description
        params := doc.params ++ tags.flatMap WrittenTag.params
        returns := (tags.flatMap WrittenTag.results).getLast?.or doc.returns
        examples := doc.examples ++ tags.flatMap WrittenTag.samples
        throws := doc.throws ++ tags.flatMap WrittenTag.failures
        see := doc.see ++ tags.flatMap WrittenTag.references
        deprecated := (tags.flatMap WrittenTag.deprecations).getLast?.or doc.deprecated
        tags := doc.tags ++ tags.flatMap WrittenTag.others } := by
  induction tags generalizing doc with
  | nil => simp
  | cons tag tags inductionHypothesis =>
    rw [List.foldl_cons, inductionHypothesis]
    simp [WrittenTag.addTo, List.getLast?_append, Option.or_assoc]

/-- No tag is lost. -/
theorem WrittenTag.says_something (tag : WrittenTag) :
    ¬ (tag.params = [] ∧ tag.results = [] ∧ tag.samples = [] ∧ tag.failures = [] ∧ tag.references = [] ∧
      tag.deprecations = [] ∧ tag.others = []) := by
  cases tag <;> simp

theorem WrittenComment.meaning_eq_empty_iff (comment : WrittenComment) :
    comment.meaning = empty ↔ comment.description.lines = [] ∧ comment.tags = [] := by
  constructor
  · intro nothing
    simp only [meaning, empty, DocComment.mk.injEq, List.getLast?_eq_none_iff, List.flatMap_eq_nil_iff] at nothing
    obtain ⟨noDescription, params, results, samples, failures, references, deprecations, others⟩ := nothing
    refine ⟨by simpa using noDescription, List.eq_nil_iff_forall_not_mem.mpr fun tag member => ?_⟩
    exact tag.says_something ⟨params tag member, results tag member, samples tag member, failures tag member,
      references tag member, deprecations tag member, others tag member⟩
  · rintro ⟨noDescription, noTags⟩
    simp [meaning, empty, noDescription, noTags]

/-! ## Reading a block -/

theorem sections_block (comment : WrittenComment) :
    ∃ blanks tags, sections (bareLines comment.block.toList) = ([] :: (comment.description.lines ++ blanks), tags) ∧
      (∀ line ∈ blanks, line = []) ∧
      tags.foldl add empty = comment.tags.foldl (fun doc tag => tag.addTo doc) empty := by
  obtain ⟨blank, folded⟩ := sections_tags comment.tags empty
  have plain : ∀ line ∈ [] :: comment.description.lines, opening? line = none := by
    intro line member
    rcases List.mem_cons.mp member with rfl | inside
    · rfl
    · exact comment.description.plain line inside
  refine ⟨_, _, ?_, blank, folded⟩
  rw [bareLines_block, WrittenComment.lines, List.map_append, comment.description.map_trimEnd, List.append_assoc]
  exact sections_append plain _

/-- A comment is read as it was written, whatever its line ends.  A block in which nothing was written is no
    comment. -/
theorem ofRaw?_block (comment : WrittenComment) :
    ofRaw? comment.block =
        (if comment.description.lines = [] ∧ comment.tags = [] then none else some comment.meaning) ∧
      ofRaw? (withReturns comment.block) = ofRaw? comment.block := by
  refine ⟨?_, ofRaw?_withReturns comment.block⟩
  obtain ⟨blanks, tags, cut, blank, folded⟩ := sections_block comment
  have read : (if comment.description.text.isEmpty then tags.foldl add empty
      else { tags.foldl add empty with description := some (String.ofList comment.description.text) }) =
        comment.meaning := by
    rw [folded, foldl_addTo]
    simp only [List.isEmpty_iff, comment.description.text_eq_nil_iff, WrittenComment.meaning, empty, List.nil_append,
      Option.or_none]
    split <;> rfl
  simp only [ofRaw?, cut, comment.description.trim_joinWith blank, read, comment.meaning_eq_empty_iff]

/-- A comment with a line of each sort. -/
def refundComment : WrittenComment where
  description :=
    ⟨["Refunds a charge.".toList, [], "  At most once.".toList], by decide, by decide, by decide, by decide, by decide⟩
  tags := [
    .param ⟨['\x7b', '\x7d'], by decide, .braces .nil .nil⟩ ⟨"id".toList, by decide, solid_of_all rfl⟩
      ⟨"The charge.".toList, by decide, by decide⟩,
    .sample ⟨["refund(id)".toList], by decide, by decide, by decide, by decide, by decide⟩,
    .other ⟨"since".toList, by decide, solid_of_all rfl⟩ ⟨"2.0".toList, by decide, by decide⟩ (by decide),
    .deprecated ⟨[], by decide, by decide⟩]

theorem ofRaw?_block_refund :
    ofRaw? ("/**\n * Refunds a charge.\n * \n *   At most once.\n * @param \x7b\x7b\x7d\x7d id - The charge.\n" ++
      " * @example\n * refund(id)\n * @since 2.0\n * @deprecated\n */") =
    some ⟨some "Refunds a charge.\n\n  At most once.", [⟨"id", "The charge."⟩], none, ["refund(id)"], [], [],
      some .flagged, [⟨"since", "2.0"⟩]⟩ := by
  have block : refundComment.block =
      "/**\n * Refunds a charge.\n * \n *   At most once.\n * @param \x7b\x7b\x7d\x7d id - The charge.\n" ++
        " * @example\n * refund(id)\n * @since 2.0\n * @deprecated\n */" := by decide +kernel
  have meaning : refundComment.meaning = ⟨some "Refunds a charge.\n\n  At most once.", [⟨"id", "The charge."⟩], none,
      ["refund(id)"], [], [], some .flagged, [⟨"since", "2.0"⟩]⟩ := by decide
  rw [← block, ← meaning, (ofRaw?_block refundComment).1, if_neg (by decide)]

end CallAtlas.DocComment
