import CallAtlas.Proofs.BalancedBraces
import CallAtlas.Proofs.CommentLines

/-!
# Tags as they are written

A tag is a name with a text behind it, or, for an example, with lines below it.  Here are the tags that can be
written (`WrittenTag`), the lines each of them takes, and what each of them says.  The types hold only what can
be told apart again: a text has no blanks around it, a name has none inside, a type has its braces balanced.

A tag is added to a comment for exactly what it says (`add_written`), also if blank lines come behind it.
-/

namespace CallAtlas.DocComment

open Text

/-! ## Parts of tags -/

/-- A text on one line, without blanks around it. -/
structure Phrase where
  chars : List Char
  unbroken : '\n' ∉ chars
  trimmed : trim chars = chars

/-- A name without blanks. -/
structure Word where
  chars : List Char
  nonempty : chars ≠ []
  solid : ∀ c ∈ chars, isBlank c = false

structure TypeText where
  chars : List Char
  unbroken : '\n' ∉ chars
  balanced : Balanced chars

/-- Lines of text, or none.  No line has blanks at its end or opens a tag, the first one has none at its start, and
    neither the first nor the last is empty. -/
structure Paragraph where
  lines : List (List Char)
  unbroken : ∀ line ∈ lines, '\n' ∉ line
  ends : ∀ line ∈ lines, trimEnd line = line
  noTag : ∀ line ∈ lines, (trimStart line).head? ≠ some '@'
  first : ∀ line ∈ lines.head?, line ≠ [] ∧ trimStart line = line
  last : ∀ line ∈ lines.getLast?, line ≠ []

def Paragraph.text (paragraph : Paragraph) : List Char := ['\n'].intercalate paragraph.lines

/-! ## Tags -/

/-- The names of the tags that have a place of their own. -/
def ownNames : List String :=
  ["example", "param", "arg", "argument", "returns", "return", "throws", "exception", "see", "deprecated"]

inductive WrittenTag where
  | param (type : TypeText) (name : Word) (text : Phrase)
  | returns (type : TypeText) (text : Phrase) (nonempty : text.chars ≠ [])
  | throws (text : Phrase)
  | see (text : Phrase)
  /-- With or without a reason. -/
  | deprecated (text : Phrase)
  | sample (code : Paragraph)
  | other (name : Word) (text : Phrase) (free : String.ofList name.chars ∉ ownNames)

namespace WrittenTag

def name : WrittenTag → String
  | param .. => "param"
  | returns .. => "returns"
  | throws _ => "throws"
  | see _ => "see"
  | deprecated _ => "deprecated"
  | sample _ => "example"
  | other name .. => String.ofList name.chars

/-- What stands behind the name. -/
def text : WrittenTag → List Char
  | param type name text =>
    '\x7b' :: (type.chars ++ '\x7d' :: ' ' :: (name.chars ++ ' ' :: '-' :: ' ' :: text.chars))
  | returns type text _ => '\x7b' :: (type.chars ++ '\x7d' :: ' ' :: text.chars)
  | throws text | see text | deprecated text | other _ text _ => text.chars
  | sample _ => []

/-- Only the name is written. -/
def standsAlone : WrittenTag → Bool
  | sample _ => true
  | deprecated text => text.chars.isEmpty
  | _ => false

def headLine (tag : WrittenTag) : List Char :=
  '@' :: (tag.name.toList ++ if tag.standsAlone then [] else ' ' :: tag.text)

def below : WrittenTag → List (List Char)
  | sample code => code.lines
  | _ => []

def lines (tag : WrittenTag) : List (List Char) := tag.headLine :: tag.below

/-! What a tag says, one list for each place in a comment. -/

@[simp]
def params : WrittenTag → List ParamDoc
  | param _ name text => [⟨String.ofList name.chars, String.ofList text.chars⟩]
  | _ => []

@[simp]
def results : WrittenTag → List String
  | returns _ text _ => [String.ofList text.chars]
  | _ => []

@[simp]
def samples : WrittenTag → List String
  | sample code => [String.ofList code.text]
  | _ => []

@[simp]
def failures : WrittenTag → List String
  | throws text => [String.ofList text.chars]
  | _ => []

@[simp]
def references : WrittenTag → List String
  | see text => [String.ofList text.chars]
  | _ => []

@[simp]
def deprecations : WrittenTag → List Deprecation
  | deprecated text => [if text.chars = [] then .flagged else .reason (String.ofList text.chars)]
  | _ => []

@[simp]
def others : WrittenTag → List DocTag
  | other name text _ => [⟨String.ofList name.chars, String.ofList text.chars⟩]
  | _ => []

/-- The comment with what a tag says added to it. -/
def addTo (tag : WrittenTag) (doc : DocComment) : DocComment where
  description := doc.description
  params := doc.params ++ tag.params
  returns := tag.results.getLast?.or doc.returns
  examples := doc.examples ++ tag.samples
  throws := doc.throws ++ tag.failures
  see := doc.see ++ tag.references
  deprecated := tag.deprecations.getLast?.or doc.deprecated
  tags := doc.tags ++ tag.others

end WrittenTag

/-! ## Reading the first line -/

theorem Phrase.trimEnd_chars (phrase : Phrase) : trimEnd phrase.chars = phrase.chars :=
  trimEnd_of_trim phrase.trimmed

theorem solid_of_all {cs : List Char} (all : cs.all (!isBlank ·) = true) : ∀ c ∈ cs, isBlank c = false := by
  intro c member
  simpa using List.all_eq_true.mp all c member

theorem solid_of_mem_ownNames {name : String} (own : name ∈ ownNames) :
    ∀ c ∈ name.toList, isBlank c = false := by
  have all : ownNames.all (fun name => name.toList.all (!isBlank ·)) = true := by decide
  exact solid_of_all (List.all_eq_true.mp all name own)

theorem WrittenTag.name_solid (tag : WrittenTag) : ∀ c ∈ tag.name.toList, isBlank c = false := by
  cases tag with
  | other name =>
    rw [WrittenTag.name, String.toList_ofList]
    exact name.solid
  | param | returns | throws | see | deprecated | sample => exact solid_of_mem_ownNames (by simp [WrittenTag.name, ownNames])

theorem opening?_of_cut {rest name text : List Char} (cut : cutAt isBlank rest = some (name, text)) :
    opening? ('@' :: rest) = some (name, trim text) := by
  have start : trimStart ('@' :: rest) = '@' :: rest := rfl
  simp only [opening?, start, cut]

theorem opening?_of_solid {name : List Char} (solid : ∀ c ∈ name, isBlank c = false) :
    opening? ('@' :: name) = some (name, []) := by
  have start : trimStart ('@' :: name) = '@' :: name := rfl
  have whole : cutAt isBlank name = none := by
    rw [Option.eq_none_iff_forall_ne_some]
    rintro ⟨front, back⟩ cut
    obtain ⟨c, rfl, blank, -⟩ := (cutAt_eq_some_iff ..).mp cut
    rw [solid c (by simp)] at blank
    cases blank
  simp only [opening?, start, whole]

theorem cutAt_append_space {name : List Char} (solid : ∀ c ∈ name, isBlank c = false) (rest : List Char) :
    cutAt isBlank (name ++ ' ' :: rest) = some (name, rest) :=
  (cutAt_eq_some_iff ..).mpr ⟨' ', rfl, by decide, solid⟩

theorem trimEnd_head {name : List Char} (solid : ∀ c ∈ name, isBlank c = false) (back : List Char) :
    trimEnd ('@' :: (name ++ back)) = '@' :: (name ++ trimEnd back) := by
  have sign : isBlank '@' = false := by decide
  rw [trimEnd_cons_of_solid sign, trimEnd_append_of_solid solid]

theorem opening?_head {name : List Char} (solid : ∀ c ∈ name, isBlank c = false) (text : List Char) :
    opening? (trimEnd ('@' :: (name ++ ' ' :: text))) = some (name, trim text) := by
  rw [trimEnd_head solid, trimEnd_cons_of_isBlank isBlank_space]
  split
  · rename_i nothing
    rw [List.append_nil, opening?_of_solid solid, ← trim_trimEnd, nothing]
    rfl
  · rw [opening?_of_cut (cutAt_append_space solid _), trim_trimEnd]

theorem WrittenTag.text_of_standsAlone {tag : WrittenTag} (alone : tag.standsAlone = true) : tag.text = [] := by
  cases tag with
  | sample => rfl
  | deprecated => exact List.isEmpty_iff.mp alone
  | param | returns | throws | see | other => cases alone

theorem WrittenTag.opening?_headLine (tag : WrittenTag) :
    opening? (trimEnd tag.headLine) = some (tag.name.toList, trim tag.text) := by
  unfold headLine
  split
  · rename_i alone
    -- With a space behind it, the name reads the same.
    have spaced : trimEnd ('@' :: (tag.name.toList ++ [])) = trimEnd ('@' :: (tag.name.toList ++ [' '])) := by
      rw [trimEnd_head tag.name_solid, trimEnd_head tag.name_solid]
      rfl
    rw [spaced, opening?_head tag.name_solid [], text_of_standsAlone alone]
  · exact opening?_head tag.name_solid tag.text

/-! ## Reading the text -/

theorem oneLine_of_blank {blanks : List (List Char)} (blank : ∀ line ∈ blanks, line = []) (text : List Char) :
    oneLine (trim text :: blanks) = trim text := by
  have gone : (blanks.map trim).filter (!·.isEmpty) = [] := by
    rw [List.filter_eq_nil_iff]
    intro line member
    obtain ⟨original, inside, rfl⟩ := List.mem_map.mp member
    rw [blank original inside]
    decide
  rw [oneLine, List.map_cons, trim_trim, List.filter_cons, gone]
  split
  · rfl
  · rename_i empty
    have nothing : trim text = [] := by simpa using empty
    rw [nothing]
    rfl

/-- A type in braces is taken off, with the blanks behind it. -/
theorem stripType_typeText (type : TypeText) (rest : List Char) :
    stripType ('\x7b' :: (type.chars ++ '\x7d' :: rest)) = trimStart rest :=
  stripType_of_closed (typeScan?_eq_closed_iff.mpr ⟨type.chars, type.balanced, rfl⟩)

theorem Phrase.trimStart_chars (phrase : Phrase) : trimStart phrase.chars = phrase.chars := by
  obtain ⟨-, -, -, -, -, first, -⟩ := exists_around_trim phrase.chars
  rw [phrase.trimmed] at first
  exact dropWhile_of_head first

theorem Word.trimStart_append (word : Word) (rest : List Char) :
    trimStart (word.chars ++ rest) = word.chars ++ rest := by
  obtain ⟨c, cs, chars⟩ := List.exists_cons_of_ne_nil word.nonempty
  have solid : isBlank c = false := word.solid c (by simp [chars])
  simp [trimStart, chars, solid]

/-- A text that starts with a type keeps it, up to a visible character behind it. -/
theorem trim_typeText {front : List Char} {c : Char} (last : front.getLast? = some c) (solid : isBlank c = false)
    (back : List Char) : trim ('\x7b' :: (front ++ back)) = '\x7b' :: (front ++ trimEnd back) := by
  have brace : isBlank '\x7b' = false := by decide
  rw [trim_cons_of_solid brace, trimEnd, dropEndWhile_append_of_last last solid, trimEnd]

theorem paramDoc?_param (type : TypeText) (name : Word) (text : Phrase) :
    paramDoc? (trim (WrittenTag.param type name text).text) =
      some ⟨String.ofList name.chars, String.ofList text.chars⟩ := by
  have hyphen : isBlank '-' = false := by decide
  have trimmed : trim (WrittenTag.param type name text).text =
      '\x7b' :: (type.chars ++ '\x7d' :: ' ' :: (name.chars ++ ' ' :: '-' :: trimEnd (' ' :: text.chars))) := by
    have last : (type.chars ++ '\x7d' :: ' ' :: (name.chars ++ [' ', '-'])).getLast? = some '-' := by
      simp [List.getLast?_cons]
    have kept := trim_typeText last hyphen (' ' :: text.chars)
    simpa [WrittenTag.text] using kept
  have stripped : stripType (trim (WrittenTag.param type name text).text) =
      name.chars ++ ' ' :: '-' :: trimEnd (' ' :: text.chars) := by
    rw [trimmed, stripType_typeText]
    exact name.trimStart_append _
  have behind : trim ('-' :: trimEnd (' ' :: text.chars)) = '-' :: trimEnd (' ' :: text.chars) := by
    rw [trim_cons_of_solid hyphen, trimEnd_trimEnd]
  have description : trim (trimEnd (' ' :: text.chars)) = text.chars := by
    rw [trim_trimEnd, trim_cons_of_isBlank isBlank_space, text.trimmed]
  have named : name.chars.isEmpty = false := by simpa using name.nonempty
  have hyphenTaken (rest : List Char) : stripChar '-' ('-' :: rest) = rest := rfl
  simp [paramDoc?, stripped, cutAt_append_space name.solid, behind, named, hyphenTaken, description]

theorem stripType_returns (type : TypeText) (text : Phrase) (nonempty : text.chars ≠ []) :
    stripType (trim (WrittenTag.returns type text nonempty).text) = text.chars := by
  have brace : isBlank '\x7d' = false := by decide
  have trimmed : trim (WrittenTag.returns type text nonempty).text =
      '\x7b' :: (type.chars ++ '\x7d' :: ' ' :: text.chars) := by
    have last : (type.chars ++ ['\x7d']).getLast? = some '\x7d' := by simp
    have kept := trim_typeText last brace (' ' :: text.chars)
    rw [trimEnd_cons_of_isBlank isBlank_space, text.trimEnd_chars, if_neg nonempty] at kept
    simpa [WrittenTag.text] using kept
  rw [trimmed, stripType_typeText]
  exact text.trimStart_chars

/-! ## Reading paragraphs -/

/-- Blank lines behind other lines are line feeds. -/
theorem intercalate_append_blanks {lines blanks : List (List Char)} (nonempty : lines ≠ [])
    (blank : ∀ line ∈ blanks, line = []) :
    ∃ feeds, (∀ c ∈ feeds, c = '\n') ∧ ['\n'].intercalate (lines ++ blanks) = ['\n'].intercalate lines ++ feeds := by
  induction blanks generalizing lines with
  | nil => exact ⟨[], by simp, by simp⟩
  | cons line blanks inductionHypothesis =>
    have more : lines ++ [line] ≠ [] := by simp
    obtain ⟨feeds, areFeeds, joined⟩ := inductionHypothesis more
      fun other member => blank other (List.mem_cons_of_mem line member)
    refine ⟨'\n' :: feeds, by simpa using areFeeds, ?_⟩
    rw [List.append_cons, joined, intercalate_concat nonempty, blank line List.mem_cons_self]
    simp

namespace Paragraph

variable (paragraph : Paragraph)

theorem exists_text_eq_append {line : List Char} {rest : List (List Char)} (lines : paragraph.lines = line :: rest) :
    ∃ tail, paragraph.text = line ++ tail := by
  cases rest with
  | nil => exact ⟨[], by simp [text, lines]⟩
  | cons second rest => exact ⟨_, by rw [text, lines, List.intercalate_cons_cons, List.append_assoc]⟩

theorem text_eq_nil_iff : paragraph.text = [] ↔ paragraph.lines = [] := by
  cases lines : paragraph.lines with
  | nil => simp [text, lines]
  | cons line rest =>
    obtain ⟨tail, joined⟩ := paragraph.exists_text_eq_append lines
    obtain ⟨nonempty, -⟩ := paragraph.first line (by rw [lines]; rfl)
    simp [joined, nonempty]

theorem head?_text (c : Char) (isFirst : paragraph.text.head? = some c) : isBlank c = false := by
  cases lines : paragraph.lines with
  | nil =>
    rw [paragraph.text_eq_nil_iff.mpr lines] at isFirst
    cases isFirst
  | cons line rest =>
    obtain ⟨tail, joined⟩ := paragraph.exists_text_eq_append lines
    obtain ⟨nonempty, start⟩ := paragraph.first line (by rw [lines]; rfl)
    rw [joined, List.head?_append, List.head?_eq_some_head nonempty, Option.some_or,
      ← List.head?_eq_some_head nonempty, ← start] at isFirst
    exact solid_of_head?_trimStart isFirst

theorem getLast?_text (c : Char) (isLast : paragraph.text.getLast? = some c) : isBlank c = false := by
  unfold text at isLast
  rcases List.eq_nil_or_concat paragraph.lines with none | ⟨front, line, lines⟩
  · simp [none] at isLast
  · have nonempty : line ≠ [] := paragraph.last line (by simp [lines])
    have lineLast : line.getLast? = some c := by
      by_cases more : front = []
      · simpa [lines, more] using isLast
      · rw [lines, List.concat_eq_append, intercalate_concat more, List.getLast?_append,
          List.getLast?_eq_some_getLast nonempty, Option.some_or] at isLast
        rw [List.getLast?_eq_some_getLast nonempty, isLast]
    rw [← paragraph.ends line (by simp [lines])] at lineLast
    exact solid_of_getLast?_trimEnd lineLast

/-- Between blank lines a paragraph has line feeds around it. -/
theorem exists_feeds {blanks : List (List Char)} (blank : ∀ line ∈ blanks, line = []) :
    ∃ front back, (∀ c ∈ front, c = '\n') ∧ (∀ c ∈ back, c = '\n') ∧
      joinWith ['\n'] ([] :: (paragraph.lines ++ blanks)) = front ++ paragraph.text ++ back := by
  obtain ⟨back, backFeeds, joined⟩ := intercalate_append_blanks (List.cons_ne_nil [] paragraph.lines) blank
  have before : ∃ front, (∀ c ∈ front, c = '\n') ∧ ['\n'].intercalate ([] :: paragraph.lines) = front ++ paragraph.text := by
    by_cases none : paragraph.lines = []
    · exact ⟨[], by simp, by simp [text, none]⟩
    · exact ⟨['\n'], by simp, by rw [List.intercalate_cons_of_ne_nil none]; rfl⟩
  obtain ⟨front, frontFeeds, started⟩ := before
  exact ⟨front, back, frontFeeds, backFeeds, by rw [joinWith_eq_intercalate, ← started, ← joined]; rfl⟩

theorem trim_joinWith {blanks : List (List Char)} (blank : ∀ line ∈ blanks, line = []) :
    trim (joinWith ['\n'] ([] :: (paragraph.lines ++ blanks))) = paragraph.text := by
  obtain ⟨front, back, frontFeeds, backFeeds, joined⟩ := paragraph.exists_feeds blank
  have feedBlank : isBlank '\n' = true := by decide
  rw [joined]
  exact trimMatches_enclosed (fun c member => frontFeeds c member ▸ feedBlank)
    (fun c member => backFeeds c member ▸ feedBlank) paragraph.head?_text paragraph.getLast?_text

theorem trimMatches_joinWith {blanks : List (List Char)} (blank : ∀ line ∈ blanks, line = []) :
    trimMatches (· = '\n') (joinWith ['\n'] ([] :: (paragraph.lines ++ blanks))) = paragraph.text := by
  obtain ⟨front, back, frontFeeds, backFeeds, joined⟩ := paragraph.exists_feeds blank
  have noFeed {c : Char} (solid : isBlank c = false) : decide (c = '\n') = false := by
    refine decide_eq_false ?_
    rintro rfl
    cases solid
  rw [joined]
  exact trimMatches_enclosed (fun c member => decide_eq_true (frontFeeds c member))
    (fun c member => decide_eq_true (backFeeds c member)) (fun c isFirst => noFeed (paragraph.head?_text c isFirst))
    fun c isLast => noFeed (paragraph.getLast?_text c isLast)

end Paragraph

/-! ## Adding a tag -/

theorem Phrase.oneLine_chars (phrase : Phrase) {blanks : List (List Char)} (blank : ∀ line ∈ blanks, line = []) :
    oneLine (trim phrase.chars :: blanks) = phrase.chars := by
  rw [oneLine_of_blank blank, phrase.trimmed]

theorem add_of_free {name : String} (free : name ∉ ownNames) (doc : DocComment) (body : List (List Char)) :
    add doc ⟨name.toList, body⟩ = { doc with tags := doc.tags ++ [⟨name, String.ofList (oneLine body)⟩] } := by
  simp only [ownNames, List.mem_cons, not_or] at free
  simp only [add, String.ofList_toList]
  split <;> simp_all

/-- A tag is added for what it says, whatever blank lines come behind it. -/
theorem add_written (tag : WrittenTag) {blanks : List (List Char)} (blank : ∀ line ∈ blanks, line = [])
    (doc : DocComment) : add doc ⟨tag.name.toList, trim tag.text :: (tag.below ++ blanks)⟩ = tag.addTo doc := by
  cases tag with
  | param type name text =>
    simp only [add, String.ofList_toList, WrittenTag.name, WrittenTag.below, List.nil_append, oneLine_of_blank blank,
      paramDoc?_param]
    simp [WrittenTag.addTo]
  | returns type text nonempty =>
    have given : text.chars.isEmpty = false := by simpa using nonempty
    simp only [add, String.ofList_toList, WrittenTag.name, WrittenTag.below, List.nil_append, oneLine_of_blank blank,
      stripType_returns, given]
    simp [WrittenTag.addTo]
  | throws text | see text | deprecated text =>
    simp only [add, String.ofList_toList, WrittenTag.name, WrittenTag.below, List.nil_append, WrittenTag.text,
      text.oneLine_chars blank]
    simp [WrittenTag.addTo]
  | sample code =>
    have nothing : trim (WrittenTag.sample code).text = [] := rfl
    simp only [add, String.ofList_toList, WrittenTag.name, WrittenTag.below, nothing, code.trimMatches_joinWith blank]
    simp [WrittenTag.addTo]
  | other name text free =>
    simp only [WrittenTag.name, WrittenTag.below, List.nil_append, WrittenTag.text, add_of_free free,
      text.oneLine_chars blank]
    simp [WrittenTag.addTo]

end CallAtlas.DocComment
