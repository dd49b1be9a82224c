import CallAtlas.Framework.Routes

/-!
# The options of a request

A request may be made with options, and among these with its method: `fetch("/a", { method: "PUT" })`.
The options are an object of entries, whose values are texts or further objects (`Entries`).  They are
written in many ways (`Entries.Spelled`), of which `Entries.print` gives one.

The method of the request is the outermost entry `method` (`Entries.own`).  A search through the text up to
the first closing brace takes the first entry that looks like a method instead, be it inside another object,
and nothing that stands behind an object (`Entries.taken`).
-/

namespace CallAtlas.Routes

open Text Scan

/-! ## Options and how they are written -/

/-- The key of an entry, and whether it is written in quotes. -/
structure EntryKey where
  name : List Char
  quoted : Bool
  deriving DecidableEq, Repr

/-- The entries of an object in their order.  Their values are texts or objects. -/
inductive Entries where
  | nil
  | text (key : EntryKey) (value : List Char) (rest : Entries)
  | object (key : EntryKey) (inner rest : Entries)
  deriving Repr

/-- Blanks only. -/
def AreBlank (cs : List Char) : Prop := ∀ c ∈ cs, isBlank c = true

/-- A text without quotes inside, between two quotes of one sort. -/
structure InQuotes (inner text : List Char) : Prop where
  free : ∀ c ∈ inner, isQuote c = false
  around : ∃ quote, isQuote quote = true ∧ text = quote :: (inner ++ [quote])

/-- A character of a key that is written without quotes. -/
def isKeyChar (c : Char) : Bool :=
  !isBlank c && !isQuote c && c ≠ ':' && c ≠ ',' && c ≠ '\x7b' && c ≠ '\x7d'

/-- The text is the key as it is written. -/
inductive EntryKey.Spelled : EntryKey → List Char → Prop where
  | bare {name : List Char} : name ≠ [] → (∀ c ∈ name, isKeyChar c = true) → Spelled ⟨name, false⟩ name
  | quoted {name text : List Char} : InQuotes name text → Spelled ⟨name, true⟩ text

/-- The text is a key with its colon, and blanks around. -/
def EntryKey.Heads (key : EntryKey) (text : List Char) : Prop :=
  ∃ lead name gap trail, AreBlank lead ∧ key.Spelled name ∧ AreBlank gap ∧ AreBlank trail ∧
    text = lead ++ (name ++ (gap ++ ':' :: trail))

/-- The text stands between an entry and the rest: a comma, which may be missing behind the last entry. -/
def Entries.Follow (rest : Entries) (text : List Char) : Prop :=
  ∃ gap comma, AreBlank gap ∧ (comma = [','] ∨ comma = [] ∧ rest = .nil) ∧ text = gap ++ comma

/-- The text is the entries as they are written, without the braces around them. -/
inductive Entries.Spelled : Entries → List Char → Prop where
  | nil {blanks : List Char} : AreBlank blanks → Spelled .nil blanks
  | text {key : EntryKey} {value : List Char} {rest : Entries} {head quoted comma tail : List Char} :
      key.Heads head → InQuotes value quoted → rest.Follow comma → Spelled rest tail →
      Spelled (.text key value rest) (head ++ (quoted ++ (comma ++ tail)))
  | object {key : EntryKey} {inner rest : Entries} {head inside comma tail : List Char} :
      key.Heads head → Spelled inner inside → rest.Follow comma → Spelled rest tail →
      Spelled (.object key inner rest) (head ++ '\x7b' :: (inside ++ '\x7d' :: (comma ++ tail)))

/-- The text is a request for an address with options, as it is written. -/
def IsFetch (url : List Char) (options : Entries) (text : List Char) : Prop :=
  ∃ lead address gap between inside trail, AreBlank lead ∧ InQuotes url address ∧ AreBlank gap ∧
    AreBlank between ∧ options.Spelled inside ∧ AreBlank trail ∧
    text = "fetch(".toList ++ (lead ++ (address ++ (gap ++ ',' :: (between ++ '\x7b' ::
      (inside ++ '\x7d' :: (trail ++ [')']))))))

/-! ## Writing options -/

def inDoubleQuotes (inner : List Char) : List Char := '\x22' :: (inner ++ ['\x22'])

def EntryKey.print (key : EntryKey) : List Char :=
  ' ' :: ((if key.quoted then inDoubleQuotes key.name else key.name) ++ [':', ' '])

/-- The comma in front of further entries. -/
def Entries.comma : Entries → List Char
  | nil => []
  | _ => [',']

/-- The entries on one line, without the braces around them. -/
def Entries.print : Entries → List Char
  | nil => [' ']
  | text key value rest => key.print ++ (inDoubleQuotes value ++ (rest.comma ++ rest.print))
  | object key inner rest => key.print ++ '\x7b' :: (inner.print ++ '\x7d' :: (rest.comma ++ rest.print))

/-- A request on one line. -/
def printFetch (url : List Char) (options : Entries) : List Char :=
  "fetch(".toList ++ (inDoubleQuotes url ++ (',' :: ' ' :: '\x7b' :: (options.print ++ ['\x7d', ')'])))

def EntryKey.isPrintable (key : EntryKey) : Bool :=
  if key.quoted then key.name.all (!isQuote ·) else !key.name.isEmpty && key.name.all isKeyChar

/-- No quotes stand in the texts, and no marks in the keys without quotes. -/
def Entries.isPrintable : Entries → Bool
  | nil => true
  | text key value rest => key.isPrintable && value.all (!isQuote ·) && rest.isPrintable
  | object key inner rest => key.isPrintable && inner.isPrintable && rest.isPrintable

instance areBlankDecidable : DecidablePred AreBlank := List.decidableBAll (isBlank · = true)

theorem inQuotes_inDoubleQuotes {inner : List Char} (free : inner.all (!isQuote ·) = true) :
    InQuotes inner (inDoubleQuotes inner) :=
  ⟨fun c member => by simpa using List.all_eq_true.mp free c member, '\x22', by decide, rfl⟩

theorem EntryKey.heads_print {key : EntryKey} (printable : key.isPrintable = true) : key.Heads key.print := by
  obtain ⟨name, quoted⟩ := key
  cases quoted with
  | false =>
    obtain ⟨nonempty, areKeys⟩ := Bool.and_eq_true_iff.mp printable
    have spelled : Spelled ⟨name, false⟩ name := .bare (by simpa using nonempty) (List.all_eq_true.mp areKeys)
    exact ⟨[' '], name, [], [' '], by decide, spelled, by decide, by decide, rfl⟩
  | true =>
    have spelled : Spelled ⟨name, true⟩ (inDoubleQuotes name) := .quoted (inQuotes_inDoubleQuotes printable)
    exact ⟨[' '], _, [], [' '], by decide, spelled, by decide, by decide, rfl⟩

theorem Entries.follow_comma (rest : Entries) : rest.Follow rest.comma := by
  cases rest with
  | nil => exact ⟨[], [], by decide, .inr ⟨rfl, rfl⟩, rfl⟩
  | text | object => exact ⟨[], [','], by decide, .inl rfl, rfl⟩

/-- What is written is spelled right. -/
theorem Entries.spelled_print {options : Entries} (printable : options.isPrintable = true) :
    options.Spelled options.print := by
  induction options with
  | nil => exact .nil (by decide)
  | text key value rest inductionHypothesis =>
    obtain ⟨front, printableRest⟩ := Bool.and_eq_true_iff.mp printable
    obtain ⟨printableKey, free⟩ := Bool.and_eq_true_iff.mp front
    exact .text (EntryKey.heads_print printableKey) (inQuotes_inDoubleQuotes free) rest.follow_comma
      (inductionHypothesis printableRest)
  | object key inner rest innerHypothesis restHypothesis =>
    obtain ⟨front, printableRest⟩ := Bool.and_eq_true_iff.mp printable
    obtain ⟨printableKey, printableInner⟩ := Bool.and_eq_true_iff.mp front
    exact .object (EntryKey.heads_print printableKey) (innerHypothesis printableInner) rest.follow_comma
      (restHypothesis printableRest)

theorem isFetch_printFetch {url : List Char} {options : Entries} (free : url.all (!isQuote ·) = true)
    (printable : options.isPrintable = true) : IsFetch url options (printFetch url options) :=
  ⟨[], _, [], [' '], _, [], by decide, inQuotes_inDoubleQuotes free, by decide, by decide,
    Entries.spelled_print printable, by decide, rfl⟩

/-! ## The method that is meant, and the one that is found -/

/-- The value of the outermost entry `method`.  Of several, the last one counts. -/
def Entries.own : Entries → Option (List Char)
  | nil => none
  | text key value rest => rest.own.or (if key.name = "method".toList then some value else none)
  | object _ _ rest => rest.own

/-- The name ends in `method`, without a word character in front. -/
def endsInMethod (inWord : Bool) : List Char → Bool
  | [] => false
  | c :: cs => (!inWord && c :: cs == "method".toList) || endsInMethod (isWord c) cs

/-- The key looks like `method` from its end. -/
def EntryKey.looksLikeMethod (key : EntryKey) : Bool := !key.quoted && endsInMethod false key.name

/-- The text is a word. -/
def isWordText (cs : List Char) : Bool := !cs.isEmpty && cs.all isWord

/-- The first word that stands behind something like `method`, before any closing brace. -/
def Entries.taken : Entries → Option (List Char)
  | nil => none
  | text key value rest =>
    if key.name.contains '\x7d' then none
    else if key.looksLikeMethod && isWordText value then some value
    else if value.contains '\x7d' then none
    else rest.taken
  | object key inner _ => if key.name.contains '\x7d' then none else inner.taken

/-- Options that are read right.  In front there are only texts that neither look like a method nor have a
    closing brace in them.  Then comes the method, without quotes around the key; or an object in which
    nothing looks like one, and no method behind it. -/
inductive Entries.Readable : Entries → Prop where
  | nil : Readable .nil
  | object {key : EntryKey} {inner rest : Entries} : inner.taken = none → rest.own = none →
      Readable (.object key inner rest)
  | method {key : EntryKey} {value : List Char} {rest : Entries} : key = ⟨"method".toList, false⟩ →
      isWordText value = true → rest.own = none → Readable (.text key value rest)
  | other {key : EntryKey} {value : List Char} {rest : Entries} : key.name ≠ "method".toList →
      key.looksLikeMethod = false → key.name.contains '\x7d' = false → value.contains '\x7d' = false →
      Readable rest → Readable (.text key value rest)

/-- The method of a request, in capital letters; `GET` if none is given. -/
def methodOf (given : Option (List Char)) : List Char := (given.map capitals).getD "GET".toList

theorem Entries.Readable.taken_eq_own {options : Entries} (readable : options.Readable) :
    options.taken = options.own := by
  induction readable with
  | nil => rfl
  | object nothingInside nothingBehind => rw [taken, own, nothingInside, nothingBehind, ite_self]
  | @method key value rest isMethod isWord noOther =>
    obtain ⟨looksLike, keyFree⟩ : key.looksLikeMethod = true ∧ key.name.contains '\x7d' = false := by
      rw [isMethod]
      decide
    have name : key.name = "method".toList := by rw [isMethod]
    rw [taken, own, noOther, isWord, looksLike, keyFree, if_pos name]
    rfl
  | other notMethod unlike keyFree valueFree _ inductionHypothesis =>
    rw [taken, own, unlike, keyFree, valueFree, if_neg notMethod, inductionHypothesis, Option.or_none]
    rfl

end CallAtlas.Routes
