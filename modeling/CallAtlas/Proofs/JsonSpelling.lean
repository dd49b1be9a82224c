import CallAtlas.Json.Parser

/-!
# JSON texts and their tokens

A `Document` is a JSON value with the exact text of its names, strings, numbers and words.  It is written as a
list of tokens, and a text spells the tokens with gaps around them.  In a strict text the gaps are blanks
(`Strict`).  In a text with comments the gaps may hold comments too, and a comma may stand behind the last item
or member between two brackets (`WithComments`).
-/

namespace CallAtlas.Json

/-! ## Scalars -/

/-- What stands between the quotes of a string. -/
inductive IsStringBody : List Char → Prop where
  | nil : IsStringBody []
  | plain {c : Char} {cs : List Char} : c ≠ '"' → c ≠ '\\' → 0x20 ≤ c.val → IsStringBody cs →
      IsStringBody (c :: cs)
  | escape {c : Char} {cs : List Char} : c ∈ ['"', '\\', '/', 'b', 'f', 'n', 'r', 't'] →
      IsStringBody cs → IsStringBody ('\\' :: c :: cs)
  | unit {a b c d : Char} {cs : List Char} : (hexFour? a b c d).isSome = true → IsStringBody cs →
      IsStringBody ('\\' :: 'u' :: a :: b :: c :: d :: cs)

def IsString (text : List Char) : Prop := ∃ body, IsStringBody body ∧ text = '"' :: body ++ ['"']

def AreDigits (digits : List Char) : Prop := ∀ c ∈ digits, c.isDigit = true

/-- The digits in front of the point: a zero only if there is no other digit. -/
inductive IsWhole : List Char → Prop where
  | zero : IsWhole ['0']
  | other {d : Char} {digits : List Char} : d ≠ '0' → AreDigits (d :: digits) → IsWhole (d :: digits)

inductive IsFraction : List Char → Prop where
  | none : IsFraction []
  | some {d : Char} {digits : List Char} : AreDigits (d :: digits) → IsFraction ('.' :: d :: digits)

inductive IsExponent : List Char → Prop where
  | none : IsExponent []
  | some {e d : Char} {sign digits : List Char} : e = 'e' ∨ e = 'E' → sign ∈ [[], ['+'], ['-']] →
      AreDigits (d :: digits) → IsExponent (e :: sign ++ d :: digits)

inductive IsNumber : List Char → Prop where
  | mk {sign whole fraction exponent : List Char} : sign ∈ [[], ['-']] → IsWhole whole →
      IsFraction fraction → IsExponent exponent → IsNumber (sign ++ whole ++ fraction ++ exponent)

inductive IsScalar : List Char → Prop where
  | string {text : List Char} : IsString text → IsScalar text
  | number {text : List Char} : IsNumber text → IsScalar text
  | word {text : List Char} : text ∈ ["true".toList, "false".toList, "null".toList] → IsScalar text

/-- A string, a number or a word, as it is written. -/
structure Scalar where
  text : List Char
  isScalar : IsScalar text

/-- The name of a member, as it is written. -/
structure Name where
  text : List Char
  isString : IsString text

def Name.scalar (name : Name) : Scalar := ⟨name.text, .string name.isString⟩

/-! ## Documents and tokens -/

/-- A JSON value with the texts of its scalars. -/
inductive Document where
  | scalar (s : Scalar)
  | array (items : List Document)
  | object (members : List (Name × Document))

inductive Bracket where
  | square
  | curly

inductive Token where
  | opening (b : Bracket)
  | closing (b : Bracket)
  | colon
  | comma
  | scalar (s : Scalar)

def Token.text : Token → List Char
  | opening .square => ['[']
  | opening .curly => ['\x7b']
  | closing .square => [']']
  | closing .curly => ['\x7d']
  | colon => [':']
  | comma => [',']
  | scalar s => s.text

mutual

def Document.tokens : Document → List Token
  | .scalar s => [.scalar s]
  | .array items => .opening .square :: itemTokens items ++ [.closing .square]
  | .object members => .opening .curly :: memberTokens members ++ [.closing .curly]

def itemTokens : List Document → List Token
  | [] => []
  | [d] => d.tokens
  | d :: e :: ds => d.tokens ++ .comma :: itemTokens (e :: ds)

def memberTokens : List (Name × Document) → List Token
  | [] => []
  | [(name, d)] => .scalar name.scalar :: .colon :: d.tokens
  | (name, d) :: m :: ms => .scalar name.scalar :: .colon :: d.tokens ++ .comma :: memberTokens (m :: ms)

end

mutual

/-- The tokens of a document, with or without a comma behind the last item or member in each pair of brackets. -/
inductive Relaxed : Document → List Token → Prop where
  | scalar {s : Scalar} : Relaxed (.scalar s) [.scalar s]
  | array {items : List Document} {ts : List Token} : RelaxedItems items ts →
      Relaxed (.array items) (.opening .square :: ts ++ [.closing .square])
  | object {members : List (Name × Document)} {ts : List Token} : RelaxedMembers members ts →
      Relaxed (.object members) (.opening .curly :: ts ++ [.closing .curly])

inductive RelaxedItems : List Document → List Token → Prop where
  | nil : RelaxedItems [] []
  | last {d : Document} {ts : List Token} : Relaxed d ts → RelaxedItems [d] ts
  | lastComma {d : Document} {ts : List Token} : Relaxed d ts → RelaxedItems [d] (ts ++ [.comma])
  | cons {d e : Document} {ds : List Document} {ts us : List Token} : Relaxed d ts →
      RelaxedItems (e :: ds) us → RelaxedItems (d :: e :: ds) (ts ++ .comma :: us)

inductive RelaxedMembers : List (Name × Document) → List Token → Prop where
  | nil : RelaxedMembers [] []
  | last {name : Name} {d : Document} {ts : List Token} : Relaxed d ts →
      RelaxedMembers [(name, d)] (.scalar name.scalar :: .colon :: ts)
  | lastComma {name : Name} {d : Document} {ts : List Token} : Relaxed d ts →
      RelaxedMembers [(name, d)] (.scalar name.scalar :: .colon :: ts ++ [.comma])
  | cons {name : Name} {d : Document} {m : Name × Document} {ms : List (Name × Document)}
      {ts us : List Token} : Relaxed d ts → RelaxedMembers (m :: ms) us →
      RelaxedMembers ((name, d) :: m :: ms) (.scalar name.scalar :: .colon :: ts ++ .comma :: us)

end

/-! ## Texts -/

/-- The text spells the tokens, with a gap in front of each of them and one at the end. -/
inductive Spells (gap lastGap : List Char → Prop) : List Token → List Char → Prop where
  | done {g : List Char} : lastGap g → Spells gap lastGap [] g
  | token {g rest : List Char} {t : Token} {ts : List Token} : gap g → Spells gap lastGap ts rest →
      Spells gap lastGap (t :: ts) (g ++ t.text ++ rest)

def AreBlanks (g : List Char) : Prop := ∀ c ∈ g, isSpace c = true

/-- Blanks, comments up to the end of a line, and comments between `/*` and `*/`. -/
inductive IsGap : List Char → Prop where
  | nil : IsGap []
  | blank {c : Char} {g : List Char} : isSpace c = true → IsGap g → IsGap (c :: g)
  | line {content g : List Char} : '\n' ∉ content → IsGap g →
      IsGap ('/' :: '/' :: content ++ '\n' :: g)
  | block {content g : List Char} : ¬ ['*', '/'] <:+: content → IsGap g →
      IsGap ('/' :: '*' :: content ++ '*' :: '/' :: g)

/-- At the end of a text, the last line may be a comment. -/
inductive IsLastGap : List Char → Prop where
  | gap {g : List Char} : IsGap g → IsLastGap g
  | line {content g : List Char} : '\n' ∉ content → IsGap g → IsLastGap (g ++ '/' :: '/' :: content)

/-- The text is strict JSON for a document. -/
def Strict (document : Document) (text : String) : Prop :=
  Spells AreBlanks AreBlanks document.tokens text.toList

/-- The text is a document with blanks, comments and commas behind last items put in. -/
def WithComments (document : Document) (text : String) : Prop :=
  ∃ ts, Relaxed document ts ∧ Spells IsGap IsLastGap ts text.toList

end CallAtlas.Json
