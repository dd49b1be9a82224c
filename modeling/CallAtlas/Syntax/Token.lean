import CallAtlas.Syntax.Cursor

/-!
# Tokens

`Token.scan` reads the token at a cursor.  Three kinds of token are not found here, because what they
are depends on the construct being read: regular expressions (a slash), the characters of a template
(a backtick) and the text of markup.  Their first character is reported as punctuation, and the
parser scans on from there with `regexEnd?`, `templateRun` and the like.

`Cursor.lookahead` skips the blanks and comments in front of a token, and remembers the comments and
whether a line ended among them.
-/

namespace CallAtlas.Syntax

inductive Token where
  /-- An identifier or a keyword. -/
  | word (text : String)
  /-- A name that starts with `#`. -/
  | privateName
  | number
  | string
  /-- An operator or a bracket. -/
  | punct (text : String)
  /-- A character that starts no token. -/
  | stray
  | endOfInput
  deriving DecidableEq, Repr, Inhabited

namespace Token

/-- The operators and brackets, a longer one before its beginnings. -/
def punctuators : List String :=
  [">>>=", "...", "===", "!==", "**=", "<<=", ">>=", ">>>", "&&=", "||=", "??=",
   "=>", "==", "!=", "<=", ">=", "&&", "||", "??", "?.", "++", "--", "+=", "-=", "*=", "/=",
   "%=", "&=", "|=", "^=", "<<", ">>", "**",
   "\x7b", "\x7d", "(", ")", "[", "]", ";", ",", "<", ">", "+", "-", "*", "/", "%", "&", "|", "^",
   "!", "~", "?", ":", "=", ".", "@", "`"]

def afterPrefix? : List Char → List Char → Option (List Char)
  | [], cs => some cs
  | _ :: _, [] => none
  | p :: ps, c :: cs => if p = c then afterPrefix? ps cs else none

/-- The operator or bracket that `cs` starts with.  A question mark and a point in front of a digit
    are two tokens. -/
def punctuator? (cs : List Char) : Option String :=
  match cs with
  | '?' :: '.' :: d :: _ => if d.isDigit then some "?" else punctuators.find? (startsWith cs)
  | _ => punctuators.find? (startsWith cs)
where
  startsWith (cs : List Char) (p : String) : Bool := (afterPrefix? p.toList cs).isSome

/-- Move behind the closing quote `q` of a string.  A string ends in its line, unless a backslash
    stands before the line end. -/
def stringEnd? (q : Char) : List Char → Nat → Nat → Option Cursor
  | [], _, _ => none
  | '\\' :: '\r' :: '\n' :: xs, offset, row => stringEnd? q xs (offset + 3) (row + 1)
  | '\\' :: x :: xs, offset, row =>
    stringEnd? q xs (offset + 1 + x.utf8Size) (Cursor.rowAfter row x)
  | x :: xs, offset, row =>
    if x = q then some ⟨xs, offset + x.utf8Size, row⟩
    else if x = '\n' || x = '\r' then none
    else stringEnd? q xs (offset + x.utf8Size) row

/-- A digit of any base, a separator, a base letter or the suffix of a long integer. -/
def isNumberChar (c : Char) : Bool := c.isAlphanum || c = '_'

/-- Move over a number.  The sign of an exponent belongs to a decimal number, a second point to
    none. -/
def numberEnd (c : Cursor) : Cursor :=
  let radix := match c.rest with
    | '0' :: x :: _ => x = 'x' || x = 'X' || x = 'o' || x = 'O' || x = 'b' || x = 'B'
    | _ => false
  if radix then c.skipWhile isNumberChar
  else
    let whole := c.skipWhile isNumberChar
    let fraction := match whole.rest with
      | '.' :: _ => whole.next.skipWhile isNumberChar
      | _ => whole
    match fraction.rest with
    | x :: d :: _ =>
      if (x = '+' || x = '-') && d.isDigit && endsWithExponent (c.textTo fraction) then
        fraction.next.skipWhile isNumberChar
      else fraction
    | _ => fraction
where
  endsWithExponent (text : String) : Bool :=
    match text.toList.reverse with
    | 'e' :: _ | 'E' :: _ => true
    | _ => false

def scan (c : Cursor) : Token × Cursor :=
  match c.rest with
  | [] => (endOfInput, c)
  | x :: xs =>
    if isWordStart x then
      let stop := c.skipWhile isWordChar
      (word (c.textTo stop), stop)
    else if x = '\\' then
      let stop := c.skipWhile fun y => isWordChar y || y = '\\' || y = '\x7b' || y = '\x7d'
      (word (c.textTo stop), stop)
    else if x.isDigit then (number, numberEnd c)
    else if x = doubleQuote || x = singleQuote then
      match stringEnd? x xs (c.offset + 1) c.row with
      | some stop => (string, stop)
      | none => (stray, c.next)
    else match x, xs with
      | '.', d :: _ => if d.isDigit then (number, numberEnd c) else punctuation c
      | '#', y :: _ =>
        if isWordStart y then (privateName, c.next.skipWhile isWordChar) else (stray, c.next)
      | _, _ => punctuation c
where
  punctuation (c : Cursor) : Token × Cursor :=
    match punctuator? c.rest with
    | some p => (punct p, c.drop p.length)
    | none => (stray, c.next)

/-- The spelling of a word or of punctuation; the other tokens have no fixed one. -/
def spelling : Token → String
  | word t => t
  | punct t => t
  | _ => ""

def spells (text : String) (t : Token) : Bool :=
  t == word text || t == punct text

def isWord : Token → Bool
  | word _ => true
  | _ => false

/-- The keywords in front of an operand. -/
def operatorWords : List String :=
  ["await", "case", "delete", "do", "else", "extends", "in", "instanceof", "new", "of", "return",
   "throw", "typeof", "void", "yield"]

/-- An operand may end with the token, so that a slash behind it divides. -/
def endsOperand : Token → Bool
  | word text => !operatorWords.contains text
  | punct text => [")", "]", "\x7d", "++", "--"].contains text
  | _ => true

end Token

/-! ## Regular expressions and templates -/

/-- Move behind the slash that closes a regular expression; inside brackets a slash closes
    nothing. -/
def regexEnd? : Bool → List Char → Nat → Nat → Option Cursor
  | _, [], _, _ => none
  | inClass, '\\' :: x :: xs, offset, row =>
    if x = '\n' then none else regexEnd? inClass xs (offset + 1 + x.utf8Size) row
  | inClass, x :: xs, offset, row =>
    if x = '\n' || x = '\r' then none
    else if x = '/' && !inClass then some ⟨xs, offset + 1, row⟩
    else if x = '[' then regexEnd? true xs (offset + 1) row
    else if x = ']' then regexEnd? false xs (offset + 1) row
    else regexEnd? inClass xs (offset + x.utf8Size) row

/-- Move over the regular expression at a cursor, up to its flags. -/
def Cursor.regex? (c : Cursor) : Option Cursor :=
  match c.rest with
  | '/' :: xs => regexEnd? false xs (c.offset + 1) c.row
  | _ => none

/-- Move over the characters of a template up to its end or to a substitution. -/
def templateRun : List Char → Nat → Nat → Cursor
  | [], offset, row => ⟨[], offset, row⟩
  | '\\' :: x :: xs, offset, row =>
    templateRun xs (offset + 1 + x.utf8Size) (Cursor.rowAfter row x)
  | '$' :: '\x7b' :: xs, offset, row => ⟨'$' :: '\x7b' :: xs, offset, row⟩
  | x :: xs, offset, row =>
    if x = backtick then ⟨x :: xs, offset, row⟩
    else templateRun xs (offset + x.utf8Size) (Cursor.rowAfter row x)

/-! ## Lookahead -/

structure Lookahead where
  /-- The comments, each with the cursor behind it. -/
  comments : List (Tree × Cursor)
  /-- A line ends in front of the token. -/
  newline : Bool
  start : Cursor
  token : Token
  stop : Cursor
  deriving Inhabited

/-- Skip blanks and comments, at most `fuel` comments; `found` holds the comments so far. -/
def skipTrivia : Nat → Cursor → List (Tree × Cursor) → List (Tree × Cursor) × Cursor
  | 0, c, found => (found.reverse, c)
  | fuel + 1, c, found =>
    let here := c.skipWhile isSpace
    match here.comment? with
    | none => (found.reverse, here)
    | some stop => skipTrivia fuel stop ((Tree.leaf .comment (here.spanTo stop), stop) :: found)

/-- The token that comes next at `c`.  The text has at most `size` bytes. -/
def Cursor.lookahead (size : Nat) (c : Cursor) : Lookahead :=
  let (comments, start) := skipTrivia (size - c.offset + 1) c []
  let (token, stop) := Token.scan start
  ⟨comments, c.row < start.row, start, token, stop⟩

end CallAtlas.Syntax
