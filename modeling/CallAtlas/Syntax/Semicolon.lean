import CallAtlas.Syntax.Cursor
import CallAtlas.Syntax.Dialect

/-!
# Statements that end without a semicolon

A statement may end where no semicolon is written: at the end of the input, before a closing brace,
or at the end of a line whose successor cannot continue it.  `Semicolon.isImplied` decides this from
the characters behind the last token alone.  A comment in between counts as blank, but it stops the
decision where the text after it has to be seen first; then the comment becomes part of the statement
and the question is asked again behind it.

Only the blanks of the basic character set are skipped here.
-/

namespace CallAtlas.Syntax.Semicolon

structure Context where
  dialect : Dialect
  /-- An operator could follow, because an expression was just read. -/
  afterExpression : Bool
  /-- A function body could follow, because a function head was just read. -/
  afterHead : Bool

inductive Mode where
  | blank
  | lineComment
  | blockComment

/-- What a gap looks like: it holds a slash that starts no comment, it stopped behind a comment
    without having seen a line end, or it is a proper gap. -/
inductive Gap where
  | slash
  | sameLine
  | open
  deriving DecidableEq

/-- Read blanks and comments.  Unless `throughout`, stop behind the first block comment that is not
    directly followed by a slash. -/
def gap (throughout : Bool) : Mode → Bool → List Char → Gap × List Char
  | .blank, _, [] => (.open, [])
  | .blank, seen, c :: cs =>
    if isAsciiBlank c then gap throughout .blank seen cs
    else if c = '/' then
      match cs with
      | '/' :: xs => gap throughout .lineComment seen xs
      | '*' :: xs => gap throughout .blockComment seen xs
      | xs => (.slash, xs)
    else (.open, c :: cs)
  | .lineComment, _, [] => (.open, [])
  | .lineComment, seen, c :: cs =>
    if c = '\n' then gap throughout .blank seen cs else gap throughout .lineComment seen cs
  | .blockComment, _, [] => (.open, [])
  | .blockComment, seen, '*' :: '/' :: xs =>
    if throughout || xs.head? == some '/' then gap throughout .blank seen xs
    else (if seen then .open else .sameLine, xs)
  | .blockComment, seen, c :: cs => gap throughout .blockComment (seen || c = '\n') cs

/-- The line starts with `in` or `instanceof`, which continue an expression. -/
def startsWithRelation (cs : List Char) : Bool :=
  match cs with
  | 'i' :: 'n' :: xs =>
    match xs with
    | [] => true
    | x :: _ =>
      if !x.isAlpha then true
      else
        match dropWord "stanceof".toList xs with
        | none => false
        | some [] => true
        | some (y :: _) => !y.isAlpha
  | _ => false
where
  dropWord : List Char → List Char → Option (List Char)
    | [], cs => some cs
    | _ :: _, [] => none
    | p :: ps, c :: cs => if p = c then dropWord ps cs else none

/-- The characters that continue a statement at the start of a line, in every dialect. -/
def continuations : List Char := ",:;*%>=<?^|&/".toList ++ [backtick]

/-- A statement ends at the end of a line when `cs`, the text from the next token on, cannot
    continue it. -/
def endsBefore (ctx : Context) : List Char → Bool
  | [] => true
  | c :: cs =>
    if continuations.contains c then false
    else if c = '(' || c = '[' then ctx.dialect.isTyped && !ctx.afterExpression
    else if c = '.' then !ctx.dialect.isTyped && (cs.head?.map Char.isDigit).getD false
    else if c = '\x7b' then !ctx.afterHead
    else if c = '+' then cs.head? == some '+'
    else if c = '-' then cs.head? == some '-'
    else if c = '!' then cs.head? != some '='
    else !startsWithRelation (c :: cs)

def afterLine (ctx : Context) (cs : List Char) : Bool :=
  match gap true .blank false cs with
  | (.slash, _) => false
  | (_, rest) => endsBefore ctx rest

/-- A brace closes the block.  In the typed dialects a colon behind the brace shows that it closes a
    pattern instead, unless an operator could stand here. -/
def atBrace (ctx : Context) (cs : List Char) : Bool :=
  !ctx.dialect.isTyped || (cs.dropWhile isAsciiBlank).head? != some ':' || ctx.afterExpression

/-- One character of the line; `more` decides about the text behind a blank. -/
def impliedStep (ctx : Context) (more : List Char → Bool) (c : Char) (cs : List Char) : Bool :=
  if c = '\x7d' then atBrace ctx cs
  else if c = '\n' then afterLine ctx cs
  else if isAsciiBlank c then more cs
  else false

/-- The text `cs` behind a token implies a semicolon, where at most `fuel` characters and comments
    are skipped in the same line. -/
def impliedWithin (ctx : Context) : Nat → List Char → Bool
  | 0, _ => false
  | _ + 1, [] => true
  | fuel + 1, c :: cs =>
    if c = '/' && !ctx.dialect.isTyped then
      match gap false .blank false (c :: cs) with
      | (.slash, _) => false
      | (g, rest) =>
        if g = .open && !ctx.afterExpression && rest.head? != some ',' && rest.head? != some '=' then
          true
        else
          match rest with
          | [] => false
          | x :: xs => impliedStep ctx (impliedWithin ctx fuel) x xs
    else impliedStep ctx (impliedWithin ctx fuel) c cs

/-- The text from `c` on implies a semicolon.  The text has at most `size` bytes. -/
def isImplied (ctx : Context) (size : Nat) (c : Cursor) : Bool :=
  impliedWithin ctx (size - c.offset + 2) c.rest

end CallAtlas.Syntax.Semicolon
