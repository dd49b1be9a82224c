import CallAtlas.Syntax.Tree

/-!
# Reading positions

A `Cursor` is a place in a text: the characters that are still to be read, and where they start, as
a byte offset and a row.  Every scanner of this library moves a cursor forward by structural
recursion on the unread characters.

The character classes of the language are here as well.  A word (an identifier or a keyword) is made
of all characters that are neither blank nor used by some other token, so that any letter of any
script may occur in it.
-/

namespace CallAtlas.Syntax

/-! ## Character classes -/

def isLineEnd (c : Char) : Bool :=
  c = '\n' || c = '\r' || c.val = 0x2028 || c.val = 0x2029

def isAsciiBlank (c : Char) : Bool :=
  c = ' ' || (0x09 ≤ c.val && c.val ≤ 0x0d)

/-- A character that separates tokens: blanks of any width, line ends, and the marks that have no
    width at all. -/
def isSpace (c : Char) : Bool :=
  isAsciiBlank c || c.val = 0xa0 || c.val = 0x1680 || (0x2000 ≤ c.val && c.val ≤ 0x200b) ||
    c.val = 0x2028 || c.val = 0x2029 || c.val = 0x202f || c.val = 0x205f || c.val = 0x2060 ||
    c.val = 0x3000 || c.val = 0xfeff

def backtick : Char := Char.ofNat 0x60

def doubleQuote : Char := Char.ofNat 0x22

def singleQuote : Char := Char.ofNat 0x27

def punctuation : List Char :=
  ":;@#.,|^&<=>+-*/\\%?!~()[]\x7b\x7d".toList ++ [backtick, doubleQuote, singleQuote]

def isWordChar (c : Char) : Bool :=
  !(c.val ≤ 0x1f || isSpace c || punctuation.contains c)

def isWordStart (c : Char) : Bool :=
  isWordChar c && !c.isDigit

/-! ## Cursors -/

structure Cursor where
  rest : List Char
  offset : Nat
  row : Nat
  deriving Repr, Inhabited

namespace Cursor

def ofString (text : String) : Cursor := ⟨text.toList, 0, 0⟩

def rowAfter (row : Nat) (c : Char) : Nat :=
  if c = '\n' then row + 1 else row

def next (c : Cursor) : Cursor :=
  match c.rest with
  | [] => c
  | x :: xs => ⟨xs, c.offset + x.utf8Size, rowAfter c.row x⟩

def drop : Nat → Cursor → Cursor
  | 0, c => c
  | n + 1, c => drop n c.next

def skipFrom (p : Char → Bool) : List Char → Nat → Nat → Cursor
  | [], offset, row => ⟨[], offset, row⟩
  | x :: xs, offset, row =>
    if p x then skipFrom p xs (offset + x.utf8Size) (rowAfter row x) else ⟨x :: xs, offset, row⟩

def skipWhile (p : Char → Bool) (c : Cursor) : Cursor :=
  skipFrom p c.rest c.offset c.row

def spanTo (start stop : Cursor) : Span :=
  ⟨start.offset, stop.offset, start.row, stop.row⟩

def charsUpTo (stop : Nat) : List Char → Nat → List Char → List Char
  | [], _, acc => acc.reverse
  | x :: xs, offset, acc =>
    if offset < stop then charsUpTo stop xs (offset + x.utf8Size) (x :: acc) else acc.reverse

def textTo (start stop : Cursor) : String :=
  String.ofList (charsUpTo stop.offset start.rest start.offset [])

/-! ## Comments -/

/-- Move behind the `*` and `/` that end a block comment, if they come. -/
def blockEnd? : List Char → Nat → Nat → Option Cursor
  | [], _, _ => none
  | '*' :: '/' :: xs, offset, row => some ⟨xs, offset + 2, row⟩
  | x :: xs, offset, row => blockEnd? xs (offset + x.utf8Size) (rowAfter row x)

/-- Move over a comment.  A block comment that is never closed is none. -/
def comment? (c : Cursor) : Option Cursor :=
  match c.rest with
  | '/' :: '/' :: xs => some (skipFrom (fun x => !isLineEnd x) xs (c.offset + 2) c.row)
  | '/' :: '*' :: xs => blockEnd? xs (c.offset + 2) c.row
  | _ => none

end Cursor

end CallAtlas.Syntax
