import CallAtlas.Digest.Sha256
import CallAtlas.Text.Blank

/-!
# Content digests

The digest of a unit covers its parameters and its body, each in a normal form that does not see how
the text is laid out within a line: line ends are line feeds, a run of tabs and spaces is one space,
and there are no blanks at the ends.  A zero byte separates the two, so that text cannot move from
one to the other unseen.
-/

namespace CallAtlas.Digest

open CallAtlas.Text

def unifyLineEnds : List Char → List Char
  | [] => []
  | '\r' :: '\n' :: cs => '\n' :: unifyLineEnds cs
  | c :: cs => (if c = '\r' then '\n' else c) :: unifyLineEnds cs

def expandTabs (cs : List Char) : List Char :=
  cs.flatMap fun c => if c = '\t' then [' ', ' ', ' ', ' '] else [c]

/-- Every run of spaces as one space; `after` tells whether a space was just read. -/
def collapseSpaces : Bool → List Char → List Char
  | _, [] => []
  | after, c :: cs =>
    if c = ' ' then
      if after then collapseSpaces true cs else ' ' :: collapseSpaces true cs
    else c :: collapseSpaces false cs

def normalForm (cs : List Char) : List Char :=
  trim (collapseSpaces false (expandTabs (unifyLineEnds cs)))

def normalize (text : String) : String := String.ofList (normalForm text.toList)

def contentBytes (parameters body : String) : ByteArray :=
  ((normalize parameters).toUTF8.push 0).append (normalize body).toUTF8

def contentHash (parameters body : String) : String :=
  Sha256.hex (contentBytes parameters body)

def shortLength : Nat := 8

/-- The beginning of a digest, for display.  A text whose eighth byte lies inside a character, or
    that is shorter, is shown whole. -/
def short (hash : String) : String :=
  go 0 [] hash.toList
where
  go (size : Nat) (acc : List Char) : List Char → String
    | [] => hash
    | c :: cs =>
      if size + c.utf8Size = shortLength then String.ofList (c :: acc).reverse
      else if shortLength < size + c.utf8Size then hash
      else go (size + c.utf8Size) (c :: acc) cs

end CallAtlas.Digest
