/-!
# Blank characters, and cutting text at them

`isBlank` is the white space of the Unicode standard.  Around it stand the usual cuts: `trim` and its
halves, and `words`.  `lines` cuts at line feeds, `cutAt` and `splitAt` at any characters.  All of them
work on lists of characters.
-/

namespace CallAtlas.Text

def isBlank (c : Char) : Bool :=
  c = ' ' || (0x09 ≤ c.val && c.val ≤ 0x0d) || c.val = 0x85 || c.val = 0xa0 || c.val = 0x1680 ||
    (0x2000 ≤ c.val && c.val ≤ 0x200a) || c.val = 0x2028 || c.val = 0x2029 || c.val = 0x202f ||
    c.val = 0x205f || c.val = 0x3000

def trimStart (cs : List Char) : List Char := cs.dropWhile isBlank

def dropEndWhile (p : Char → Bool) (cs : List Char) : List Char := (cs.reverse.dropWhile p).reverse

def trimEnd (cs : List Char) : List Char := dropEndWhile isBlank cs

def trim (cs : List Char) : List Char := trimEnd (trimStart cs)

def trimMatches (p : Char → Bool) (cs : List Char) : List Char :=
  dropEndWhile p (cs.dropWhile p)

def stripChar (c : Char) : List Char → List Char
  | x :: xs => if x = c then xs else x :: xs
  | [] => []

def cutAt (p : Char → Bool) (cs : List Char) : Option (List Char × List Char) :=
  match cs.dropWhile (fun c => !p c) with
  | [] => none
  | _ :: after => some (cs.takeWhile (fun c => !p c), after)

/-- The pieces between the characters that satisfy `p`; `acc` holds the piece begun, reversed. -/
def splitFrom (p : Char → Bool) : List Char → List Char → List (List Char)
  | acc, [] => [acc.reverse]
  | acc, c :: cs => if p c then acc.reverse :: splitFrom p [] cs else splitFrom p (c :: acc) cs

/-- The pieces between the characters that satisfy `p`; always one more than there are of them. -/
def splitAt (p : Char → Bool) (cs : List Char) : List (List Char) := splitFrom p [] cs

def words (cs : List Char) : List (List Char) := (splitAt isBlank cs).filter (!·.isEmpty)

def dropReturn (cs : List Char) : List Char :=
  if cs.getLast? = some '\r' then cs.dropLast else cs

/-- The lines of a text.  A line ends at a line feed, and a carriage return before the line feed
    belongs to the line's end; there is no line behind the last line feed. -/
def lines (cs : List Char) : List (List Char) :=
  let pieces := splitAt (· = '\n') cs
  pieces.dropLast.map dropReturn ++
    match pieces.getLast? with
    | some [] | none => []
    | some last => [last]

def joinWith (sep : List Char) : List (List Char) → List Char
  | [] => []
  | [x] => x
  | x :: y :: rest => x ++ sep ++ joinWith sep (y :: rest)

def trimmed (s : String) : String := String.ofList (trim s.toList)

def stripPrefix? : List Char → List Char → Option (List Char)
  | [], cs => some cs
  | _ :: _, [] => none
  | p :: ps, c :: cs => if p = c then stripPrefix? ps cs else none

def startsWith (p : String) (cs : List Char) : Bool := (stripPrefix? p.toList cs).isSome

end CallAtlas.Text
