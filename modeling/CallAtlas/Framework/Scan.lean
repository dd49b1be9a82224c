import CallAtlas.Text.Blank
import CallAtlas.Text.Word

/-!
# Finding idioms in code

The idioms of frameworks are found in the text of a unit, not in its syntax tree.  A `Matcher` tries to
read an idiom at one place; `matchesIn` finds all places from left to right, none of them overlapping.
-/

namespace CallAtlas.Scan

open Text

/-- Reads an idiom at the start of a text, and gives the text behind it.  The first argument says
    whether a word character stands in front. -/
abbrev Matcher (α : Type) := Bool → List Char → Option (α × List Char)

/-- All matches in a text, where the next `skip` characters belong to the last match. -/
def matchesFrom {α : Type} (m : Matcher α) (skip : Nat) (inWord : Bool) : List Char → List α
  | [] => []
  | c :: cs =>
    match skip with
    | skip + 1 => matchesFrom m skip (isWord c) cs
    | 0 =>
      match m inWord (c :: cs) with
      | some (a, rest) => a :: matchesFrom m (cs.length - rest.length) (isWord c) cs
      | none => matchesFrom m 0 (isWord c) cs

def matchesIn {α : Type} (m : Matcher α) (text : String) : List α :=
  matchesFrom m 0 false text.toList

def isQuote (c : Char) : Bool := c.toNat = 0x22 || c.toNat = 0x27 || c.toNat = 0x60

/-- A quoted text without quotes inside. -/
def quoted? : List Char → Option (List Char × List Char)
  | [] => none
  | c :: cs =>
    if isQuote c then
      match cs.dropWhile (!isQuote ·) with
      | _ :: rest => some (cs.takeWhile (!isQuote ·), rest)
      | [] => none
    else none

/-- A quoted text of at least one character, all of which satisfy `p`. -/
def quotedAll? (p : Char → Bool) (cs : List Char) : Option (List Char × List Char) :=
  match quoted? cs with
  | some (text, rest) => if !text.isEmpty && text.all p then some (text, rest) else none
  | none => none

/-- The first of the words that the text starts with, with the text behind it. -/
def anyOf? (words : List String) (cs : List Char) : Option (String × List Char) :=
  words.findSome? fun w => (stripPrefix? w.toList cs).map (w, ·)

def isNameChar (c : Char) : Bool := isWord c || c = '.' || c = ':' || c = '/' || c = '-'

def stringLiteral? (cs : List Char) : Option (List Char) :=
  match quoted? (trim cs) with
  | some (text, []) => some text
  | _ => none

end CallAtlas.Scan
