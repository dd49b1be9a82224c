import CallAtlas.Syntax.Grammar.Literal

/-!
# Markup

Elements, their attributes and their contents.  Between tags the text is taken as it stands; names
in tags may hold hyphens, points and colons.
-/

namespace CallAtlas.Syntax.Grammar

open Grower

def isTagChar (c : Char) : Bool := isWordChar c || c = '-' || c = '.' || c = ':'

def tagName : Grower Unit := do
  if ← seesWord then takeUpTo .identifier ((← get).next.start.skipWhile isTagChar) else fail

def markupExpression (g : Grammar) (close : Grower Unit) : Grower Unit :=
  node .jsxExpression do
    token "\x7b"
    if ← sees "..." then
      node .spreadElement do
        token "..."
        g (.expression false)
    else unless ← sees "\x7d" do g (.expressions false)
    close

/-- The value of an attribute in quotes; it may run over several lines. -/
def attributeText : Grower Unit := do
  let start := (← get).next.start
  match start.rest with
  | q :: _ =>
    if q = doubleQuote || q = singleQuote then
      let stop := start.next.skipWhile (· != q)
      if stop.rest.isEmpty then fail else takeUpTo .string stop.next
    else fail
  | [] => fail

def tagAttribute (g : Grammar) : Grower Unit := do
  if ← sees "\x7b" then markupExpression g (token "\x7d")
  else
    node .jsxAttribute do
      tagName
      if ← optionally "=" then
        if ← sees "\x7b" then markupExpression g (token "\x7d")
        else if ← sees "<" then g .element
        else attributeText

/-- Take the brace that closes an expression between tags; text follows it. -/
def closeIntoText : Grower Unit := do
  unless ← sees "\x7d" do fail
  takeComments
  let brace := (← get).next
  push (.leaf (.token "\x7d") (brace.start.spanTo brace.stop))
  moveRaw brace.stop

def tagHead (g : Grammar) : Grower Unit := do
  tagName
  if (← isTyped) && (← sees "<") then
    discard (attempt do
      node .typeArguments do
        token "<"
        g .type
        while_ (sees ",") do
          token ","
          g .type
        token ">")
  while_ (return (← seesWord) || (← sees "\x7b")) (tagAttribute g)

/-- The angle bracket at the end of a tag, also where it is written together with others. -/
def closeTag : Grower Unit := do
  let start := (← get).next.start
  if start.rest.head? == some '>' then takeUpTo (.token ">") start.next else fail

def startsClosingTag : List Char → Bool
  | '<' :: cs => (cs.dropWhile isSpace).head? == some '/'
  | _ => false

def isMark (c : Char) : Bool := c = '<' || c = '>' || c = '\x7b' || c = '\x7d' || c = '&'

/-- The place behind the name of a character, as in `&amp;`, if one stands at `c`. -/
def characterName? (c : Cursor) : Option Cursor :=
  let stop := c.next.skipWhile fun x => x.isAlphanum || x = '#'
  if c.rest.head? = some '&' && c.offset + 1 < stop.offset && stop.rest.head? = some ';' then
    some stop.next
  else none

/-- The text goes on to a closing tag without any other mark. -/
def closesSoon (c : Cursor) : Bool := startsClosingTag (c.skipWhile (!isMark ·)).rest

/-- A mark in the text between tags.  It is put into an error node, unless it is a brace that may
    close a block around the element. -/
def strayMark : Grower Unit := do
  let here := (← get).here
  if (← get).trial || (here.rest.head? = some '\x7d' && !closesSoon here.next) then
    moveTo here
    fail
  node .error (takeRaw .jsxText here.next)
  moveRaw here.next

def contents (g : Grammar) : Grower Unit := do
  moveRaw (← get).here
  while_ (return !((← get).here.rest.isEmpty || startsClosingTag (← get).here.rest)) do
    let here := (← get).here
    let run := (characterName? here).getD (here.skipWhile (!isMark ·))
    if here.offset < run.offset then
      push (.leaf .jsxText (here.spanTo run))
      moveRaw run
    else if here.rest.head? = some '&' || here.rest.head? = some '>' ||
        here.rest.head? = some '\x7d' then strayMark
    else
      moveTo here
      if ← sees "\x7b" then markupExpression g closeIntoText else g .element
      moveRaw (← get).here
  moveTo (← get).here
  node .jsxClosingElement do
    token "<"
    token "/"
    unless ← sees ">" do tagName
    closeTag

def tag (g : Grammar) : Grower Unit :=
  nodeOf do
    takeUpTo (.token "<") (← get).next.start.next
    unless ← sees ">" do tagHead g
    let selfClosing ← optionally "/"
    closeTag
    return if selfClosing then .jsxSelfClosingElement else .jsxOpeningElement

/-- An element: a tag that closes itself, or an opening tag with contents and a closing tag. -/
def element (g : Grammar) : Grower Unit := do
  unless ← sees "<" do fail
  tag g
  if ((← get).made.head?.map Tree.kind) == some .jsxOpeningElement then
    wrap .jsxElement none (contents g)

end CallAtlas.Syntax.Grammar
