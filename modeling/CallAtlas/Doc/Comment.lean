import CallAtlas.Text.Blank

/-!
# Doc comments

A doc comment is a block comment that opens with two stars.  It holds a description and tags; a tag
starts with `@` at the beginning of a line and goes on to the next tag.  Parameters, results,
examples, exceptions, references and deprecations have a place of their own, all other tags are kept
by name.
-/

namespace CallAtlas

open Text

structure ParamDoc where
  name : String
  description : String
  deriving DecidableEq, Repr

inductive Deprecation where
  | flagged
  | reason (text : String)
  deriving DecidableEq, Repr

structure DocTag where
  name : String
  text : String
  deriving DecidableEq, Repr

structure DocComment where
  description : Option String
  params : List ParamDoc
  returns : Option String
  examples : List String
  throws : List String
  see : List String
  deprecated : Option Deprecation
  tags : List DocTag
  deriving DecidableEq, Repr

namespace DocComment

def empty : DocComment := ⟨none, [], none, [], [], [], none, []⟩

def tag (doc : DocComment) (name : String) : Option String :=
  (doc.tags.find? (·.name == name)).map (·.text)

/-! ## Lines and sections -/

def dropOpenings : List Char → List Char
  | '/' :: '*' :: '*' :: cs => dropOpenings cs
  | cs => cs

/-- Without the ends of a comment at the end; the text is given in reverse. -/
def dropClosingsReversed : List Char → List Char
  | '/' :: '*' :: cs => dropClosingsReversed cs
  | cs => cs

def inner (raw : List Char) : List Char :=
  (dropClosingsReversed (dropOpenings (trim raw)).reverse).reverse

/-- A line of a comment without its frame: the star in front, one space behind it, and the blanks
    around. -/
def bare (line : List Char) : List Char :=
  trimEnd (stripChar ' ' (stripChar '*' (trim line)))

def bareLines (raw : List Char) : List (List Char) := (lines (inner raw)).map bare

/-- One tag with its text: the rest of its first line, and the lines behind it. -/
structure Section where
  name : List Char
  body : List (List Char)
  deriving DecidableEq, Repr

/-- The tag that a line opens: its name and the rest of the line. -/
def opening? (line : List Char) : Option (List Char × List Char) :=
  match trimStart line with
  | '@' :: rest =>
    match cutAt isBlank rest with
    | some (name, text) => some (name, trim text)
    | none => some (rest, [])
  | _ => none

def sections : List (List Char) → List (List Char) × List Section
  | [] => ([], [])
  | line :: rest =>
    let (before, tags) := sections rest
    match opening? line with
    | some (name, text) => ([], ⟨name, text :: before⟩ :: tags)
    | none => (line :: before, tags)

/-! ## Tags -/

inductive BraceScan where
  /-- The last open brace is closed, and `rest` stands behind the brace that closes it. -/
  | closed (rest : List Char)
  /-- The text ends first. -/
  | unclosed
  /-- A brace is closed where none is open, so that the depth has nothing to lose. -/
  | unopened
  deriving DecidableEq, Repr

/-- Scan a text up to the brace that closes the last open one, where `depth` braces are open. -/
def scanBraces : Nat → List Char → BraceScan
  | _, [] => .unclosed
  | depth, c :: cs =>
    if c = '\x7b' then scanBraces (depth + 1) cs
    else if c = '\x7d' then
      if depth = 0 then .unopened
      else if depth - 1 = 0 then .closed cs
      else scanBraces (depth - 1) cs
    else scanBraces depth cs

/-- The scan for the end of a type in braces; none is made where the text starts with no brace. -/
def typeScan? (text : List Char) : Option BraceScan :=
  if text.head? = some '\x7b' then some (scanBraces 0 text) else none

/-- Without the type in braces that a text may start with.  Braces inside the type are balanced; a
    type that is never closed is text. -/
def stripType (text : List Char) : List Char :=
  match typeScan? (trimStart text) with
  | some (.closed rest) => trimStart rest
  | some .unclosed | some .unopened | none => trimStart text

def oneLine (body : List (List Char)) : List Char :=
  joinWith [' '] ((body.map trim).filter (!·.isEmpty))

/-- A parameter with its description; a hyphen may stand between them. -/
def paramDoc? (text : List Char) : Option ParamDoc :=
  let text := stripType text
  let (name, rest) := match cutAt isBlank text with
    | some (name, rest) => (name, trim rest)
    | none => (text, [])
  if name.isEmpty then none
  else some ⟨String.ofList name, String.ofList (trim (stripChar '-' rest))⟩

def add (doc : DocComment) (s : Section) : DocComment :=
  let name := String.ofList s.name
  let text := oneLine s.body
  match name with
  | "example" =>
    { doc with
      examples := doc.examples ++
        [String.ofList (trimMatches (· = '\n') (joinWith ['\n'] s.body))] }
  | "param" | "arg" | "argument" =>
    { doc with params := doc.params ++ (paramDoc? text).toList }
  | "returns" | "return" =>
    let text := stripType text
    if text.isEmpty then doc else { doc with returns := some (String.ofList text) }
  | "throws" | "exception" => { doc with throws := doc.throws ++ [String.ofList text] }
  | "see" => { doc with see := doc.see ++ [String.ofList text] }
  | "deprecated" =>
    { doc with
      deprecated := some (if text.isEmpty then .flagged else .reason (String.ofList text)) }
  | _ => { doc with tags := doc.tags ++ [⟨name, String.ofList text⟩] }

/-- The contents of the comment `raw`, unless it says nothing. -/
def ofRaw? (raw : String) : Option DocComment :=
  let (before, tags) := sections (bareLines raw.toList)
  let description := trim (joinWith ['\n'] before)
  let doc := tags.foldl add empty
  let doc := if description.isEmpty then doc
    else { doc with description := some (String.ofList description) }
  if doc = empty then none else some doc

def isDoc (text : List Char) : Bool :=
  startsWith "/**" text && !startsWith "/**/" text

end DocComment

end CallAtlas
