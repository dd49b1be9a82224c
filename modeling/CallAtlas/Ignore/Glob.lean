/-!
# Globs

A glob is a pattern for paths.  `?` fits any byte but the slash and `*` any number of them, `[a-z]` fits
one of a set, `{a,b}` one of several patterns, and `**` between slashes any number of directories.  A
backslash takes the meaning from the character behind it.

`Glob.parse` reads a pattern; `Glob.fits` compares it with a path as a whole, byte by byte.
-/

namespace CallAtlas

inductive GlobToken where
  | literal (c : Char)
  /-- Any byte but the slash. -/
  | any
  /-- Any number of bytes but the slash. -/
  | zeroOrMore
  /-- `**/` at the start. -/
  | recursiveStart
  /-- `/**` at the end. -/
  | recursiveEnd
  /-- `/**/` in between. -/
  | recursiveMiddle
  /-- One of the characters between the bounds, or none of them. -/
  | oneOf (negated : Bool) (ranges : List (Char × Char))
  /-- One of several patterns. -/
  | alternates (branches : List (List GlobToken))
  deriving Repr

inductive GlobError where
  | unclosedClass
  | invalidRange (first last : Char)
  | unopenedAlternates
  | unclosedAlternates
  | danglingEscape
  deriving DecidableEq, Repr

def GlobError.text : GlobError → String
  | unclosedClass => "unclosed character class; missing ']'"
  | invalidRange first last =>
    "invalid range; '" ++ first.toString ++ "' > '" ++ last.toString ++ "'"
  | unopenedAlternates =>
    "unopened alternate group; missing '\x7b' (maybe escape '\x7d' with '[\x7d]'?)"
  | unclosedAlternates =>
    "unclosed alternate group; missing '\x7d' (maybe escape '\x7b' with '[\x7b]'?)"
  | danglingEscape => "dangling '\\'"

abbrev Glob := List GlobToken

namespace Glob

/-! ## Reading -/

/-- The set of characters between square brackets, read behind the opening bracket.  The bracket that
    closes the set is a member if it comes first, and so is a hyphen that stands first or last. -/
def classItems (first inRange : Bool) (ranges : List (Char × Char)) :
    List Char → Except GlobError (List (Char × Char) × List Char)
  | [] => .error .unclosedClass
  | c :: cs =>
    if c = ']' && !first then
      .ok ((if inRange then ('-', '-') :: ranges else ranges).reverse, cs)
    else if c = '-' && !first && !inRange then classItems false true ranges cs
    else
      match inRange, ranges with
      | true, (low, _) :: rest =>
        if c < low then .error (.invalidRange low c)
        else classItems false false ((low, c) :: rest) cs
      | _, _ => classItems false false ((c, c) :: ranges) cs

def classToken (cs : List Char) : Except GlobError (GlobToken × List Char) :=
  match cs with
  | '!' :: rest | '^' :: rest =>
    (classItems true false [] rest).map fun (ranges, rest) => (.oneOf true ranges, rest)
  | cs => (classItems true false [] cs).map fun (ranges, rest) => (.oneOf false ranges, rest)

/-- A group in braces of which the end is not yet read: its finished branches, the last first, and
    the tokens in front of it, the last first. -/
structure OpenGroup where
  branches : List Glob
  before : Glob

structure Reader where
  /-- The tokens of the branch that is being read, the last first. -/
  tokens : Glob
  groups : List OpenGroup
  /-- An opening bracket without a closing one was seen, and is taken as it is from then on. -/
  plainBrackets : Bool

def Reader.push (r : Reader) (t : GlobToken) : Reader := { r with tokens := t :: r.tokens }

/-- What stars at a place mean, and the text behind them.  `previous` is the character in front. -/
def Reader.stars (r : Reader) (previous : Option Char) (cs : List Char) : Reader × List Char :=
  match cs with
  | '*' :: rest =>
    let twice := (r.push .zeroOrMore).push .zeroOrMore
    match r.tokens with
    | [] =>
      match rest with
      | [] => (r.push .recursiveStart, [])
      | '/' :: rest => (r.push .recursiveStart, rest)
      | rest => (twice, rest)
    | last :: before =>
      let atStart := previous == some '/' ||
        (!r.groups.isEmpty && (previous == some ',' || previous == some '\x7b'))
      let replace (t : GlobToken) : Reader :=
        match last with
        | .recursiveStart | .recursiveEnd => r
        | _ => { r with tokens := t :: before }
      if !atStart then (twice, rest)
      else
        match rest with
        | [] => (replace .recursiveEnd, [])
        | '/' :: rest => (replace .recursiveMiddle, rest)
        | c :: _ =>
          if !r.groups.isEmpty && (c = ',' || c = '\x7d') then (replace .recursiveEnd, rest)
          else (twice, rest)
  | cs => (r.push .zeroOrMore, cs)

def readFrom (plainAllowed : Bool) : Nat → Reader → Option Char → List Char → Except GlobError Glob
  | _, r, _, [] => if r.groups.isEmpty then .ok r.tokens.reverse else .error .unclosedAlternates
  | 0, _, _, _ :: _ => .ok []
  | fuel + 1, r, previous, c :: cs =>
    let next := readFrom plainAllowed fuel
    let literal (c : Char) := next (r.push (.literal c)) (some c) cs
    if c = '?' then next (r.push .any) (some c) cs
    else if c = '*' then
      let (r, rest) := r.stars previous cs
      next r ((c :: cs.take (cs.length - rest.length)).getLast?) rest
    else if c = '[' && !r.plainBrackets then
      match classToken cs with
      | .ok (t, rest) => next (r.push t) (some ']') rest
      | .error .unclosedClass =>
        if plainAllowed then
          next { r.push (.literal '[') with plainBrackets := true } (some c) cs
        else .error .unclosedClass
      | .error e => .error e
    else if c = '\x7b' then
      next { r with tokens := [], groups := ⟨[], r.tokens⟩ :: r.groups } (some c) cs
    else if c = '\x7d' then
      match r.groups with
      | [] => .error .unopenedAlternates
      | g :: groups =>
        let branches := (r.tokens.reverse :: g.branches).reverse
        next { r with tokens := .alternates branches :: g.before, groups } (some c) cs
    else if c = ',' then
      match r.groups with
      | [] => literal c
      | g :: groups =>
        next { r with
          tokens := []
          groups := { g with branches := r.tokens.reverse :: g.branches } :: groups } (some c) cs
    else if c = '\\' then
      match cs with
      | [] => .error .danglingEscape
      | e :: rest => next (r.push (.literal e)) (some e) rest
    else literal c

/-- Read a pattern.  With `plainAllowed`, an opening bracket without a closing one stands for
    itself. -/
def parse (plainAllowed : Bool) (pattern : String) : Except GlobError Glob :=
  readFrom plainAllowed pattern.length ⟨[], [], false⟩ none pattern.toList

/-! ## Matching -/

def slash : UInt8 := 0x2f

def bytesOf (c : Char) : List UInt8 := c.toString.toUTF8.toList

def byteRuns (first last : Char) : List (UInt8 × UInt8) :=
  let single (bs : List UInt8) := bs.map fun b => (b, b)
  if first = last then single (bytesOf first)
  else
    let low := bytesOf first
    let high := bytesOf last
    single low.dropLast ++ [(low.getLast?.getD 0, high.head?.getD 0)] ++ single high.tail

/-- All texts that are left when any number of bytes is taken off. -/
def tails : List UInt8 → List (List UInt8)
  | [] => [[]]
  | b :: bs => (b :: bs) :: tails bs

/-- All texts that are left when any number of bytes but the slash is taken off. -/
def tailsInPiece : List UInt8 → List (List UInt8)
  | [] => [[]]
  | b :: bs => (b :: bs) :: (if b = slash then [] else tailsInPiece bs)

def behindSlashes : List UInt8 → List (List UInt8)
  | [] => []
  | b :: bs => if b = slash then bs :: behindSlashes bs else behindSlashes bs

mutual

/-- All texts that can be left behind a token. -/
def behind : GlobToken → List UInt8 → List (List UInt8)
  | .literal c, text =>
    if (bytesOf c).isPrefixOf text then [text.drop (bytesOf c).length] else []
  | .any, text =>
    match text with
    | b :: bs => if b = slash then [] else [bs]
    | [] => []
  | .zeroOrMore, text => tailsInPiece text
  | .recursiveStart, text => text :: behindSlashes text
  | .recursiveEnd, text =>
    match text with
    | b :: bs => if b = slash then tails bs else []
    | [] => []
  | .recursiveMiddle, text =>
    match text with
    | b :: bs => if b = slash then bs :: behindSlashes bs else []
    | [] => []
  | .oneOf negated ranges, text =>
    match text with
    | b :: bs =>
      let isIn := (ranges.flatMap fun r => byteRuns r.1 r.2).any fun run => run.1 ≤ b && b ≤ run.2
      if isIn != negated then [bs] else []
    | [] => []
  | .alternates branches, text =>
    if branches.all List.isEmpty then [text] else behindAny branches text

def behindAll : List GlobToken → List UInt8 → List (List UInt8)
  | [], text => [text]
  | t :: ts, text => (behind t text).flatMap fun rest => behindAll ts rest

/-- All texts that can be left behind one of several patterns.  Empty patterns do not count, unless
    there are no others. -/
def behindAny : List (List GlobToken) → List UInt8 → List (List UInt8)
  | [], _ => []
  | [] :: branches, text => behindAny branches text
  | (t :: ts) :: branches, text =>
    ((behind t text).flatMap fun rest => behindAll ts rest) ++ behindAny branches text

end

def fits (glob : Glob) (path : List UInt8) : Bool :=
  match glob with
  | [.recursiveStart] => true
  | glob => (behindAll glob path).any (·.isEmpty)

end Glob

end CallAtlas
