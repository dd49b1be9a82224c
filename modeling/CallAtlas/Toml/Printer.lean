import CallAtlas.Text.Blank

/-!
# Writing settings files

A text can be written in four styles.  The first of them that needs no escapes is taken; only a text
that none of them can hold is written with escapes.
-/

namespace CallAtlas.Toml

open Text

inductive TextStyle where
  | basic
  | literal
  | multilineBasic
  | multilineLiteral
  deriving DecidableEq, Repr

def longestRun (c : Char) (cs : List Char) : Nat :=
  (cs.foldl (fun (longest, current) x =>
    if x = c then (max longest (current + 1), current + 1) else (longest, 0)) (0, 0)).1

def needsEscape (c : Char) : Bool := (c.val < 0x20 && c ≠ '\t' && c ≠ '\n') || c.val = 0x7f

def TextStyle.holds (cs : List Char) (style : TextStyle) : Bool :=
  let hasLines := cs.contains '\n'
  let hasBackslash := cs.contains '\\'
  !cs.any needsEscape &&
    match style with
    | basic => !hasBackslash && !hasLines && longestRun '"' cs = 0
    | literal => !hasLines && longestRun '\'' cs = 0
    | multilineBasic => !hasBackslash && longestRun '"' cs ≤ 2
    | multilineLiteral => longestRun '\'' cs ≤ 2

def TextStyle.all : List TextStyle := [basic, literal, multilineBasic, multilineLiteral]

def TextStyle.of (cs : List Char) : TextStyle :=
  (TextStyle.all.find? (·.holds cs)).getD (if cs.contains '\n' then multilineBasic else basic)

def TextStyle.quotes : TextStyle → List Char
  | basic => ['"']
  | literal => ['\'']
  | multilineBasic => ['"', '"', '"']
  | multilineLiteral => ['\'', '\'', '\'']

def fourDigits (n : Nat) : List Char :=
  [n / 4096 % 16, n / 256 % 16, n / 16 % 16, n % 16].map fun d =>
    (Nat.digitChar d).toUpper

def escaped (c : Char) : List Char :=
  if c = '\x08' then ['\\', 'b']
  else if c = '\t' then ['\\', 't']
  else if c = '\n' then ['\\', 'n']
  else if c = '\x0c' then ['\\', 'f']
  else if c = '\r' then ['\\', 'r']
  else if c = '"' then ['\\', '"']
  else if c = '\\' then ['\\', '\\']
  else if needsEscape c then '\\' :: 'u' :: fourDigits c.toNat
  else [c]

/-- A text over several lines with escapes; up to two quotes in a row stay as they are. -/
def escapedLines : Nat → List Char → List Char
  | _, [] => []
  | quotes, '"' :: rest =>
    if quotes < 2 then '"' :: escapedLines (quotes + 1) rest
    else '\\' :: '"' :: escapedLines (quotes + 1) rest
  | _, '\n' :: rest => '\n' :: escapedLines 0 rest
  | _, c :: rest => escaped c ++ escapedLines 0 rest

def TextStyle.body (cs : List Char) (style : TextStyle) : List Char :=
  if style.holds cs then cs
  else if style = multilineBasic then escapedLines 0 cs
  else cs.flatMap escaped

def written (s : String) : String :=
  let cs := s.toList
  let style := TextStyle.of cs
  let isMultiline := style = .multilineBasic || style = .multilineLiteral
  let start := if isMultiline && cs.contains '\n' then ['\n'] else []
  String.ofList (style.quotes ++ start ++ style.body cs ++ style.quotes)

/-- A list of texts: up to one on the line, more on lines of their own. -/
def writtenList (items : List String) : String :=
  match items with
  | [] => "[]"
  | [item] => "[" ++ written item ++ "]"
  | items => "[\n" ++ String.join (items.map fun i => "    " ++ written i ++ ",\n") ++ "]"

def line (name value : String) : String := name ++ " = " ++ value ++ "\n"

def tableText (name : String) (lines : List String) : String :=
  "[" ++ name ++ "]\n" ++ String.join lines

end CallAtlas.Toml
