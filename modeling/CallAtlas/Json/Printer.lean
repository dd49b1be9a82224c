import CallAtlas.Json.Basic

/-!
# Writing JSON

`Json.compact` writes a value on one line, `Json.pretty` with one item to a line and two spaces of
indentation for each level.
-/

namespace CallAtlas.Json

def hexDigit (n : Nat) : Char :=
  Char.ofNat (if n < 10 then '0'.toNat + n else 'a'.toNat + (n - 10))

def escape (c : Char) : List Char :=
  if c = '"' then ['\\', '"']
  else if c = '\\' then ['\\', '\\']
  else if c = '\x08' then ['\\', 'b']
  else if c = '\x0c' then ['\\', 'f']
  else if c = '\n' then ['\\', 'n']
  else if c = '\r' then ['\\', 'r']
  else if c = '\t' then ['\\', 't']
  else if c.val < 0x20 then
    ['\\', 'u', '0', '0', hexDigit (c.toNat / 16), hexDigit (c.toNat % 16)]
  else [c]

def quoted (s : String) : List Char := '"' :: s.toList.flatMap escape ++ ['"']

def decimal (i : Int) : List Char :=
  match i with
  | .ofNat n => Nat.toDigits 10 n
  | .negSucc n => '-' :: Nat.toDigits 10 (n + 1)

def commaSeparated : List (List Char) → List Char
  | [] => []
  | [x] => x
  | x :: xs => x ++ ',' :: commaSeparated xs

def newLine (level : Nat) : List Char := '\n' :: List.replicate (2 * level) ' '

mutual

def compactChars : Json → List Char
  | null => "null".toList
  | bool b => (if b then "true" else "false").toList
  | integer i => decimal i
  | real literal => literal.toList
  | string s => quoted s
  | array items => '[' :: commaSeparated (compactItems items) ++ [']']
  | object members => '\x7b' :: commaSeparated (compactMembers members) ++ ['\x7d']

def compactItems : List Json → List (List Char)
  | [] => []
  | x :: xs => compactChars x :: compactItems xs

def compactMembers : List (String × Json) → List (List Char)
  | [] => []
  | (name, x) :: ms => (quoted name ++ ':' :: compactChars x) :: compactMembers ms

end

mutual

def prettyChars (level : Nat) : Json → List Char
  | null => "null".toList
  | bool b => (if b then "true" else "false").toList
  | integer i => decimal i
  | real literal => literal.toList
  | string s => quoted s
  | array [] => ['[', ']']
  | array items =>
    '[' :: commaSeparated (prettyItems (level + 1) items) ++ newLine level ++ [']']
  | object [] => ['\x7b', '\x7d']
  | object members =>
    '\x7b' :: commaSeparated (prettyMembers (level + 1) members) ++ newLine level ++ ['\x7d']

def prettyItems (level : Nat) : List Json → List (List Char)
  | [] => []
  | x :: xs => (newLine level ++ prettyChars level x) :: prettyItems level xs

def prettyMembers (level : Nat) : List (String × Json) → List (List Char)
  | [] => []
  | (name, x) :: ms =>
    (newLine level ++ quoted name ++ ':' :: ' ' :: prettyChars level x) :: prettyMembers level ms

end

def compact (v : Json) : String := String.ofList (compactChars v)

def pretty (v : Json) : String := String.ofList (prettyChars 0 v)

end CallAtlas.Json
