import CallAtlas.Json.Basic

/-!
# Reading JSON

`Json.parse?` reads strict JSON: one value, with blanks around it and nothing else.  Values nest at
most `maxNesting` deep.  Each reader takes the unread characters and gives what it read with the rest.
-/

namespace CallAtlas.Json

/-- What a reader gives: a value and the characters behind it, or nothing. -/
abbrev Read (α : Type) := Option (α × List Char)

def isSpace (c : Char) : Bool := c = ' ' || c = '\n' || c = '\t' || c = '\r'

def skipSpace (cs : List Char) : List Char := cs.dropWhile isSpace

/-! ## Strings -/

def hexValue? (c : Char) : Option Nat :=
  if '0' ≤ c ∧ c ≤ '9' then some (c.toNat - '0'.toNat)
  else if 'a' ≤ c ∧ c ≤ 'f' then some (c.toNat - 'a'.toNat + 10)
  else if 'A' ≤ c ∧ c ≤ 'F' then some (c.toNat - 'A'.toNat + 10)
  else none

def hexFour? (a b c d : Char) : Option Nat := do
  let a ← hexValue? a
  let b ← hexValue? b
  let c ← hexValue? c
  let d ← hexValue? d
  return ((a * 16 + b) * 16 + c) * 16 + d

def escaped? : Char → Option Char
  | '"' => some '"'
  | '\\' => some '\\'
  | '/' => some '/'
  | 'b' => some '\x08'
  | 'f' => some '\x0c'
  | 'n' => some '\n'
  | 'r' => some '\r'
  | 't' => some '\t'
  | _ => none

/-- The first half of a character written as two units of 16 bits. -/
def isHighHalf (n : Nat) : Bool := 0xd800 ≤ n && n < 0xdc00

def isLowHalf (n : Nat) : Bool := 0xdc00 ≤ n && n < 0xe000

/-- The characters of a string, read behind its opening quote up to its closing quote. -/
def stringBody : List Char → Read (List Char)
  | [] => none
  | '"' :: rest => some ([], rest)
  | '\\' :: 'u' :: a :: b :: c :: d :: rest =>
    match hexFour? a b c d with
    | none => none
    | some n =>
      if isHighHalf n then
        match rest with
        | '\\' :: 'u' :: e :: f :: g :: h :: rest =>
          match hexFour? e f g h with
          | none => none
          | some m =>
            if isLowHalf m then
              let x := Char.ofNat (0x10000 + (n - 0xd800) * 0x400 + (m - 0xdc00))
              (stringBody rest).map fun (cs, rest) => (x :: cs, rest)
            else none
        | _ => none
      else if isLowHalf n then none
      else (stringBody rest).map fun (cs, rest) => (Char.ofNat n :: cs, rest)
  | '\\' :: e :: rest =>
    match escaped? e with
    | none => none
    | some x => (stringBody rest).map fun (cs, rest) => (x :: cs, rest)
  | c :: rest =>
    if c = '\\' || c.val < 0x20 then none
    else (stringBody rest).map fun (cs, rest) => (c :: cs, rest)

/-! ## Numbers -/

def decimalValue (digits : List Char) : Nat :=
  digits.foldl (fun n c => n * 10 + (c.toNat - '0'.toNat)) 0

def digits? (cs : List Char) : Read (List Char) :=
  match cs.takeWhile Char.isDigit with
  | [] => none
  | ds => some (ds, cs.dropWhile Char.isDigit)

/-- The digits before the point: no zero in front of another digit. -/
def wholePart? (cs : List Char) : Read (List Char) :=
  match digits? cs with
  | some (ds, rest) => if ds.length > 1 && ds.head? == some '0' then none else some (ds, rest)
  | none => none

/-- The digits behind the point, none if there is no point. -/
def fraction? : List Char → Read (List Char)
  | '.' :: rest => digits? rest
  | cs => some ([], cs)

/-- The sign and the digits of the exponent, none if there is no exponent. -/
def exponent? : List Char → Read (Option (Bool × List Char))
  | c :: rest =>
    if c = 'e' || c = 'E' then
      match rest with
      | '-' :: rest => (digits? rest).map fun (ds, rest) => (some (true, ds), rest)
      | '+' :: rest => (digits? rest).map fun (ds, rest) => (some (false, ds), rest)
      | rest => (digits? rest).map fun (ds, rest) => (some (false, ds), rest)
    else some (none, c :: rest)
  | [] => some (none, [])

def exponentValue : Option (Bool × List Char) → Int
  | none => 0
  | some (true, ds) => -(decimalValue ds)
  | some (false, ds) => decimalValue ds

/-- The number with the given digits before and behind the point is too large for a floating-point
    number of 64 bits.  The first number that is has 309 places before the point. -/
def isTooLarge (whole fraction : List Char) (exponent : Option (Bool × List Char)) : Bool :=
  let significant := (whole ++ fraction).dropWhile (· == '0')
  let places : Int := significant.length - fraction.length + exponentValue exponent
  !significant.isEmpty && (places > 309 || (places == 309 &&
    1 <<< 1024 - 1 <<< 970 ≤ decimalValue ((significant ++ List.replicate 309 '0').take 309)))

def sign : List Char → Bool × List Char
  | '-' :: rest => (true, rest)
  | cs => (false, cs)

def numberOf? (negative : Bool) (whole fraction : List Char) (exponent : Option (Bool × List Char))
    (literal : List Char) : Option Json :=
  let i : Int := if negative then -(decimalValue whole) else decimalValue whole
  if fraction.isEmpty && exponent.isNone && !(negative && i == 0) && minInteger ≤ i && i < wordLimit then
    some (integer i)
  else if isTooLarge whole fraction exponent then none
  else some (real (String.ofList literal))

def number? (cs : List Char) : Option (Json × List Char) := do
  let (negative, unsigned) := sign cs
  let (whole, rest) ← wholePart? unsigned
  let (fraction, rest) ← fraction? rest
  let (exponent, rest) ← exponent? rest
  let v ← numberOf? negative whole fraction exponent (cs.take (cs.length - rest.length))
  return (v, rest)

/-! ## Values -/

/-- Items with commas between them up to the bracket `close`, at least one and at most `fuel`. -/
def itemsUpTo {α : Type} (item : List Char → Read α) (close : Char) :
    Nat → List Char → Read (List α)
  | 0, _ => none
  | fuel + 1, cs =>
    match item cs with
    | none => none
    | some (x, rest) =>
      match skipSpace rest with
      | ',' :: rest => (itemsUpTo item close fuel rest).map fun (xs, rest) => (x :: xs, rest)
      | c :: rest => if c = close then some ([x], rest) else none
      | [] => none

/-- Items with commas between them up to the bracket `close`, read behind the opening bracket. -/
def items {α : Type} (item : List Char → Read α) (close : Char) (fuel : Nat) (cs : List Char) :
    Read (List α) :=
  match skipSpace cs with
  | c :: rest => if c = close then some ([], rest) else itemsUpTo item close fuel cs
  | [] => none

def member (value : List Char → Read Json) (cs : List Char) : Read (String × Json) :=
  match skipSpace cs with
  | '"' :: rest =>
    match stringBody rest with
    | some (name, rest) =>
      match skipSpace rest with
      | ':' :: rest => (value rest).map fun (v, rest) => ((String.ofList name, v), rest)
      | _ => none
    | none => none
  | _ => none

def keyword? (expected : List Char) (v : Json) (cs : List Char) : Read Json :=
  if cs.take expected.length = expected then some (v, cs.drop expected.length) else none

/-- A value in which less than `depth` brackets are open at once; `fuel` bounds the number of items
    between two brackets. -/
def value (fuel : Nat) : Nat → List Char → Read Json
  | 0, _ => none
  | depth + 1, cs =>
    match skipSpace cs with
    | '"' :: rest => (stringBody rest).map fun (s, rest) => (string (String.ofList s), rest)
    | '[' :: rest =>
      if depth = 0 then none
      else (items (value fuel depth) ']' fuel rest).map fun (xs, rest) => (array xs, rest)
    | c :: rest =>
      if c = '\x7b' then
        if depth = 0 then none
        else (items (member (value fuel depth)) '\x7d' fuel rest).map fun (ms, rest) =>
          (object ms, rest)
      else if c = '-' || c.isDigit then number? (c :: rest)
      else if c = 'n' then keyword? "null".toList null (c :: rest)
      else if c = 't' then keyword? "true".toList (bool true) (c :: rest)
      else if c = 'f' then keyword? "false".toList (bool false) (c :: rest)
      else none
    | [] => none

def maxNesting : Nat := 128

def parse? (text : String) : Option Json :=
  let cs := text.toList
  match value cs.length maxNesting cs with
  | some (v, rest) => if (skipSpace rest).isEmpty then some v else none
  | none => none

end CallAtlas.Json
