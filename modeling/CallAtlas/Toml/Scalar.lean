import CallAtlas.Json.Parser
import CallAtlas.Time.Instant

/-!
# Texts, numbers and times in settings files

Readers for the values of a settings file that hold no other values.  Each takes the unread
characters and gives the value with the rest.  A date or a time is a value too, but no setting takes
one, so that it reads as `Json.null`.
-/

namespace CallAtlas.Toml

open Instant (mark?)

def isGap (c : Char) : Bool := c = ' ' || c = '\t'

def skipGap (cs : List Char) : List Char := cs.dropWhile isGap

def lineEnd? : List Char → Option (List Char)
  | '\n' :: rest => some rest
  | '\r' :: '\n' :: rest => some rest
  | _ => none

def isControl (c : Char) : Bool := (c.val < 0x20 && c ≠ '\t') || c.val = 0x7f

/-! ## Texts -/

/-- The character with a hexadecimal number of `count` digits, and the text behind it. -/
def codePoint? (count : Nat) (cs : List Char) : Option (Char × List Char) :=
  match (cs.take count).mapM Json.hexValue? with
  | some digits =>
    let n := digits.foldl (fun n d => n * 16 + d) 0
    if digits.length = count && (n < 0xd800 || (0xdfff < n && n < 0x110000)) then
      some (Char.ofNat n, cs.drop count)
    else none
  | none => none

def escape? : List Char → Option (Char × List Char)
  | 'b' :: rest => some ('\x08', rest)
  | 't' :: rest => some ('\t', rest)
  | 'n' :: rest => some ('\n', rest)
  | 'f' :: rest => some ('\x0c', rest)
  | 'r' :: rest => some ('\r', rest)
  | '"' :: rest => some ('"', rest)
  | '\\' :: rest => some ('\\', rest)
  | 'u' :: rest => codePoint? 4 rest
  | 'U' :: rest => codePoint? 8 rest
  | _ => none

def basicBody : Nat → List Char → Option (List Char × List Char)
  | _, '"' :: rest => some ([], rest)
  | fuel + 1, '\\' :: rest => do
    let (c, rest) ← escape? rest
    let (cs, rest) ← basicBody fuel rest
    return (c :: cs, rest)
  | fuel + 1, c :: rest =>
    if isControl c then none
    else (basicBody fuel rest).map fun (cs, rest) => (c :: cs, rest)
  | _, _ => none

def literalBody (cs : List Char) : Option (List Char × List Char) :=
  match cs.dropWhile fun c => c ≠ '\'' && !isControl c with
  | '\'' :: rest => some (cs.takeWhile fun c => c ≠ '\'' && !isControl c, rest)
  | _ => none

/-- Blanks and ends of lines behind a backslash at the end of a line. -/
def skipBlankLines (cs : List Char) : List Char :=
  cs.dropWhile fun c => c = ' ' || c = '\t' || c = '\n' || c = '\r'

/-- A backslash at the end of a line: the text goes on at the next character that is not blank. -/
def continued? (cs : List Char) : Option (List Char) :=
  (lineEnd? (skipGap cs)).map skipBlankLines

/-- The end of a text over several lines: three quotes, with up to two more that belong to the
    text. -/
def closing? (quote : Char) (cs : List Char) : Option (List Char × List Char) :=
  let quotes := cs.takeWhile (· = quote)
  if 3 ≤ quotes.length then
    let own := min (quotes.length - 3) 2
    some (List.replicate own quote, cs.drop (own + 3))
  else none

def multilineBasicBody : Nat → List Char → Option (List Char × List Char)
  | 0, _ => none
  | fuel + 1, cs =>
    match closing? '"' cs with
    | some found => some found
    | none =>
      match cs with
      | '\\' :: rest =>
        match continued? rest with
        | some rest => multilineBasicBody fuel rest
        | none => do
          let (c, rest) ← escape? rest
          let (cs, rest) ← multilineBasicBody fuel rest
          return (c :: cs, rest)
      | c :: rest =>
        match lineEnd? (c :: rest) with
        | some rest => (multilineBasicBody fuel rest).map fun (cs, rest) => ('\n' :: cs, rest)
        | none =>
          if isControl c then none
          else (multilineBasicBody fuel rest).map fun (cs, rest) => (c :: cs, rest)
      | [] => none

def multilineLiteralBody : Nat → List Char → Option (List Char × List Char)
  | 0, _ => none
  | fuel + 1, cs =>
    match closing? '\'' cs with
    | some found => some found
    | none =>
      match cs with
      | c :: rest =>
        match lineEnd? (c :: rest) with
        | some rest => (multilineLiteralBody fuel rest).map fun (cs, rest) => ('\n' :: cs, rest)
        | none =>
          if isControl c then none
          else (multilineLiteralBody fuel rest).map fun (cs, rest) => (c :: cs, rest)
      | [] => none

def skipFirstLineEnd (cs : List Char) : List Char := (lineEnd? cs).getD cs

def text? (cs : List Char) : Option (List Char × List Char) :=
  match cs with
  | '"' :: '"' :: '"' :: rest => multilineBasicBody cs.length (skipFirstLineEnd rest)
  | '\'' :: '\'' :: '\'' :: rest => multilineLiteralBody cs.length (skipFirstLineEnd rest)
  | '"' :: rest => basicBody cs.length rest
  | '\'' :: rest => literalBody rest
  | _ => none

/-! ## Numbers -/

/-- The digits without the underscores between them; an underscore stands between two digits. -/
def digitsOf? (isDigit : Char → Bool) (cs : List Char) : Option (List Char) :=
  let rec go (afterDigit : Bool) : List Char → Option (List Char)
    | [] => if afterDigit then some [] else none
    | '_' :: rest => if afterDigit then go false rest else none
    | c :: rest => if isDigit c then (go true rest).map (c :: ·) else none
  go false cs

def valueOf (base : Nat) (ds : List Char) : Nat :=
  ds.foldl (fun n c => n * base + (Json.hexValue? c).getD 0) 0

def signed (cs : List Char) : Bool × List Char :=
  match cs with
  | '-' :: rest => (true, rest)
  | '+' :: rest => (false, rest)
  | cs => (false, cs)

/-- Decimal digits without a zero in front of others. -/
def decimal? (cs : List Char) : Option (List Char) :=
  (digitsOf? Char.isDigit cs).filter fun ds => ds.length = 1 || ds.head? ≠ some '0'

def integer? (cs : List Char) : Option Int :=
  let inRange (i : Int) : Option Int :=
    if Json.minInteger ≤ i ∧ i < -Json.minInteger then some i else none
  let isHex (c : Char) : Bool := (Json.hexValue? c).isSome
  match cs with
  | '0' :: 'x' :: ds => (digitsOf? isHex ds).bind fun ds => inRange (valueOf 16 ds)
  | '0' :: 'o' :: ds =>
    (digitsOf? (fun c => '0' ≤ c && c ≤ '7') ds).bind fun ds => inRange (valueOf 8 ds)
  | '0' :: 'b' :: ds =>
    (digitsOf? (fun c => c = '0' || c = '1') ds).bind fun ds => inRange (valueOf 2 ds)
  | cs =>
    let (negative, ds) := signed cs
    (decimal? ds).bind fun ds =>
      inRange (if negative then -(valueOf 10 ds : Int) else valueOf 10 ds)

/-- The text before the first character that satisfies `p`, and the text behind it, if there is such
    a character. -/
def splitOnce (p : Char → Bool) (cs : List Char) : List Char × Option (List Char) :=
  match cs.dropWhile (!p ·) with
  | [] => (cs, none)
  | _ :: rest => (cs.takeWhile (!p ·), some rest)

def isReal (cs : List Char) : Bool :=
  let (_, unsigned) := signed cs
  let (mantissa, exponent) := splitOnce (fun c => c = 'e' || c = 'E') unsigned
  let (whole, fraction) := splitOnce (· = '.') mantissa
  unsigned == "inf".toList || unsigned == "nan".toList ||
    ((exponent.isSome || fraction.isSome) && (decimal? whole).isSome &&
      (fraction.map fun ds => (digitsOf? Char.isDigit ds).isSome).getD true &&
      (exponent.map fun e => (digitsOf? Char.isDigit (signed e).2).isSome).getD true)

/-! ## Dates and times -/

def fixedDigits? (count : Nat) (cs : List Char) : Option (Nat × List Char) :=
  let ds := cs.take count
  if ds.length = count && ds.all Char.isDigit then some (valueOf 10 ds, cs.drop count) else none

def date? (cs : List Char) : Option (List Char) := do
  let (year, cs) ← fixedDigits? 4 cs
  let (month, cs) ← fixedDigits? 2 (← mark? '-' cs)
  let (day, cs) ← fixedDigits? 2 (← mark? '-' cs)
  if 1 ≤ month && month ≤ 12 && 1 ≤ day && day ≤ daysIn year month then some cs else none

def secondFraction? : List Char → Option (List Char)
  | '.' :: rest => if rest.head?.any Char.isDigit then some (rest.dropWhile Char.isDigit) else none
  | cs => some cs

def time? (cs : List Char) : Option (List Char) := do
  let (hour, cs) ← fixedDigits? 2 cs
  let (minute, cs) ← fixedDigits? 2 (← mark? ':' cs)
  let (second, cs) ← fixedDigits? 2 (← mark? ':' cs)
  if hour < 24 && minute < 60 && second ≤ 60 then secondFraction? cs else none

/-- An offset from universal time, which may be missing; gives the text behind it. -/
def zone? : List Char → Option (List Char)
  | 'Z' :: rest | 'z' :: rest => some rest
  | '+' :: rest | '-' :: rest => do
    let (hour, cs) ← fixedDigits? 2 rest
    let (minute, cs) ← fixedDigits? 2 (← mark? ':' cs)
    if hour < 24 && minute < 60 then some cs else none
  | cs => some cs

def moment? (cs : List Char) : Option (List Char) :=
  match date? cs with
  | some rest =>
    let behind (rest : List Char) : Option (List Char) := (time? rest).bind zone?
    match rest with
    | 'T' :: more | 't' :: more => behind more
    | ' ' :: more => (behind more).or (some rest)
    | rest => some rest
  | none => time? cs

def isPlain (c : Char) : Bool :=
  c.isAlphanum || c = '_' || c = '-' || c = '+' || c = '.' || c = ':'

def plain? (cs : List Char) : Option (Json × List Char) :=
  let word := cs.takeWhile isPlain
  let rest := cs.dropWhile isPlain
  if word = "true".toList then some (.bool true, rest)
  else if word = "false".toList then some (.bool false, rest)
  else
    match integer? word with
    | some i => some (.integer i, rest)
    | none =>
      if isReal word then some (.real (String.ofList word), rest)
      else (moment? cs).map fun rest => (.null, rest)

end CallAtlas.Toml
