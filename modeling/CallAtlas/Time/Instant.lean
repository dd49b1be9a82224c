import CallAtlas.Text.Blank

/-!
# Instants

An instant is a date and a time of day without a time zone, exact to the nanosecond.  It is written as
`2024-01-02T03:04:05Z`, with as many digits behind the second as it needs, in groups of three.  When
it is read, blanks between the parts are allowed, a blank may stand in place of the `T`, and an offset
is taken off.

The second that is sometimes added to a minute is kept as nanoseconds beyond the first billion.
-/

namespace CallAtlas

open Text

/-! ## Dates -/

def isLeapYear (year : Int) : Bool := (year % 4 == 0 && year % 100 != 0) || year % 400 == 0

def daysIn (year : Int) (month : Nat) : Nat :=
  if month = 2 then (if isLeapYear year then 29 else 28)
  else if month = 4 || month = 6 || month = 9 || month = 11 then 30
  else 31

def isDate (year : Int) (month day : Nat) : Bool :=
  -262143 ≤ year && year ≤ 262142 && 1 ≤ month && month ≤ 12 && 1 ≤ day && day ≤ daysIn year month

structure Date where
  year : Int
  month : Nat
  day : Nat
  valid : isDate year month day = true
  deriving DecidableEq, Repr

namespace Date

def of? (year : Int) (month day : Nat) : Option Date :=
  if h : isDate year month day = true then some ⟨year, month, day, h⟩ else none

def next? (d : Date) : Option Date :=
  (of? d.year d.month (d.day + 1)).or
    (if d.month < 12 then of? d.year (d.month + 1) 1 else of? (d.year + 1) 1 1)

def previous? (d : Date) : Option Date :=
  if 1 < d.day then of? d.year d.month (d.day - 1)
  else if 1 < d.month then of? d.year (d.month - 1) (daysIn d.year (d.month - 1))
  else of? (d.year - 1) 12 31

end Date

/-! ## Instants -/

def secondsPerDay : Nat := 86400

def nanosPerSecond : Nat := 1000000000

/-- There is such a time of day.  Only the last second of a minute can be longer. -/
def isTime (second nano : Nat) : Bool :=
  second < secondsPerDay && nano < 2 * nanosPerSecond &&
    (nano < nanosPerSecond || second % 60 == 59)

structure Instant where
  date : Date
  /-- The second of the day. -/
  second : Nat
  /-- The nanosecond of the second. -/
  nano : Nat
  valid : isTime second nano = true
  deriving DecidableEq, Repr

namespace Instant

def of? (date : Date) (second nano : Nat) : Option Instant :=
  if h : isTime second nano = true then some ⟨date, second, nano, h⟩ else none

/-- The instant that clocks show which are `offset` seconds ahead. -/
def ofLocal? (date : Date) (second nano : Nat) (offset : Int) : Option Instant :=
  let shifted : Int := second - offset
  if shifted < 0 then date.previous?.bind (of? · (shifted + secondsPerDay).toNat nano)
  else if secondsPerDay ≤ shifted then date.next?.bind (of? · (shifted - secondsPerDay).toNat nano)
  else of? date shifted.toNat nano

/-! ### Writing -/

/-- The decimal digits of `n`, with zeros in front up to the given width. -/
def padded (width n : Nat) : List Char :=
  let digits := Nat.toDigits 10 n
  List.replicate (width - digits.length) '0' ++ digits

/-- A year; outside of four digits its sign is written. -/
def yearChars (year : Int) : List Char :=
  if 0 ≤ year && year ≤ 9999 then padded 4 year.toNat
  else (if year < 0 then '-' else '+') :: padded 4 year.natAbs

def fractionChars (nano : Nat) : List Char :=
  if nano = 0 then []
  else if nano % 1000000 = 0 then '.' :: padded 3 (nano / 1000000)
  else if nano % 1000 = 0 then '.' :: padded 6 (nano / 1000)
  else '.' :: padded 9 nano

def chars (i : Instant) : List Char :=
  let extra := i.nano / nanosPerSecond
  yearChars i.date.year ++ '-' :: padded 2 i.date.month ++ '-' :: padded 2 i.date.day ++
    'T' :: padded 2 (i.second / 3600) ++ ':' :: padded 2 (i.second / 60 % 60) ++
    ':' :: padded 2 (i.second % 60 + extra) ++ fractionChars (i.nano % nanosPerSecond) ++ ['Z']

def text (i : Instant) : String := String.ofList i.chars

/-! ### Reading -/

def digitsValue (ds : List Char) : Nat := ds.foldl (fun n c => n * 10 + (c.toNat - '0'.toNat)) 0

/-- One to `width` digits, with blanks in front. -/
def number? (width : Nat) (cs : List Char) : Option (Nat × List Char) :=
  let cs := trimStart cs
  let ds := (cs.take width).takeWhile Char.isDigit
  if ds.isEmpty then none else some (digitsValue ds, cs.drop ds.length)

/-- A year: up to four digits, or a sign and any number of digits. -/
def year? (cs : List Char) : Option (Int × List Char) :=
  match trimStart cs with
  | '-' :: rest => (digits? rest).map fun (n, rest) => (-n, rest)
  | '+' :: rest => (digits? rest).map fun (n, rest) => ((n : Int), rest)
  | cs => (number? 4 cs).map fun (n, rest) => ((n : Int), rest)
where
  digits? (cs : List Char) : Option (Nat × List Char) :=
    let ds := cs.takeWhile Char.isDigit
    if ds.isEmpty then none else some (digitsValue ds, cs.drop ds.length)

def mark? (c : Char) : List Char → Option (List Char)
  | x :: rest => if x = c then some rest else none
  | [] => none

/-- The digits behind the second, in nanoseconds; all beyond nine are dropped. -/
def fraction? : List Char → Option (Nat × List Char)
  | '.' :: rest =>
    let ds := rest.takeWhile Char.isDigit
    if ds.isEmpty then none
    else some (digitsValue ((ds ++ List.replicate 9 '0').take 9), rest.drop ds.length)
  | cs => some (0, cs)

def hoursMinutes? : List Char → Option (Nat × List Char)
  | a :: b :: rest =>
    if a.isDigit && b.isDigit then
      match rest.dropWhile fun c => c = ':' || isBlank c with
      | c :: d :: rest =>
        if c.isDigit && c < '6' && d.isDigit then
          some (digitsValue [a, b] * 3600 + digitsValue [c, d] * 60, rest)
        else none
      | _ => none
    else none
  | _ => none

/-- How many seconds clocks are ahead: `Z`, `UTC`, or a sign with hours and minutes. -/
def offset? (cs : List Char) : Option (Int × List Char) :=
  if (cs.take 3).map Char.toLower = ['u', 't', 'c'] then some (0, cs.drop 3)
  else
    match cs with
    | 'Z' :: rest | 'z' :: rest => some (0, rest)
    | '+' :: rest => (hoursMinutes? rest).map fun (n, rest) => ((n : Int), rest)
    | '-' :: rest | '−' :: rest => (hoursMinutes? rest).map fun (n, rest) => (-(n : Int), rest)
    | _ => none

/-- Between date and time stands a `T` or a blank. -/
def dateEnd? : List Char → Option (List Char)
  | 'T' :: rest | 't' :: rest | ' ' :: rest => some rest
  | _ => none

def date? (cs : List Char) : Option (Date × List Char) := do
  let (year, cs) ← year? cs
  let (month, cs) ← number? 2 (← mark? '-' (trimStart cs))
  let (day, cs) ← number? 2 (← mark? '-' (trimStart cs))
  return (← Date.of? year month day, cs)

/-- A time of day, as the second of the day and the nanosecond. -/
def time? (cs : List Char) : Option ((Nat × Nat) × List Char) := do
  let (hour, cs) ← number? 2 cs
  let (minute, cs) ← number? 2 (← mark? ':' (trimStart cs))
  let (second, cs) ← number? 2 (← mark? ':' (trimStart cs))
  let (nano, cs) ← fraction? cs
  if hour < 24 && minute < 60 && second ≤ 60 then
    let added := second / 60
    return ((hour * 3600 + minute * 60 + (second - added), nano + added * nanosPerSecond), cs)
  else none

def parse? (text : String) : Option Instant := do
  let (date, cs) ← date? text.toList
  let ((second, nano), cs) ← time? (← dateEnd? cs)
  let (offset, rest) ← offset? (trimStart cs)
  if (trimStart rest).isEmpty && offset.natAbs < secondsPerDay then
    ofLocal? date second nano offset
  else none

end Instant

end CallAtlas
