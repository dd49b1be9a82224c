/-!
# Paths that are no text

A file may be named by any bytes but a slash and a zero.  A path is written as a text all the same: a
byte that is part of no character is written as a mark, which no name holds, and the character with
the number of that byte.  `Path.bytes` gives the bytes that a path stands for.  Where a path is shown,
a replacement character stands for what is no text (`Path.shown`).
-/

namespace CallAtlas.Path

/-- Stands in front of a byte that is part of no character. -/
def byteMark : Char := Char.ofNat 0

/-- All bytes of the path are parts of characters. -/
def isText (path : String) : Bool := !path.toList.contains byteMark

def bytesOfChars : List Char → List UInt8
  | [] => []
  | [c] => String.utf8EncodeChar c
  | c :: d :: cs =>
    if c = byteMark && 0x80 ≤ d.toNat && d.toNat ≤ 0xff then UInt8.ofNat d.toNat :: bytesOfChars cs
    else String.utf8EncodeChar c ++ bytesOfChars (d :: cs)

def bytes (path : String) : List UInt8 := bytesOfChars path.toList

/-! ## What is shown -/

def firstChar? (bytes : List UInt8) : Option Char :=
  (bytes.take 4).toByteArray.utf8DecodeChar? 0

/-- One or two more bytes make the bytes a character. -/
def beginsChar (bytes : List UInt8) : Bool :=
  (firstChar? (bytes ++ [0x80])).isSome || (firstChar? (bytes ++ [0x80, 0x80])).isSome

/-- How many of the bytes are replaced together, if no character comes first: the longest beginning
    of a character, or else one byte. -/
def brokenLength (bytes : List UInt8) : Nat :=
  if beginsChar (bytes.take 3) then 3 else if beginsChar (bytes.take 2) then 2 else 1

/-- Stands for bytes that are no character. -/
def replacement : Char := Char.ofNat 0xfffd

/-- The characters of the bytes behind the first `skip` ones. -/
def charsBehind : Nat → List UInt8 → List Char
  | _, [] => []
  | skip + 1, _ :: rest => charsBehind skip rest
  | 0, b :: rest =>
    match firstChar? (b :: rest) with
    | some c => c :: charsBehind (c.utf8Size - 1) rest
    | none => replacement :: charsBehind (brokenLength (b :: rest) - 1) rest

def shown (path : String) : String := String.ofList (charsBehind 0 (bytes path))

end CallAtlas.Path
