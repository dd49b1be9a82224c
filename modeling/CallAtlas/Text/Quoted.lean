/-!
# Quoted text

A text in quotes, with everything that would be hard to see written as an escape.
-/

namespace CallAtlas.Text

/-- Characters beyond ASCII that leave no mark of their own, as runs: controls, blanks, joiners and
    marks that combine with the character before them. -/
def unseenRuns : List (Nat × Nat) := [
  (0x7f, 0xa0), (0xad, 0xad), (0x300, 0x36f), (0x483, 0x489), (0x591, 0x5bd), (0x600, 0x605),
  (0x610, 0x61a), (0x61c, 0x61c), (0x64b, 0x65f), (0x670, 0x670), (0x6dd, 0x6dd), (0x1680, 0x1680),
  (0x180e, 0x180e), (0x1ab0, 0x1ace), (0x1dc0, 0x1dff), (0x2000, 0x200f), (0x2028, 0x202f),
  (0x205f, 0x206f), (0x20d0, 0x20f0), (0x3000, 0x3000), (0x302a, 0x302f), (0x3099, 0x309a),
  (0xe000, 0xf8ff), (0xfe00, 0xfe0f), (0xfe20, 0xfe2f), (0xfeff, 0xfeff), (0xfff0, 0xfffb),
  (0xfffe, 0xffff), (0xe0000, 0x10ffff)]

def isUnseen (c : Char) : Bool :=
  c.toNat < 0x20 || unseenRuns.any fun run => run.1 ≤ c.toNat && c.toNat ≤ run.2

def visible (c : Char) : List Char :=
  if c = '"' then ['\\', '"']
  else if c = '\\' then ['\\', '\\']
  else if c = '\n' then ['\\', 'n']
  else if c = '\r' then ['\\', 'r']
  else if c = '\t' then ['\\', 't']
  else if c.toNat = 0 then ['\\', '0']
  else if isUnseen c then '\\' :: 'u' :: '\x7b' :: Nat.toDigits 16 c.toNat ++ ['\x7d']
  else [c]

def quote (s : String) : String := String.ofList ('"' :: s.toList.flatMap visible ++ ['"'])

end CallAtlas.Text
