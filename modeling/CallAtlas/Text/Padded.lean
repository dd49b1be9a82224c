/-!
# Columns

Texts filled up with blanks to a number of characters.  A text that is longer stays whole.
-/

namespace CallAtlas.Text

def padStart (width : Nat) (s : String) : String :=
  String.ofList (List.replicate (width - s.length) ' ') ++ s

def padEnd (width : Nat) (s : String) : String :=
  s ++ String.ofList (List.replicate (width - s.length) ' ')

end CallAtlas.Text
