import CallAtlas.Text.Blank

/-!
# JSON with comments

Hand-written project files hold comments, and commas behind the last item.  `strip` turns such a text
into plain JSON.  Strings are left alone, whatever they look like inside.
-/

namespace CallAtlas.Json.Commented

open Text

inductive Place where
  | outside
  | inString
  | lineComment
  | blockComment
  deriving DecidableEq, Repr

/-- The text without comments.  The line feed at the end of a line comment stays, and a block comment
    leaves a space. -/
def withoutComments : Place → List Char → List Char
  | .outside, '"' :: cs => '"' :: withoutComments .inString cs
  | .outside, '/' :: '/' :: cs => withoutComments .lineComment cs
  | .outside, '/' :: '*' :: cs => withoutComments .blockComment cs
  | .outside, c :: cs => c :: withoutComments .outside cs
  | .outside, [] => []
  | .inString, '\\' :: c :: cs => '\\' :: c :: withoutComments .inString cs
  | .inString, '"' :: cs => '"' :: withoutComments .outside cs
  | .inString, c :: cs => c :: withoutComments .inString cs
  | .inString, [] => []
  | .lineComment, '\n' :: cs => '\n' :: withoutComments .outside cs
  | .lineComment, _ :: cs => withoutComments .lineComment cs
  | .lineComment, [] => []
  | .blockComment, '*' :: '/' :: cs => ' ' :: withoutComments .outside cs
  | .blockComment, _ :: cs => withoutComments .blockComment cs
  | .blockComment, [] => [' ']

def closesNext (cs : List Char) : Bool :=
  match cs.dropWhile isBlank with
  | c :: _ => c = '\x7d' || c = ']'
  | [] => false

/-- The text without commas in front of a closing bracket. -/
def withoutTrailingCommas (inString : Bool) : List Char → List Char
  | '\\' :: c :: cs =>
    if inString then '\\' :: c :: withoutTrailingCommas true cs
    else '\\' :: withoutTrailingCommas false (c :: cs)
  | '"' :: cs => '"' :: withoutTrailingCommas (!inString) cs
  | ',' :: cs =>
    if !inString && closesNext cs then withoutTrailingCommas false cs
    else ',' :: withoutTrailingCommas inString cs
  | c :: cs => c :: withoutTrailingCommas inString cs
  | [] => []

def strip (text : String) : String :=
  String.ofList (withoutTrailingCommas false (withoutComments .outside text.toList))

end CallAtlas.Json.Commented
