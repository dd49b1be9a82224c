import CallAtlas.Path.Basic

/-!
# Paths of source files

Frameworks tell the role of a file by the directories it stands in.  A path within the project is cut
into the directories on the way, and the name of the file.
-/

namespace CallAtlas.SourcePath

open Text

def extensions : List String := ["ts", "tsx", "js", "jsx", "mjs", "cjs", "mts", "cts"]

/-- The name of a source file without its ending; nothing if it has no such ending. -/
def stem? (name : String) : Option String :=
  extensions.findSome? fun e =>
    (stripPrefix? ('.' :: e.toList).reverse name.toList.reverse).map fun stem =>
      String.ofList stem.reverse

/-- The ways to cut a path at a directory in which `p` sees what it looks for.  `p` takes the pieces
    from that directory on and gives the pieces behind it. -/
def behindFirst (p : List String → Option (List String)) : List String → Option (List String)
  | [] => none
  | piece :: rest => (p (piece :: rest)).or (behindFirst p rest)

/-- The pieces name directories on the way to a file: only the last may be empty. -/
def areNamed (pieces : List String) : Bool := pieces.dropLast.all (!·.isEmpty)

/-- The pieces behind a directory with one of the given names, with a file behind it. -/
def behindOneOf (names : List String) : List String → Option (List String)
  | name :: rest =>
    if names.contains name && !rest.isEmpty && areNamed rest then some rest else none
  | [] => none

end CallAtlas.SourcePath
