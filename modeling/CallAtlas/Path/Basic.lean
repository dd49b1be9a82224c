import CallAtlas.Path.Bytes
import CallAtlas.Text.Blank

/-!
# Paths

A path is a text whose components are separated by slashes.  Empty components mean nothing, and
neither does a single point, unless it comes first.  Two texts with the same components denote the
same path.
-/

namespace CallAtlas.Path

open Text

inductive Component where
  /-- The slash at the start of an absolute path. -/
  | root
  /-- A point at the start of a relative path. -/
  | current
  /-- Two points. -/
  | parent
  | name (text : String)
  deriving DecidableEq, Repr

def isAbsolute (path : String) : Bool := path.toList.head? == some '/'

def pieces (path : String) : List String := (splitAt (· = '/') path.toList).map String.ofList

def Component.ofPiece (piece : List Char) : Option Component :=
  match piece with
  | [] | ['.'] => none
  | ['.', '.'] => some .parent
  | _ => some (.name (String.ofList piece))

def components (path : String) : List Component :=
  let pieces := splitAt (· = '/') path.toList
  let first := if isAbsolute path then [Component.root]
    else if pieces.head? == some ['.'] then [.current]
    else []
  first ++ pieces.filterMap Component.ofPiece

def Component.text : Component → String
  | root => "/"
  | current => "."
  | parent => ".."
  | name t => t

def ofComponents : List Component → String
  | .root :: rest => "/" ++ "/".intercalate (rest.map Component.text)
  | cs => "/".intercalate (cs.map Component.text)

/-- The path `path` as seen from `base`; an absolute path stays what it is. -/
def join (base path : String) : String :=
  if isAbsolute path then path
  else if base.isEmpty || base.toList.getLast? == some '/' then base ++ path
  else base ++ "/" ++ path

/-- The path without its last component.  The root has no parent, nor has the empty path. -/
def parent? (path : String) : Option String :=
  match components path with
  | [] | [.root] => none
  | cs => some (ofComponents cs.dropLast)

/-- The path, its parent, the parent of that, and so on. -/
def ancestors (path : String) : List String :=
  let cs := components path
  let least := if cs.head? == some .root then 1 else 0
  (List.range' least (cs.length + 1 - least)).reverse.map fun n => ofComponents (cs.take n)

/-- The path as seen from `base`, if it leads through `base`. -/
def stripPrefix? (base path : String) : Option String :=
  if (components base).isPrefixOf (components path) then
    some (ofComponents ((components path).drop (components base).length))
  else none

def fileName? (path : String) : Option String :=
  match (components path).getLast? with
  | some (.name t) => some t
  | _ => none

/-- The name in front of the last point and the part behind it.  A point at the start of a name
    separates nothing. -/
def splitName (name : String) : String × Option String :=
  let reversed := name.toList.reverse
  match cutAt (· = '.') reversed with
  | none => (name, none)
  | some (_, []) => (name, none)
  | some (extension, stem) =>
    (String.ofList stem.reverse, some (String.ofList extension.reverse))

def extension? (path : String) : Option String :=
  (fileName? path).bind fun name => (splitName name).2

def fileStem? (path : String) : Option String :=
  (fileName? path).map fun name => (splitName name).1

/-- The order of paths: component by component, a shorter path first; names by their bytes. -/
def lt (a b : String) : Bool := go (components a) (components b)
where
  rank : Component → Nat
    | .root => 0
    | .current => 1
    | .parent => 2
    | .name _ => 3
  go : List Component → List Component → Bool
    | [], [] => false
    | [], _ :: _ => true
    | _ :: _, [] => false
    | .name x :: xs, .name y :: ys => if x == y then go xs ys else decide (bytes x < bytes y)
    | x :: xs, y :: ys => if rank x == rank y then go xs ys else rank x < rank y

end CallAtlas.Path
