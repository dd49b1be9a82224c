import CallAtlas.Path.Basic

/-!
# A tree of files

A `FileTree` is a value: the files and directories that exist, each at its `Location`, the names on
the way down from the top.  Paths are followed piece by piece, so that a path through something that
is no directory fails, even if it comes back with two points.
-/

namespace CallAtlas

open Text

inductive FileError where
  | notFound
  | alreadyExists
  | notDirectory
  | isDirectory
  | permissionDenied
  | notText
  deriving DecidableEq, Repr

def FileError.text : FileError → String
  | notFound => "No such file or directory (os error 2)"
  | alreadyExists => "File exists (os error 17)"
  | notDirectory => "Not a directory (os error 20)"
  | isDirectory => "Is a directory (os error 21)"
  | permissionDenied => "Permission denied (os error 13)"
  | notText => "stream did not contain valid UTF-8"

-- Stated here, so that contents are compared in one way whatever else is imported.
instance instDecidableEqContents : DecidableEq ByteArray := ByteArray.decEq

inductive Entry where
  | file (bytes : ByteArray)
  /-- A file that refuses to be read and to be written. -/
  | locked
  | directory
  deriving DecidableEq

abbrev Location := List String

/-- The files and directories that exist.  The top is always a directory. -/
structure FileTree where
  entries : List (Location × Entry)

namespace FileTree

def empty : FileTree := ⟨[]⟩

def entryAt (tree : FileTree) (l : Location) : Option Entry :=
  if l.isEmpty then some .directory else (tree.entries.find? (·.1 == l)).map (·.2)

def follow (tree : FileTree) (l : Location) (piece : String) : Except FileError Location :=
  match tree.entryAt l with
  | none => .error .notFound
  | some (.file _) | some .locked => .error .notDirectory
  | some .directory =>
    if piece = "" || piece = "." then .ok l
    else if piece = ".." then .ok l.dropLast
    else if (tree.entryAt (l ++ [piece])).isSome then .ok (l ++ [piece])
    else .error .notFound

def locate (tree : FileTree) (path : String) : Except FileError Location :=
  if path.isEmpty then .error .notFound else (Path.pieces path).foldlM tree.follow []

def entry? (tree : FileTree) (path : String) : Except FileError Entry :=
  match tree.locate path with
  | .error e => .error e
  | .ok l =>
    match tree.entryAt l with
    | some e => .ok e
    | none => .error .notFound

def isFile (tree : FileTree) (path : String) : Bool :=
  match tree.entry? path with
  | .ok (.file _) | .ok .locked => true
  | _ => false

def isDirectory (tree : FileTree) (path : String) : Bool :=
  match tree.entry? path with
  | .ok .directory => true
  | _ => false

def contains (tree : FileTree) (path : String) : Bool := (tree.entry? path).isOk

def read (tree : FileTree) (path : String) : Except FileError ByteArray :=
  match tree.entry? path with
  | .ok (.file bytes) => .ok bytes
  | .ok .locked => .error .permissionDenied
  | .ok .directory => .error .isDirectory
  | .error e => .error e

def readText (tree : FileTree) (path : String) : Except FileError String :=
  match tree.read path with
  | .error e => .error e
  | .ok bytes =>
    match String.fromUTF8? bytes with
    | some text => .ok text
    | none => .error .notText

/-! ## Changes -/

def insert (tree : FileTree) (l : Location) (e : Entry) : FileTree :=
  ⟨tree.entries.filter (·.1 != l) ++ [(l, e)]⟩

/-- One piece further along a path, with a new directory if there is nothing. -/
def followCreating (isLast : Bool) (state : FileTree × Location) (piece : String) :
    Except FileError (FileTree × Location) :=
  let (tree, l) := state
  if piece = "" || piece = "." then .ok (tree, l)
  else if piece = ".." then .ok (tree, l.dropLast)
  else
    let next := l ++ [piece]
    match tree.entryAt next with
    | some .directory => .ok (tree, next)
    | some (.file _) | some .locked => .error (if isLast then .alreadyExists else .notDirectory)
    | none => .ok (tree.insert next .directory, next)

def followAllCreating : FileTree × Location → List String → Except FileError FileTree
  | (tree, _), [] => .ok tree
  | state, piece :: rest =>
    match followCreating (rest.all fun p => p = "" || p = ".") state piece with
    | .ok state => followAllCreating state rest
    | .error e => .error e

def createDirectories (tree : FileTree) (path : String) : Except FileError FileTree :=
  followAllCreating (tree, []) (Path.pieces path)

def write (tree : FileTree) (path : String) (bytes : ByteArray) : Except FileError FileTree :=
  let names := Path.pieces path
  match names.dropLast.foldlM tree.follow [] with
  | .error e => .error e
  | .ok l =>
    match tree.entryAt l, names.getLast? with
    | none, _ => .error .notFound
    | some (.file _), _ | some .locked, _ => .error .notDirectory
    | _, none => .error .notFound
    | some .directory, some name =>
      if name = "" || name = "." || name = ".." then .error .isDirectory
      else
        match tree.entryAt (l ++ [name]) with
        | some .directory => .error .isDirectory
        | some .locked => .error .permissionDenied
        | _ => .ok (tree.insert (l ++ [name]) (.file bytes))

def remove (tree : FileTree) (path : String) : Except FileError FileTree :=
  match tree.locate path with
  | .error e => .error e
  | .ok l => .ok ⟨tree.entries.filter fun e => !l.isPrefixOf e.1⟩

def namesIn (tree : FileTree) (l : Location) : List String :=
  tree.entries.filterMap fun e =>
    if e.1.dropLast == l && !e.1.isEmpty then e.1.getLast? else none

end FileTree

end CallAtlas
