import CallAtlas.Files.Tree
import CallAtlas.Unit.Extraction

/-!
# Failures

Why a request as a whole cannot be answered.
-/

namespace CallAtlas

inductive Failure where
  | config (detail : String)
  | parse (path : String) (cause : ParseCause)
  | io (error : FileError)
  | fileSystem (detail : String)
  | ignorePattern (pattern detail : String)
  | snapshotMissing (path : String)
  | snapshotCorrupt (path detail : String)
  deriving DecidableEq, Repr

def Failure.text : Failure → String
  | config detail => "Configuration error: " ++ detail
  | parse path cause => "Failed to parse " ++ Path.shown path ++ ": " ++ cause.text
  | io error => "IO error: " ++ error.text
  | fileSystem detail => "File system error: " ++ detail
  | ignorePattern pattern detail => "Invalid ignore pattern '" ++ pattern ++ "': " ++ detail
  | snapshotMissing path => "No graph snapshot found at " ++ Path.shown path
  | snapshotCorrupt path detail => "Graph snapshot at " ++ Path.shown path ++ " is unreadable: " ++ detail

def ParsedSource.ofFile (tree : FileTree) (limit : Nat) (path : String) :
    Except Failure ParsedSource :=
  match tree.readText path with
  | .error e => .error (.parse path (.unreadable e.text))
  | .ok text =>
    match ParsedSource.ofText limit path text with
    | .error cause => .error (.parse path cause)
    | .ok source => .ok source

def Extraction.ofFile (tree : FileTree) (limit : Nat) (path : String) :
    Except Failure Extraction :=
  match ParsedSource.ofFile tree limit path with
  | .error e => .error e
  | .ok source => .ok (Extraction.ofSource source)

def unitsOfFile (tree : FileTree) (limit : Nat) (path : String) :
    Except Failure (List CodeUnit × List Issue) :=
  match ParsedSource.ofFile tree limit path with
  | .error e => .error e
  | .ok source => .ok (source.units, source.issues)

/-- The last unit of a source file with the given name. -/
def unitOfFile (tree : FileTree) (limit : Nat) (path name : String) :
    Except Failure (Option CodeUnit) :=
  match unitsOfFile tree limit path with
  | .error e => .error e
  | .ok (units, _) => .ok (unitNamed name units)

end CallAtlas
