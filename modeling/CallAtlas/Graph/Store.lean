import CallAtlas.Failure
import CallAtlas.Graph.Json
import CallAtlas.Json.Parser
import CallAtlas.Json.Printer
import CallAtlas.Log.Trace

/-!
# Snapshots in files
-/

namespace CallAtlas

def makeParent (tree : FileTree) (path : String) : Except FileError FileTree :=
  match Path.parent? path with
  | some parent => if parent.isEmpty then .ok tree else tree.createDirectories parent
  | none => .ok tree

def Snapshot.fileText (s : Snapshot) : String := s.toJson.pretty

def Snapshot.save (s : Snapshot) (tree : FileTree) (path : String) : Except Failure FileTree :=
  match makeParent tree path with
  | .error e => .error (.io e)
  | .ok tree =>
    match tree.write path s.fileText.toUTF8 with
    | .error e => .error (.io e)
    | .ok tree => .ok tree

def Snapshot.savedLine (s : Snapshot) (path : String) : String :=
  "Saved snapshot with " ++ toString s.nodes.length ++ " nodes to " ++ Path.shown path

def Snapshot.load (tree : FileTree) (path : String) : Except Failure Snapshot :=
  if tree.contains path then
    match tree.readText path with
    | .error e => .error (.io e)
    | .ok text =>
      match (Json.parse? text).bind Snapshot.ofJson? with
      | some s => .ok s
      | none => .error (.snapshotCorrupt path "not a snapshot")
  else .error (.snapshotMissing path)

end CallAtlas
