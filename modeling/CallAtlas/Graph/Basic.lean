import CallAtlas.Graph.EntryPoint
import CallAtlas.Time.Instant
import CallAtlas.Unit.Basic

/-!
# The call graph

Nodes are units, edges say which unit reaches which.  A snapshot is a graph with the time at which it
was made, as it is kept in a file.
-/

namespace CallAtlas

/-- The id of a unit: its file within the project, a colon, and its name. -/
def nodeId (file name : String) : String := file ++ ":" ++ name

def edgeId (source target : String) : String := source ++ "->" ++ target

structure Node where
  id : String
  name : String
  kind : UnitKind
  /-- The file within the project. -/
  filePath : String
  isAsync : Bool
  contentHash : String
  lineStart : Nat
  lineEnd : Nat
  entryPoint : Option EntryPoint
  deriving DecidableEq, Repr

structure Edge where
  id : String
  source : String
  target : String
  kind : EdgeKind
  label : Option String
  isAsync : Bool
  order : Option Nat
  deriving DecidableEq, Repr

def Edge.ends (e : Edge) : String × String := (e.source, e.target)

/-- The edges of a list whose ends are not in `seen`, only the first with each pair of ends. -/
def dedupFrom (seen : List (String × String)) : List Edge → List Edge
  | [] => []
  | e :: es =>
    if seen.contains e.ends then dedupFrom seen es else e :: dedupFrom (e.ends :: seen) es

/-- The first edge for each pair of ends. -/
def dedupEdges (edges : List Edge) : List Edge := dedupFrom [] edges

structure Snapshot where
  version : String
  generatedAt : Instant
  nodes : List Node
  edges : List Edge
  deriving DecidableEq, Repr

structure Stats where
  nodes : Nat
  edges : Nat
  entryPoints : Nat
  asyncEdges : Nat
  files : Nat
  deriving DecidableEq, Repr

namespace Snapshot

def calleesOf (s : Snapshot) (id : String) : List String :=
  (s.edges.filter (·.source == id)).map (·.target)

/-- The nodes at which control comes in from outside, each with the way it does. -/
def entryPoints (s : Snapshot) : List (Node × EntryPoint) :=
  s.nodes.filterMap fun n => n.entryPoint.map (n, ·)

def stats (s : Snapshot) : Stats :=
  { nodes := s.nodes.length
    edges := s.edges.length
    entryPoints := s.entryPoints.length
    asyncEdges := (s.edges.filter (·.isAsync)).length
    files := (s.nodes.map (·.filePath)).eraseDups.length }

end Snapshot

end CallAtlas
