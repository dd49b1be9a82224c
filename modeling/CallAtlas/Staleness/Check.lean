import CallAtlas.Config.Basic
import CallAtlas.Graph.Store

/-!
# Stale units

A snapshot tells what the code looked like when it was made.  `checkNodes` compares it with the files as
they are now: every node is up to date, stale for a reason, or cannot be checked.
-/

namespace CallAtlas

open Text

inductive StaleReason where
  | changed
  | notFound
  | fileNotFound
  deriving DecidableEq, Repr

def StaleReason.text : StaleReason → String
  | changed => "changed"
  | notFound => "not-found"
  | fileNotFound => "file-not-found"

structure StaleDependency where
  path : String
  name : String
  oldHash : String
  /-- The digest now; empty if there is no such unit any more. -/
  newHash : String
  reason : StaleReason
  deriving DecidableEq, Repr

structure StaleRecord where
  nodeId : String
  reason : String
  dependencies : List StaleDependency
  deriving DecidableEq, Repr

/-- A node that could not be checked, or a snapshot that could not be read. -/
structure CheckError where
  nodeId : Option String
  message : String
  deriving DecidableEq, Repr

structure StalenessReport where
  total : Nat
  upToDate : List String
  stale : List StaleRecord
  errors : List CheckError
  deriving DecidableEq, Repr

inductive CheckOutcome where
  | nothingToCheck
  | allCurrent
  | stale (count : Nat)
  | incomplete (stale errors : Nat)
  deriving DecidableEq, Repr

def StalenessReport.outcome (r : StalenessReport) : CheckOutcome :=
  if r.total = 0 then .nothingToCheck
  else if !r.errors.isEmpty then .incomplete r.stale.length r.errors.length
  else if r.stale.isEmpty then .allCurrent
  else .stale r.stale.length

/-- What stands from the first `/start` on, without the slash. -/
def fromPrefix? (start : List Char) : List Char → Option (List Char)
  | [] => none
  | c :: cs =>
    if c = '/' && (stripPrefix? start cs).isSome then some cs else fromPrefix? start cs

/-- Where a recorded path lies now.  A path within the project is seen from the root.  A whole path is
    taken as it is if it leads somewhere; if not, it comes from another machine, and is taken up at the
    first known directory of a project. -/
def recordedPath (tree : FileTree) (root : String) (prefixes : List String) (recorded : String) :
    String :=
  if !Path.isAbsolute recorded then Path.join root recorded
  else if tree.contains recorded then recorded
  else
    let slashed := recorded.toList.map fun c => if c = '\\' then '/' else c
    match prefixes.findSome? fun p => fromPrefix? p.toList slashed with
    | some rest => Path.join root (String.ofList rest)
    | none => recorded

inductive NodeStatus where
  | current
  | stale (newHash : String) (reason : StaleReason)
  | failed (e : Failure)
  deriving DecidableEq, Repr

def nodeStatus (tree : FileTree) (root : String) (config : Config) (n : Node) : NodeStatus :=
  let path := recordedPath tree root config.resolution.rootPrefixes n.filePath
  if !tree.isFile path then .stale "" .fileNotFound
  else
    match unitOfFile tree config.parsing.maxFileSize path n.name with
    | .error e => .failed e
    | .ok none => .stale "" .notFound
    | .ok (some u) => if u.hash == n.contentHash then .current else .stale u.hash .changed

def staleRecord (n : Node) (newHash : String) (reason : StaleReason) : StaleRecord :=
  { nodeId := n.id
    reason := n.name ++ " " ++ reason.text
    dependencies :=
      [{ path := n.filePath, name := n.name, oldHash := n.contentHash, newHash, reason }] }

def StalenessReport.ofStatuses (nodes : List (Node × NodeStatus)) : StalenessReport :=
  { total := nodes.length
    upToDate := nodes.filterMap fun (n, status) =>
      match status with
      | .current => some n.id
      | _ => none
    stale := nodes.filterMap fun (n, status) =>
      match status with
      | .stale newHash reason => some (staleRecord n newHash reason)
      | _ => none
    errors := nodes.filterMap fun (n, status) =>
      match status with
      | .failed e => some ⟨some n.id, e.text⟩
      | _ => none }

def checkNodes (tree : FileTree) (root : String) (config : Config) (nodes : List Node) :
    StalenessReport :=
  .ofStatuses (nodes.map fun n => (n, nodeStatus tree root config n))

def checkLines (r : StalenessReport) : List LogLine :=
  (r.stale.flatMap fun record => record.dependencies.map fun d =>
    ⟨.debug, record.nodeId ++ " is stale: " ++ d.reason.text⟩) ++
  [⟨.info, "Checked " ++ toString r.total ++ " nodes: " ++ toString r.upToDate.length ++
    " current, " ++ toString r.stale.length ++ " stale, " ++ toString r.errors.length ++
    " errors"⟩]

/-- Compare the snapshot in a file with the files as they are now.  A snapshot that cannot be read gives
    an empty report with one error. -/
def checkFile (tree : FileTree) (root : String) (config : Config) (path : String) :
    StalenessReport × List LogLine :=
  match Snapshot.load tree path with
  | .ok s =>
    let report := checkNodes tree root config s.nodes
    (report, checkLines report)
  | .error e =>
    ({ total := 0, upToDate := [], stale := [], errors := [⟨none, e.text⟩] }, [⟨.warn, e.text⟩])

end CallAtlas
