import CallAtlas.Failure
import CallAtlas.Framework.Registry
import CallAtlas.Log.Trace
import CallAtlas.Path.Normal

/-!
# Facts about files

Before units can be connected, every file is read once.  `loadFiles` gives the facts about the files
that can be read, and a list of what had to be left out.  A file that is listed twice, however it is
spelled, is read once.
-/

namespace CallAtlas

structure FileFacts where
  /-- The whole path. -/
  path : String
  /-- The path within the project. -/
  relative : String
  /-- The units with their calls, only the last with each name. -/
  units : List (CodeUnit × List CallSite)
  imports : List Import
  reExports : List ReExport
  deriving Repr

structure BuildIssue where
  file : String
  message : String
  deriving DecidableEq, Repr

def wholePath (root file : String) : String := Path.normalize (Path.join root file)

/-- The path within the project, with slashes only; outside of the project, the whole path. -/
def relativePath (root path : String) : String :=
  let within := Path.shown ((Path.stripPrefix? root path).getD path)
  String.ofList (within.toList.map fun c => if c = '\\' then '/' else c)

/-- The units without those that a later unit of the same name replaces. -/
def lastDeclarations : List (CodeUnit × List CallSite) → List (CodeUnit × List CallSite)
  | [] => []
  | u :: us =>
    if us.any (·.1.name == u.1.name) then lastDeclarations us else u :: lastDeclarations us

/-- The names of the units that a later unit of the same name replaces. -/
def replacedNames : List (CodeUnit × List CallSite) → List String
  | [] => []
  | u :: us =>
    if us.any (·.1.name == u.1.name) then u.1.name :: replacedNames us else replacedNames us

def FileFacts.ofExtraction (root path : String) (e : Extraction) : FileFacts :=
  { path
    relative := relativePath root path
    units := lastDeclarations e.units
    imports := e.imports
    reExports := e.reExports }

def declarationIssues (path : String) (e : Extraction) : List BuildIssue :=
  e.issues.map fun i => ⟨path, "line " ++ toString i.line ++ ": " ++ i.message⟩

def extractionLines (root path : String) (e : Extraction) : List String :=
  e.issues.map (fun i => Path.shown path ++ ":" ++ toString i.line ++ ": " ++ i.message) ++
    (replacedNames e.units).map fun name =>
      "Duplicate unit " ++ nodeId (relativePath root path) name ++
        "; the later declaration replaces it"

def samePath (a b : String) : Bool := Path.components a == Path.components b

/-- Read the listed files; `facts` are those read before. -/
def loadFilesFrom (tree : FileTree) (root : String) (limit : Nat) (facts : List FileFacts) :
    List String → Traced (List FileFacts × List BuildIssue)
  | [] => pure (facts, [])
  | file :: files =>
    let path := wholePath root file
    if facts.any fun f => samePath f.path path then loadFilesFrom tree root limit facts files
    else
      match Extraction.ofFile tree limit path with
      | .error e => do
        Traced.warn ("Skipping " ++ Path.shown path ++ ": " ++ e.text)
        let (facts, issues) ← loadFilesFrom tree root limit facts files
        return (facts, ⟨path, e.text⟩ :: issues)
      | .ok extraction => do
        (extractionLines root path extraction).forM Traced.debug
        let (facts, issues) ← loadFilesFrom tree root limit
          (facts ++ [FileFacts.ofExtraction root path extraction]) files
        return (facts, declarationIssues path extraction ++ issues)

def loadFiles (tree : FileTree) (root : String) (limit : Nat) (files : List String) :
    Traced (List FileFacts × List BuildIssue) :=
  loadFilesFrom tree root limit [] files

end CallAtlas
