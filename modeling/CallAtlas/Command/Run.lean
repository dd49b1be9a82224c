import CallAtlas.Command.Invocation
import CallAtlas.Config.File
import CallAtlas.Discovery.Walk
import CallAtlas.Graph.Build
import CallAtlas.Path.Normal
import CallAtlas.Staleness.Check
import CallAtlas.Text.Padded

/-!
# Carrying out a command

A command takes the files as they are, and gives what it leaves: the files with its changes, the
known aliases, the log, the text that it prints, and why it failed, if it did.
-/

namespace CallAtlas.Command

open Text

inductive CommandFailure where
  | failed (e : Failure)
  | directoryNotMade (e : FileError)
  | settingsNotWritten (path : String) (e : Failure)
  | snapshotNotWritten (e : Failure)
  | staleUnits
  deriving DecidableEq, Repr

def CommandFailure.text : CommandFailure → String
  | failed e => e.text
  | directoryNotMade e => e.text
  | settingsNotWritten path e => "Failed to write " ++ Path.shown path ++ ": " ++ e.text
  | snapshotNotWritten e => "Failed to write snapshot: " ++ e.text
  | staleUnits => "Stale units found"

structure Project where
  tree : FileTree
  root : String
  config : Config
  aliases : AliasCache
  now : Instant

structure Result where
  tree : FileTree
  aliases : AliasCache
  lines : List LogLine
  output : String
  failure : Option CommandFailure

namespace Project

def unchanged (p : Project) (lines : List LogLine) (failure : Option CommandFailure) : Result :=
  ⟨p.tree, p.aliases, lines, "", failure⟩

/-! ## `init` -/

/-- The name of the project in a directory: the name of the directory itself. -/
def nameOf (p : Project) (directory : String) : String :=
  match p.tree.locate (Path.join p.root directory) with
  | .ok l => (l.getLast?.map Path.shown).getD Config.standard.project.name
  | .error _ => Config.standard.project.name

def settingsFor (name : String) : Config :=
  { Config.standard with project := { Config.standard.project with name } }

/-- Write standard settings to a directory, unless there are some. -/
def init (p : Project) (path : Option String) : Result :=
  let target := path.getD p.root
  let file := Path.join target Config.fileName
  let place := Path.join p.root file
  if p.tree.contains place then
    p.unchanged [⟨.warn, "⚠️ " ++ Path.shown file ++ " already exists, leaving it untouched"⟩] none
  else
    match p.tree.createDirectories (Path.join p.root target) with
    | .error e => p.unchanged [] (some (.directoryNotMade e))
    | .ok tree =>
      let p := { p with tree }
      match (settingsFor (p.nameOf target)).save tree place with
      | .error e => p.unchanged [] (some (.settingsNotWritten file e))
      | .ok tree =>
        { p with tree }.unchanged [⟨.info, "Initialized docgraph in " ++ Path.shown target⟩] none

/-! ## `build` -/

def snapshotPath (p : Project) (named : Option String) : String :=
  Path.join p.root (named.getD p.config.project.snapshotPath)

def shownPaths (paths : List String) : String :=
  "[" ++ ", ".intercalate (paths.map quote) ++ "]"

def graphLines (s : Snapshot) (path : String) : List LogLine :=
  let stats := s.stats
  [⟨.debug, s.savedLine path⟩,
    ⟨.info, "📊 Graph written to " ++ Path.shown path⟩,
    ⟨.info, "  - " ++ toString stats.nodes ++ " units across " ++ toString stats.files ++ " files"⟩,
    ⟨.info, "  - " ++ toString stats.edges ++ " edges (" ++ toString stats.asyncEdges ++ " async)"⟩,
    ⟨.info, "  - " ++ toString stats.entryPoints ++ " entry points"⟩] ++
  s.entryPoints.map fun (n, entry) =>
    ⟨.debug, "    " ++ n.id ++ " (" ++ entry.describe ++ ") -> " ++
      toString (s.calleesOf n.id).length ++ " callees"⟩

def skippedLines (count : Nat) : List LogLine :=
  if count = 0 then []
  else [⟨.warn, "⚠️ " ++ toString count ++ " files or declarations were skipped"⟩]

def buildFrom (p : Project) (files : List String) (output : Option String) : Result :=
  -- What was known about aliases is forgotten: the files may have changed since.
  let built := CallAtlas.build p.tree p.root p.config .empty files
  let (aliases, lines) :=
    AliasCache.empty.replay p.tree p.config.resolution.projectConfigFiles built.events
  let p := { p with aliases }
  let issues := built.value.issues
  let issueLines := issues.map fun i => ⟨.warn, "  - " ++ Path.shown i.file ++ ": " ++ i.message⟩
  let lines := lines ++ issueLines
  let snapshot := built.value.snapshot p.now
  let path := p.snapshotPath output
  match snapshot.save p.tree path with
  | .error e => p.unchanged lines (some (.snapshotNotWritten e))
  | .ok tree =>
    { p with tree }.unchanged
      (lines ++ graphLines snapshot path ++ skippedLines issues.length) none

def build (p : Project) (sources : List String) (output : Option String) : Result :=
  let dirs := if sources.isEmpty then p.config.project.sourceDirs else sources
  let found := discover p.tree p.root p.config dirs
  let lines := ⟨.info, "🔍 Discovering sources in " ++ shownPaths dirs⟩ ::
    (p.aliases.replay p.tree p.config.resolution.projectConfigFiles found.events).2
  match found.value with
  | .error e => p.unchanged lines (some (.failed e))
  | .ok files =>
    let result := p.buildFrom files output
    { result with
      lines := lines ++ ⟨.info, "Found " ++ toString files.length ++ " source files"⟩ ::
        result.lines }

/-! ## `check` -/

def reportLines (r : StalenessReport) : List LogLine :=
  (r.errors.map fun e =>
    match e.nodeId with
    | some id => ⟨.warn, "  - " ++ id ++ ": " ++ e.message⟩
    | none => ⟨.warn, e.message⟩) ++
  r.stale.flatMap fun record => record.dependencies.map fun d =>
    ⟨.warn, "  - " ++ record.nodeId ++ " [" ++ d.reason.text ++ "] " ++ Digest.short d.oldHash ++
      " -> " ++ (if d.newHash.isEmpty then "-" else Digest.short d.newHash)⟩

def outcomeLine (r : StalenessReport) : LogLine :=
  match r.outcome with
  | .nothingToCheck => ⟨.warn, "Nothing to check yet. Run `docgraph build` first."⟩
  | .allCurrent => ⟨.info, "✅ All " ++ toString r.total ++ " units are up to date"⟩
  | .stale count =>
    ⟨.warn, "❌ " ++ toString count ++ " of " ++ toString r.total ++ " units are stale"⟩
  | .incomplete stale errors =>
    ⟨.warn, "⚠️ " ++ toString stale ++ " units stale, " ++ toString errors ++
      " could not be checked"⟩

def isAlarming : CheckOutcome → Bool
  | .stale _ | .incomplete _ _ => true
  | .nothingToCheck | .allCurrent => false

def check (p : Project) (snapshot : Option String) (failOnStale : Bool) : Result :=
  let (report, lines) := checkFile p.tree p.root p.config (p.snapshotPath snapshot)
  p.unchanged (lines ++ reportLines report ++ [outcomeLine report])
    (if failOnStale && isAlarming report.outcome then some .staleUnits else none)

/-! ## `symbols` -/

def summaryOf (u : CodeUnit) : String :=
  let first := (u.docs.bind (·.description)).bind fun d => (Text.lines d.toList).head?
  String.ofList (first.getD [])

def unitLine (u : CodeUnit) : String :=
  padStart 5 (toString u.firstLine) ++ "-" ++ padEnd 5 (toString u.lastLine) ++ " " ++
    padEnd 18 u.kind.text ++ " " ++ padEnd 32 u.name ++ " " ++ Digest.short u.hash ++ "  " ++
    summaryOf u ++ "\n"

def callLine (c : CallSite) : String :=
  padStart 12 "" ++ " -> " ++ c.expression ++
    (if c.guards.isEmpty then "" else " [if " ++ " && ".intercalate c.guards ++ "]") ++ "\n"

def listing (e : Extraction) : String :=
  String.join (e.units.map fun (u, calls) => unitLine u ++ String.join (calls.map callLine))

def symbols (p : Project) (file : String) : Result :=
  match Extraction.ofFile p.tree p.config.parsing.maxFileSize (Path.join p.root file) with
  | .error e => p.unchanged [] (some (.failed e))
  | .ok e =>
    { p.unchanged (e.issues.map fun i =>
        ⟨.warn, "line " ++ toString i.line ++ ": " ++ i.message⟩) none with
      output := listing e }

def perform (p : Project) : Task → Result
  | .init path => p.init path
  | .build sources output => p.build sources output
  | .check snapshot failOnStale => p.check snapshot failOnStale
  | .symbols file => p.symbols file

end Project

/-- A line of the log is shown; what only matters for finding faults is shown on demand. -/
def isShown (verbose : Bool) (l : LogLine) : Bool := verbose || l.level ≠ .debug

def Invocation.run (i : Invocation) (tree : FileTree) (root : String) (aliases : AliasCache)
    (now : Instant) : Result :=
  match Config.loadOrStandard tree root (i.config.map (Path.join root)) with
  | .error e => ⟨tree, aliases, [], "", some (.failed e)⟩
  | .ok config =>
    let result := Project.perform ⟨tree, root, config, aliases, now⟩ i.task
    { result with lines := result.lines.filter (isShown i.verbose) }

end CallAtlas.Command
