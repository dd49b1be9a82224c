import CallAtlas.Proofs.Connections
import CallAtlas.Proofs.SavedSnapshots
import CallAtlas.Proofs.SourceFiles

/-!
# A graph that was just built is up to date

Building and checking go different ways to a unit.  The build reads the listed files, records paths within
the project, and keeps the last declaration of every name; the check reads a snapshot from its file, looks
for the file behind a recorded path, and asks it for one name.  They agree on every node that was built
(`nodeStatus_of_built`), and so do a build and the check that follows it (`build_then_check`).  They do not
where what was recorded for a file leads elsewhere (`build_then_check_astray`).
-/

namespace CallAtlas

open CallAtlas.Path

/-! ## Nodes -/

theorem unitOfFile_of_lastNamed {tree : FileTree} {limit : Nat} {path name : String}
    {source : ParsedSource} (parsed : ParsedSource.ofFile tree limit path = .ok source)
    {unit : CodeUnit × List CallSite}
    (last : (Extraction.ofSource source).lastNamed name = some unit) :
    unitOfFile tree limit path name = .ok (some unit.1) := by
  simp only [unitOfFile, unitsOfFile, parsed, unitNamed_of_lastNamed last]

/-- A node that was built is up to date as long as its file has the text that was read. -/
theorem nodeStatus_of_built {tree after : FileTree} {root : String} {config : Config}
    {files : List String} (absolute : isAbsolute root = true) (normal : normalize root = root)
    (notFile : tree.isFile root = false) (rootPlain : IsPlain root)
    (filesPlain : ∀ file ∈ files, IsPlain file)
    (unchanged : ∀ file ∈ files, ∀ text, tree.readText (wholePath root file) = .ok text →
      after.readText (wholePath root file) = .ok text)
    {n : Node} (built : n ∈ nodesOf (builtFacts tree root config files)) :
    nodeStatus after root config n = .current := by
  obtain ⟨f, loaded, unit, inFile, rfl⟩ := exists_unit_of_mem_nodesOf built
  obtain ⟨file, listed, e, read, rfl⟩ := (mem_loadedFacts_iff ..).mp loaded
  obtain ⟨source, parsed, rfl⟩ := extraction_ofFile_eq_ok read
  obtain ⟨text, before⟩ := parsedSource_ofFile_text parsed
  have now := unchanged file listed text before
  -- A file at the root itself would be recorded with an empty path.
  have notRoot : wholePath root file ≠ root := by
    intro same
    have isFile := FileTree.isFile_of_readText before
    rw [same, notFile] at isFile
    cases isFile
  have isFile := FileTree.isFile_of_readText now
  have found := recordedPath_relativePath config.resolution.rootPrefixes absolute normal rootPlain
    (filesPlain file listed) notRoot (FileTree.contains_of_isFile isFile)
  have last := (lastNamed_eq_some_iff (.ofSource source) unit.1.name unit).mpr ⟨inFile, rfl⟩
  -- The check reads the same text, and asks it for the declaration that was kept.
  have again : ParsedSource.ofFile after config.parsing.maxFileSize (wholePath root file) =
      .ok source := by
    rw [parsedSource_ofFile_congr (now.trans before.symm), parsed]
  have asked := unitOfFile_of_lastNamed again last
  unfold nodeStatus
  dsimp only [nodeOf, FileFacts.ofExtraction]
  rw [found, isFile, asked]
  simp

theorem ofStatuses_current (nodes : List Node) :
    StalenessReport.ofStatuses (nodes.map fun n => (n, .current)) =
      { total := nodes.length, upToDate := nodes.map (·.id), stale := [], errors := [] } := by
  induction nodes with
  | nil => rfl
  | cons n nodes inductionHypothesis =>
    simp only [StalenessReport.ofStatuses, StalenessReport.mk.injEq] at inductionHypothesis ⊢
    obtain ⟨total, upToDate, stale, errors⟩ := inductionHypothesis
    exact ⟨by simp, congrArg (n.id :: ·) upToDate, stale, errors⟩

theorem checkNodes_of_current {tree : FileTree} {root : String} {config : Config} {nodes : List Node}
    (current : ∀ n ∈ nodes, nodeStatus tree root config n = .current) :
    checkNodes tree root config nodes =
      { total := nodes.length, upToDate := nodes.map (·.id), stale := [], errors := [] } := by
  have statuses : nodes.map (fun n => (n, nodeStatus tree root config n)) =
      nodes.map fun n => (n, NodeStatus.current) :=
    List.map_congr_left fun n member => by rw [current n member]
  rw [checkNodes, statuses, ofStatuses_current]

theorem checkFile_of_save {s : Snapshot} {tree after : FileTree} {path : String} (fits : s.FitsWords)
    (saved : s.save tree path = .ok after) (root : String) (config : Config) :
    (checkFile after root config path).1 = checkNodes after root config s.nodes := by
  rw [checkFile, load_of_save fits saved]

/-- A snapshot that is saved right after it was built, to a path that leads to none of the listed files, is
    up to date in all nodes. -/
theorem build_then_check (tree after : FileTree) (root : String) (config : Config) (cache : AliasCache)
    (files : List String) (now : Instant) (path : String)
    (absolute : isAbsolute root = true) (normal : normalize root = root)
    (notFile : tree.isFile root = false)
    (rootFree : '\\' ∉ root.toList) (filesFree : ∀ file ∈ files, '\\' ∉ file.toList)
    (rootText : isText root = true) (filesText : ∀ file ∈ files, isText file = true)
    (fits : ((build tree root config cache files).value.snapshot now).FitsWords)
    (saved : ((build tree root config cache files).value.snapshot now).save tree path = .ok after)
    (apart : ∀ file ∈ files, after.locate (wholePath root file) ≠ after.locate path) :
    (checkFile after root config path).1 =
      { total := (build tree root config cache files).value.nodes.length
        upToDate := (build tree root config cache files).value.nodes.map (·.id)
        stale := []
        errors := [] } := by
  obtain ⟨written, keeps, found, -⟩ := Snapshot.save_spec saved
  have unchanged : ∀ file ∈ files, ∀ text, tree.readText (wholePath root file) = .ok text →
      after.readText (wholePath root file) = .ok text :=
    fun file listed text read => keeps.readText read (found ▸ apart file listed)
  have filesPlain : ∀ file ∈ files, IsPlain file :=
    fun file listed => ⟨filesFree file listed, filesText file listed⟩
  rw [checkFile_of_save fits saved]
  exact checkNodes_of_current fun n built =>
    nodeStatus_of_built absolute normal notFile ⟨rootFree, rootText⟩ filesPlain unchanged built

/-- A project at `/p` with a name that is declared twice, and a file beside it. -/
def spelledTree : FileTree :=
  ⟨[(["p"], .directory),
    (["p", "a.ts"], .file "function f()\x7b\x7dfunction f()\x7bg()\x7d".toUTF8),
    (["q"], .directory),
    (["q", "b.ts"], .file "function g()\x7b\x7d".toUTF8)]⟩

/-- The two files, one in a roundabout spelling and one outside of the project. -/
def spelledFiles : List String := ["x/../a.ts", "/q/b.ts"]

/-- The graph over the two files. -/
def spelledOutcome : BuildOutcome :=
  (build spelledTree "/p" Config.standard .empty spelledFiles).value

/-- Saving leads elsewhere than to the listed files. -/
def savesApart (s : Snapshot) (tree : FileTree) (root path : String) (files : List String) : Bool :=
  match s.save tree path with
  | .error _ => false
  | .ok after => files.all fun file =>
    (after.locate (wholePath root file)).toOption != (after.locate path).toOption

theorem build_then_check_spelled :
    ∃ after, (spelledOutcome.snapshot ⟨⟨2024, 1, 2, rfl⟩, 11045, 0, rfl⟩).save spelledTree
        "/p/out/g.json" = .ok after ∧
      (checkFile after "/p" Config.standard "/p/out/g.json").1 =
        { total := 2, upToDate := ["/q/b.ts:g", "a.ts:f"], stale := [], errors := [] } := by
  have ids : spelledOutcome.nodes.map (·.id) = ["/q/b.ts:g", "a.ts:f"] := by decide +kernel
  have count : spelledOutcome.nodes.length = 2 := by
    rw [← List.length_map, ids]
    rfl
  have apart : savesApart (spelledOutcome.snapshot ⟨⟨2024, 1, 2, rfl⟩, 11045, 0, rfl⟩) spelledTree "/p"
      "/p/out/g.json" spelledFiles = true := by
    decide +kernel
  -- The tree after saving is left as it comes: that it exists is all that was evaluated.
  unfold savesApart at apart
  split at apart
  · cases apart
  · rename_i after saved
    refine ⟨after, saved, ?_⟩
    rw [← ids, ← count]
    refine build_then_check spelledTree after "/p" Config.standard .empty spelledFiles _ "/p/out/g.json"
      (by decide) (by decide) (by decide) (by decide) (by decide) (by decide) (by decide)
      (by decide +kernel) saved ?_
    intro file listed same
    have differ := List.all_eq_true.mp apart file listed
    rw [same] at differ
    simp at differ

/-- The graph over the files under the standard settings. -/
def standardSnapshot (tree : FileTree) (root : String) (files : List String) (now : Instant) : Snapshot :=
  (build tree root Config.standard .empty files).value.snapshot now

/-- The report of a check right after the snapshot was saved. -/
def recheck (s : Snapshot) (tree : FileTree) (root path : String) : Option StalenessReport :=
  (s.save tree path).toOption.map fun after => (checkFile after root Config.standard path).1

theorem recheck_eq {s : Snapshot} (fits : s.FitsWords) (tree : FileTree) (root path : String) :
    recheck s tree root path =
      (s.save tree path).toOption.map fun after => checkNodes after root Config.standard s.nodes := by
  unfold recheck
  cases saved : s.save tree path with
  | error e => rfl
  | ok after => exact congrArg some (checkFile_of_save fits saved root Config.standard)

/-- A project at `/p` with two files; the name of one is a byte that is no character, and an ending. -/
def astrayTree : FileTree :=
  ⟨[(["p"], .directory), (["p", "a.ts"], .file "function f()\x7b\x7d".toUTF8),
    (["p", spelled [0xff, 0x2e, 0x74, 0x73]], .file "function f()\x7b\x7d".toUTF8)]⟩

/-- The one unit is not found again if the root is the file itself, or if the name of the file is no
    text. -/
theorem build_then_check_astray :
    ∃ now,
      (recheck (standardSnapshot astrayTree "/p/a.ts" ["."] now) astrayTree "/p/a.ts" "/g.json").map
          (fun r => (r.total, r.upToDate, r.stale.map fun s => s.dependencies.map (·.reason))) =
        some (1, [], [[.fileNotFound]]) ∧
      (recheck (standardSnapshot astrayTree "/p" [spelled [0xff, 0x2e, 0x74, 0x73]] now) astrayTree "/p"
          "/g.json").map
          (fun r => (r.total, r.upToDate, r.stale.map fun s => s.dependencies.map (·.reason))) =
        some (1, [], [[.fileNotFound]]) := by
  refine ⟨⟨⟨2024, 1, 2, rfl⟩, 11045, 0, rfl⟩, ?_⟩
  rw [recheck_eq (by decide +kernel), recheck_eq (by decide +kernel)]
  exact ⟨by decide +kernel, by decide +kernel⟩

end CallAtlas
