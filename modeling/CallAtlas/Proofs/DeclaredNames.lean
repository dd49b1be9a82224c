import CallAtlas.Proofs.EdgesPerSource
import CallAtlas.Proofs.RecordedPaths
import CallAtlas.Proofs.SourceFiles

/-!
# One node for every declared name

A unit goes through two places where a later one replaces an earlier one: the declarations of a file, and
the nodes of the graph, which are kept by their ids.  An id is a path and a name with a colon between them.
As long as names have no colon, and paths are text without backslashes, an id gives both back
(`ListedPlainly.idsDetermineUnits`).  Then the second place replaces nothing, and there is one node for
every file and every name that is declared in it (`build_nodes_exact`).  Files whose paths are no text may
be recorded alike, and then one takes the place of the other (`build_nodes_strayBytes`).
-/

namespace CallAtlas

open CallAtlas.Path

theorem eq_nil_of_separator {c : Char} {before tail rest : List Char} (free : c ∉ tail)
    (same : c :: tail = before ++ c :: rest) : before = [] ∧ tail = rest := by
  cases before with
  | nil => simpa using same
  | cons d before =>
    rw [List.cons_append, List.cons.injEq] at same
    exact absurd (by simp [same.2]) free

/-- A colon that no name contains is the last one of an id. -/
theorem eq_of_nodeId_eq {x y a b : String} (aFree : ':' ∉ a.toList) (bFree : ':' ∉ b.toList)
    (same : nodeId x a = nodeId y b) : x = y ∧ a = b := by
  have chars : x.toList ++ ':' :: a.toList = y.toList ++ ':' :: b.toList := by
    simpa [nodeId] using congrArg String.toList same
  -- One path is the start of the other, and what is between them would hold the colon of a name.
  rcases List.append_eq_append_iff.mp chars with ⟨between, paths, names⟩ | ⟨between, paths, names⟩
  · obtain ⟨rfl, sameNames⟩ := eq_nil_of_separator aFree names
    rw [List.append_nil] at paths
    exact ⟨(String.toList_inj.mp paths).symm, String.toList_inj.mp sameNames⟩
  · obtain ⟨rfl, sameNames⟩ := eq_nil_of_separator bFree names
    rw [List.append_nil] at paths
    exact ⟨String.toList_inj.mp paths, (String.toList_inj.mp sameNames).symm⟩

/-- The files are listed from an absolute root in normal form, as texts without backslashes and without
    paths that climb above the top, and the units in them have no colon in their names. -/
structure ListedPlainly (tree : FileTree) (root : String) (config : Config) (files : List String) :
    Prop where
  absolute : isAbsolute root = true
  normal : normalize root = root
  rootFree : '\\' ∉ root.toList
  rootText : isText root = true
  filesFree : ∀ file ∈ files, '\\' ∉ file.toList
  filesText : ∀ file ∈ files, isText file = true
  inside : ∀ file ∈ files, staysInside 0 (components (join root file)) = true
  namesFree : ∀ file ∈ files, ∀ e,
    Extraction.ofFile tree config.parsing.maxFileSize (wholePath root file) = .ok e →
      ∀ unit ∈ e.units, ':' ∉ unit.1.name.toList

section

variable {tree : FileTree} {root : String} {config : Config} {files : List String}

theorem ListedPlainly.isPlain (plain : ListedPlainly tree root config files) {file : String}
    (listed : file ∈ files) : IsPlain root ∧ IsPlain file :=
  ⟨⟨plain.rootFree, plain.rootText⟩, ⟨plain.filesFree file listed, plain.filesText file listed⟩⟩

theorem ListedPlainly.wholePath_eq (plain : ListedPlainly tree root config files) {file other : String}
    (listed : file ∈ files) (otherListed : other ∈ files)
    (same : relativePath root (wholePath root file) = relativePath root (wholePath root other)) :
    wholePath root file = wholePath root other :=
  relativePath_injective plain.absolute plain.normal (plain.isPlain listed).1 (plain.isPlain listed).2
    (plain.isPlain otherListed).2 same

theorem ListedPlainly.idsDetermineUnits (plain : ListedPlainly tree root config files) :
    IdsDetermineUnits (builtFacts tree root config files) := by
  intro f fLoaded g gLoaded u uMember v vMember sameId
  obtain ⟨file, listed, e, read, rfl⟩ := (mem_loadedFacts_iff ..).mp fLoaded
  obtain ⟨other, otherListed, e', read', rfl⟩ := (mem_loadedFacts_iff ..).mp gLoaded
  obtain ⟨samePath, sameName⟩ := eq_of_nodeId_eq
    (plain.namesFree file listed e read u (mem_of_mem_lastDeclarations uMember))
    (plain.namesFree other otherListed e' read' v (mem_of_mem_lastDeclarations vMember)) sameId
  exact ⟨plain.wholePath_eq listed otherListed samePath, sameName⟩

/-- There is a node for every file that is read and every name that is declared in it. -/
theorem ListedPlainly.exists_node_iff (plain : ListedPlainly tree root config files)
    (path name : String) :
    (∃ n ∈ nodesOf (builtFacts tree root config files), n.filePath = path ∧ n.name = name) ↔
      ∃ file ∈ files, ∃ e,
        Extraction.ofFile tree config.parsing.maxFileSize (wholePath root file) = .ok e ∧
          relativePath root (wholePath root file) = path ∧ ∃ unit ∈ e.units, unit.1.name = name := by
  constructor
  · rintro ⟨n, member, rfl, rfl⟩
    obtain ⟨f, loaded, unit, kept, rfl⟩ := exists_unit_of_mem_nodesOf member
    obtain ⟨file, listed, e, read, rfl⟩ := (mem_loadedFacts_iff ..).mp loaded
    exact ⟨file, listed, e, read, rfl, unit, mem_of_mem_lastDeclarations kept, rfl⟩
  · rintro ⟨file, listed, e, read, rfl, declared⟩
    obtain ⟨unit, kept, rfl⟩ := (exists_mem_lastDeclarations_iff e.units name).mpr declared
    have loaded := (mem_loadedFacts_iff ..).mpr ⟨file, listed, e, read, rfl⟩
    exact ⟨_, (mem_nodesOf_builtFacts_iff plain.idsDetermineUnits _).mpr ⟨_, loaded, unit, kept, rfl⟩,
      rfl, rfl⟩

/-- No two nodes have the same file and name. -/
theorem nodesOf_pairs (facts : List FileFacts) :
    (nodesOf facts).Pairwise fun a b => (a.filePath, a.name) ≠ (b.filePath, b.name) := by
  have idOfNode : ∀ n ∈ nodesOf facts, n.id = nodeId n.filePath n.name := by
    intro n member
    obtain ⟨f, -, unit, -, rfl⟩ := exists_unit_of_mem_nodesOf member
    rfl
  apply (nodesOf_ascending facts).imp_of_mem
  intro a b aMember bMember below same
  rw [Prod.mk.injEq] at same
  rw [idOfNode a aMember, idOfNode b bMember, same.1, same.2] at below
  exact String.lt_irrefl _ below

/-- A node shows the last declaration of its name. -/
theorem ListedPlainly.exists_shown (plain : ListedPlainly tree root config files) {n : Node}
    (member : n ∈ nodesOf (builtFacts tree root config files)) {file : String} (listed : file ∈ files)
    {e : Extraction}
    (read : Extraction.ofFile tree config.parsing.maxFileSize (wholePath root file) = .ok e)
    (isPath : relativePath root (wholePath root file) = n.filePath) :
    ∃ u, IsLastNamed n.name (e.units.map (·.1)) u ∧ n.kind = u.kind ∧ n.isAsync = u.isAsync ∧
      n.contentHash = u.hash ∧ n.lineStart = u.firstLine ∧ n.lineEnd = u.lastLine := by
  obtain ⟨f, loaded, unit, kept, rfl⟩ := exists_unit_of_mem_nodesOf member
  obtain ⟨other, otherListed, e', read', rfl⟩ := (mem_loadedFacts_iff ..).mp loaded
  -- Both are the same file, so what was read is the same.
  rw [plain.wholePath_eq listed otherListed isPath, read', Except.ok.injEq] at read
  subst read
  refine ⟨unit.1, ?_, rfl, rfl, rfl, rfl, rfl⟩
  rw [← unitNamed_eq_some_iff]
  exact unitNamed_map_of_lastNamed ((lastNamed_eq_some_iff _ _ _).mpr ⟨kept, rfl⟩)

/-- Two spellings are recorded as one path if and only if they lead to the same place. -/
theorem ListedPlainly.relativePath_eq_iff (plain : ListedPlainly tree root config files)
    {file other : String} (listed : file ∈ files) (otherListed : other ∈ files) {limit : Nat}
    {e : Extraction} (read : Extraction.ofFile tree limit (wholePath root file) = .ok e) :
    relativePath root (wholePath root file) = relativePath root (wholePath root other) ↔
      tree.locate (wholePath root file) = tree.locate (wholePath root other) := by
  constructor
  · intro same
    rw [plain.wholePath_eq listed otherListed same]
  · intro same
    obtain ⟨l, found⟩ := exists_locate read
    rw [wholePath_eq_of_locate_eq plain.absolute (plain.inside file listed)
      (plain.inside other otherListed) found (same ▸ found)]

end

/-- The nodes of a graph over plainly listed files are in bijection with the names that are declared in
    them.  A file is recorded by its path below the root, or by its whole path if it lies elsewhere; it counts
    once however it is spelled, and the last declaration of a name is shown. -/
theorem build_nodes_exact (tree : FileTree) (root : String) (config : Config) (cache : AliasCache)
    (files : List String) (now : Instant) (plain : ListedPlainly tree root config files) :
    let nodes := ((build tree root config cache files).value.snapshot now).nodes
    let extracted := fun file e =>
      Extraction.ofFile tree config.parsing.maxFileSize (wholePath root file) = .ok e
    let recorded := fun file => relativePath root (wholePath root file)
    nodes.Pairwise (fun a b => (a.filePath, a.name) ≠ (b.filePath, b.name)) ∧
    (∀ file ∈ files, recorded file = (stripPrefix? root (wholePath root file)).getD (wholePath root file)) ∧
    (∀ path name, (∃ n ∈ nodes, n.filePath = path ∧ n.name = name) ↔
      ∃ file ∈ files, ∃ e, extracted file e ∧ recorded file = path ∧
        ∃ unit ∈ e.units, unit.1.name = name) ∧
    (∀ file ∈ files, ∀ other ∈ files, ∀ e, extracted file e →
      (recorded file = recorded other ↔
        tree.locate (wholePath root file) = tree.locate (wholePath root other))) ∧
    ∀ n ∈ nodes, ∀ file ∈ files, ∀ e, extracted file e → recorded file = n.filePath →
      ∃ u, IsLastNamed n.name (e.units.map (·.1)) u ∧ n.kind = u.kind ∧ n.isAsync = u.isAsync ∧
        n.contentHash = u.hash ∧ n.lineStart = u.firstLine ∧ n.lineEnd = u.lastLine := by
  intro nodes extracted recorded
  have built : (build tree root config cache files).value.nodes =
      nodesOf (builtFacts tree root config files) := build_nodes ..
  rw [show nodes = nodesOf (builtFacts tree root config files) from built]
  refine ⟨nodesOf_pairs _, ?_, plain.exists_node_iff, ?_, ?_⟩
  · intro file listed
    exact relativePath_wholePath plain.absolute plain.normal (plain.isPlain listed).1
      (plain.isPlain listed).2
  · intro file listed other otherListed e read
    exact plain.relativePath_eq_iff listed otherListed read
  · intro n member file listed e read isPath
    exact plain.exists_shown member listed read isPath

/-- A file in which a name is declared twice. -/
def twiceDeclaredTree : FileTree :=
  ⟨[(["p"], .directory), (["p", "a.ts"], .file "function f()\x7b\x7d\nfunction f()\x7b\x7d".toUTF8)]⟩

/-- The file in two spellings. -/
def twiceListed : List String := ["a.ts", "x/../a.ts"]

theorem eq_ok_of_toOption_map {ε α β : Type} {result : Except ε α} {f : α → β} {b : β}
    (mapped : result.toOption.map f = some b) : ∃ a, result = .ok a ∧ f a = b := by
  cases result with
  | error e => cases mapped
  | ok a => exact ⟨a, rfl, Option.some.inj mapped⟩

/-- In both spellings there are two declarations of the name, on the first line and on the second. -/
theorem twiceListed_units {file : String} (listed : file ∈ twiceListed) :
    ∃ e, Extraction.ofFile twiceDeclaredTree Config.standard.parsing.maxFileSize (wholePath "/p" file) =
        .ok e ∧
      e.units.map (fun unit => (unit.1.name, unit.1.firstLine)) = [("f", 1), ("f", 2)] := by
  apply eq_ok_of_toOption_map
  revert file
  decide +kernel

/-- The graph over the two spellings. -/
def twiceSnapshot : Snapshot :=
  (build twiceDeclaredTree "/p" Config.standard .empty twiceListed).value.snapshot
    ⟨⟨2024, 1, 2, rfl⟩, 11045, 0, rfl⟩

theorem build_nodes_exact_twice :
    ListedPlainly twiceDeclaredTree "/p" Config.standard twiceListed ∧
      ∃ n ∈ twiceSnapshot.nodes, n.filePath = "a.ts" ∧ n.name = "f" ∧ n.lineStart = 2 := by
  have plain : ListedPlainly twiceDeclaredTree "/p" Config.standard twiceListed := by
    refine ⟨by decide, by decide, by decide, by decide, by decide, by decide, by decide, ?_⟩
    intro file listed e read unit member
    obtain ⟨known, knownRead, units⟩ := twiceListed_units listed
    rw [knownRead, Except.ok.injEq] at read
    subst read
    have pair : (unit.1.name, unit.1.firstLine) ∈ [("f", 1), ("f", 2)] :=
      units ▸ List.mem_map.mpr ⟨unit, member, rfl⟩
    simp only [List.mem_cons, Prod.mk.injEq, List.not_mem_nil, or_false] at pair
    rcases pair with ⟨isF, -⟩ | ⟨isF, -⟩ <;> simp [isF]
  refine ⟨plain, ?_⟩
  obtain ⟨-, -, pairs, -, shown⟩ := build_nodes_exact twiceDeclaredTree "/p" Config.standard .empty
    twiceListed ⟨⟨2024, 1, 2, rfl⟩, 11045, 0, rfl⟩ plain
  have listed : "a.ts" ∈ twiceListed := by decide
  have recorded : relativePath "/p" (wholePath "/p" "a.ts") = "a.ts" := by decide
  obtain ⟨e, read, units⟩ := twiceListed_units listed
  obtain ⟨first, rest, shape, firstPair, restPairs⟩ := List.map_eq_cons_iff.mp units
  obtain ⟨second, rest, rfl, secondPair, restPairs⟩ := List.map_eq_cons_iff.mp restPairs
  obtain rfl := List.map_eq_nil_iff.mp restPairs
  rw [Prod.mk.injEq] at firstPair secondPair
  obtain ⟨n, member, isPath, isName⟩ := (pairs "a.ts" "f").mpr
    ⟨"a.ts", listed, e, read, recorded, first, by simp [shape], firstPair.1⟩
  obtain ⟨u, isLast, -, -, -, line, -⟩ := shown n member "a.ts" listed e read (recorded.trans isPath.symm)
  refine ⟨n, member, isPath, isName, ?_⟩
  rw [← unitNamed_eq_some_iff, shape, isName] at isLast
  have isSecond : unitNamed "f" [first.1, second.1] = some second.1 := by
    simp [unitNamed, secondPair.1]
  rw [line, Option.some.inj (isLast.symm.trans isSecond), secondPair.2]

/-- Two names of files that end in `.ts`; the byte in front of the ending is no character. -/
def strayNames : List String := [spelled [0xff, 0x2e, 0x74, 0x73], spelled [0xfe, 0x2e, 0x74, 0x73]]

/-- A project with the two files, and a file beside it. -/
def strayTree : FileTree :=
  ⟨(["p"], .directory) :: (["q"], .directory) :: (["q", "b.ts"], .file "function g()\x7b\x7d".toUTF8) ::
    strayNames.map fun name => (["p", name], .file "function f()\x7b\x7d".toUTF8)⟩

/-- The two files are different and both declare a unit, but there is one node for both.  The file outside
    of the project is not recorded by a path that starts at the root. -/
theorem build_nodes_strayBytes :
    strayNames.Nodup ∧
    (∀ file ∈ strayNames, '\\' ∉ file.toList ∧ staysInside 0 (components (join "/p" file)) = true ∧
      (strayTree.locate (wholePath "/p" file)).toOption = some ["p", file] ∧
      (Extraction.ofFile strayTree Config.standard.parsing.maxFileSize (wholePath "/p" file)).toOption.map
        (fun e => e.units.map (·.1.name)) = some ["f"]) ∧
    (build strayTree "/p" Config.standard .empty ("../q/b.ts" :: strayNames)).value.nodes.map
      (fun n => (n.filePath, n.name)) = [("/q/b.ts", "g"), ("\ufffd.ts", "f")] := by
  refine ⟨by decide, by decide +kernel, by decide +kernel⟩

end CallAtlas
