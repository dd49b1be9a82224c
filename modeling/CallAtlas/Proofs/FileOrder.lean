import CallAtlas.Proofs.EdgesPerSource
import CallAtlas.Proofs.SearchViews

/-!
# The order of the listed files does not matter

Where ids tell units apart, a build over the same files in another order has the same nodes, and every
unit has the same edges in the same order (`build_perm`).  The order of the files shows only in how the
edges of different units follow one another, and in the order of the issues.

The files themselves come in another order, but a search looks at nothing that depends on it
(`builtScope_sameView`).
-/

namespace CallAtlas

/-! ## Lists in another order -/

/-- A list that is put together from blocks, of which at most one holds something. -/
theorem flatMap_eq_of_perm {α β : Type} {xs ys : List α} (perm : xs.Perm ys) (block : α → List β)
    (alone : xs.Pairwise fun a b => block a = [] ∨ block b = []) :
    xs.flatMap block = ys.flatMap block := by
  induction perm with
  | nil => rfl
  | cons a perm inductionHypothesis =>
    rw [List.flatMap_cons, List.flatMap_cons, inductionHypothesis (List.pairwise_cons.mp alone).2]
  | swap a b rest =>
    have one := (List.pairwise_cons.mp alone).1 a List.mem_cons_self
    simp only [List.flatMap_cons]
    cases one with
    | inl empty => simp [empty]
    | inr empty => simp [empty]
  | trans first second firstHypothesis secondHypothesis =>
    have stillAlone := (first.pairwise_iff fun empty => empty.symm).mp alone
    exact (firstHypothesis alone).trans (secondHypothesis stillAlone)

/-- Lists that agree for every key differ only in how the keys are mixed. -/
theorem perm_of_filter_eq {edges others : List Edge}
    (same : ∀ source, edges.filter (·.source == source) = others.filter (·.source == source)) :
    edges.Perm others := by
  rw [List.perm_iff_count]
  intro e
  have atSource : ∀ list : List Edge, (list.filter (·.source == e.source)).count e = list.count e :=
    fun list => List.count_filter (by simp)
  rw [← atSource edges, ← atSource others, same]

/-- Among the edges with certain ends, the first of each pair is kept as if there were no others. -/
theorem filter_dedupFrom (wanted : String × String → Bool) (seen : List (String × String))
    (edges : List Edge) :
    (dedupFrom seen edges).filter (fun e => wanted e.ends) =
      dedupFrom (seen.filter wanted) (edges.filter fun e => wanted e.ends) := by
  induction edges generalizing seen with
  | nil => rfl
  | cons e edges inductionHypothesis =>
    rw [dedupFrom]
    by_cases isWanted : wanted e.ends = true
    · have known : (seen.filter wanted).contains e.ends = seen.contains e.ends := by
        simp [isWanted]
      rw [List.filter_cons_of_pos (by exact isWanted), dedupFrom, known]
      split
      · exact inductionHypothesis seen
      · rw [List.filter_cons_of_pos (by exact isWanted), inductionHypothesis,
          List.filter_cons_of_pos isWanted]
    · rw [List.filter_cons_of_neg (by exact isWanted)]
      split
      · exact inductionHypothesis seen
      · rw [List.filter_cons_of_neg (by exact isWanted), inductionHypothesis,
          List.filter_cons_of_neg isWanted]

theorem filter_dedupEdges (source : String) (edges : List Edge) :
    (dedupEdges edges).filter (·.source == source) =
      dedupEdges (edges.filter (·.source == source)) :=
  filter_dedupFrom (fun ends => ends.1 == source) [] edges

/-! ## Issues -/

section

variable (tree : FileTree) (root : String) (limit : Nat)

/-- What is said about a listed file that cannot be read. -/
def refusal? (file : String) : Option BuildIssue :=
  match Extraction.ofFile tree limit (wholePath root file) with
  | .error e => some ⟨wholePath root file, e.text⟩
  | .ok _ => none

/-- What is said about the declarations of a loaded file. -/
def issuesOf (f : FileFacts) : List BuildIssue :=
  match Extraction.ofFile tree limit f.path with
  | .error _ => []
  | .ok e => declarationIssues f.path e

/-- The issues with the listed files, when those in `facts` are known before. -/
def issuesFrom (facts : List FileFacts) (files : List String) : List BuildIssue :=
  (loadFilesFrom tree root limit facts files).value.2

theorem issuesFrom_cons (facts : List FileFacts) (file : String) (files : List String) :
    issuesFrom tree root limit facts (file :: files) =
      if facts.any fun f => samePath f.path (wholePath root file) then
        issuesFrom tree root limit facts files
      else
        match Extraction.ofFile tree limit (wholePath root file) with
        | .error e => ⟨wholePath root file, e.text⟩ :: issuesFrom tree root limit facts files
        | .ok e => declarationIssues (wholePath root file) e ++
          issuesFrom tree root limit (facts ++ [.ofExtraction root (wholePath root file) e]) files := by
  unfold issuesFrom
  rw [loadFilesFrom_cons]
  by_cases known : (facts.any fun f => samePath f.path (wholePath root file)) = true
  · simp only [known, if_true]
  · simp only [known, Bool.false_eq_true, if_false]
    generalize Extraction.ofFile tree limit (wholePath root file) = extracted
    cases extracted with
    | error e => rfl
    | ok e => rfl

variable {tree root limit}

theorem refusal?_of_ok {file : String} {e : Extraction}
    (read : Extraction.ofFile tree limit (wholePath root file) = .ok e) :
    refusal? tree root limit file = none := by
  unfold refusal?
  rw [read]

theorem refusal?_of_error {file : String} {e : Failure}
    (failed : Extraction.ofFile tree limit (wholePath root file) = .error e) :
    refusal? tree root limit file = some ⟨wholePath root file, e.text⟩ := by
  unfold refusal?
  rw [failed]

theorem issuesOf_of_ok {path : String} {e : Extraction} (read : Extraction.ofFile tree limit path = .ok e) :
    issuesOf tree limit (.ofExtraction root path e) = declarationIssues path e := by
  have same : (FileFacts.ofExtraction root path e).path = path := rfl
  unfold issuesOf
  rw [same, read]

theorem IsLoaded.refusal?_eq_none {all : List String} {f : FileFacts}
    (loaded : IsLoaded tree root limit all f) {file : String}
    (same : samePath f.path (wholePath root file) = true) : refusal? tree root limit file = none := by
  obtain ⟨other, -, e, read, rfl⟩ := loaded
  have paths : wholePath root other = wholePath root file := Path.normalize_ext (by
    simpa [samePath, FileFacts.ofExtraction, wholePath] using same)
  apply refusal?_of_ok
  rw [← paths, read]

variable (tree root limit)

/-- Every refused file is an issue each time it is listed, and a loaded file has its issues once. -/
theorem issuesFrom_perm (facts : List FileFacts)
    (known : ∀ f ∈ facts, ∃ all, IsLoaded tree root limit all f) (files : List String) :
    (issuesFrom tree root limit facts files ++ facts.flatMap (issuesOf tree limit)).Perm
      (files.filterMap (refusal? tree root limit) ++
        (loadedFrom tree root limit facts files).flatMap (issuesOf tree limit)) := by
  induction files generalizing facts with
  | nil => exact .refl _
  | cons file files inductionHypothesis =>
    rw [issuesFrom_cons, loadedFrom_cons, List.filterMap_cons]
    split
    · rename_i seen
      obtain ⟨f, member, same⟩ := List.any_eq_true.mp seen
      obtain ⟨all, loaded⟩ := known f member
      rw [loaded.refusal?_eq_none same]
      exact inductionHypothesis facts known
    · cases read : Extraction.ofFile tree limit (wholePath root file) with
      | error e =>
        rw [refusal?_of_error read]
        exact .cons _ (inductionHypothesis facts known)
      | ok e =>
        rw [refusal?_of_ok read]
        refine .trans ?_ (inductionHypothesis (facts ++ [.ofExtraction root (wholePath root file) e]) ?_)
        · -- The issues of the new file stand in front here, and last there.
          rw [List.flatMap_append, List.flatMap_singleton, issuesOf_of_ok read]
          dsimp only
          rw [List.append_assoc, ← List.append_assoc (issuesFrom ..)]
          exact List.perm_append_comm
        · intro f member
          rcases List.mem_append.mp member with old | new
          · exact known f old
          · exact ⟨[file], file, List.mem_singleton_self file, e, read, List.mem_singleton.mp new⟩

end

section

variable {tree : FileTree} {root : String} {config : Config} {files others : List String}

theorem isLoaded_perm (perm : files.Perm others) (limit : Nat) (f : FileFacts) :
    IsLoaded tree root limit files f ↔ IsLoaded tree root limit others f := by
  simp only [IsLoaded, perm.mem_iff]

variable (tree root files) in
theorem loadedFacts_nodup (limit : Nat) : (loadedFacts tree root limit files).Nodup := by
  apply (loadedFacts_apart tree root limit files).imp
  rintro f g apart rfl
  simp [samePath] at apart

variable (tree root) in
theorem loadedFacts_perm (perm : files.Perm others) (limit : Nat) :
    (loadedFacts tree root limit files).Perm (loadedFacts tree root limit others) := by
  rw [List.perm_ext_iff_of_nodup (loadedFacts_nodup ..) (loadedFacts_nodup ..)]
  intro f
  rw [mem_loadedFacts_iff, mem_loadedFacts_iff, isLoaded_perm perm]

variable (tree root config) in
theorem build_issues_perm (perm : files.Perm others) (cache : AliasCache) :
    (build tree root config cache files).value.issues.Perm
      (build tree root config cache others).value.issues := by
  have parts : ∀ list, (build tree root config cache list).value.issues.Perm
      (list.filterMap (refusal? tree root config.parsing.maxFileSize) ++
        (builtFacts tree root config list).flatMap (issuesOf tree config.parsing.maxFileSize)) := by
    intro list
    have whole := issuesFrom_perm tree root config.parsing.maxFileSize [] (by simp) list
    rw [List.flatMap_nil, List.append_nil] at whole
    exact whole
  refine (parts files).trans (.trans ?_ (parts others).symm)
  exact (perm.filterMap _).append ((loadedFacts_perm tree root perm _).flatMap_right _)

/-! ## The same view -/

theorem IdsDetermineUnits.perm (perm : files.Perm others)
    (distinct : IdsDetermineUnits (builtFacts tree root config files)) :
    IdsDetermineUnits (builtFacts tree root config others) := by
  have back : ∀ f, f ∈ builtFacts tree root config others → f ∈ builtFacts tree root config files :=
    fun f => (loadedFacts_perm tree root perm config.parsing.maxFileSize).mem_iff.mpr
  intro f fLoaded g gLoaded
  exact distinct f (back f fLoaded) g (back g gLoaded)

theorem nodesOf_perm (perm : files.Perm others)
    (distinct : IdsDetermineUnits (builtFacts tree root config files)) :
    nodesOf (builtFacts tree root config files) = nodesOf (builtFacts tree root config others) := by
  apply eq_of_rising Node.id (nodesOf_ascending _) (nodesOf_ascending _)
  intro n
  rw [mem_nodesOf_builtFacts_iff distinct, mem_nodesOf_builtFacts_iff (distinct.perm perm)]
  simp only [builtFacts, (loadedFacts_perm tree root perm config.parsing.maxFileSize).mem_iff]

/-- No file is loaded twice, so it does not matter which one is found first. -/
theorem factsAt_builtScope_eq_some_iff (cache : AliasCache) (path : String) (f : FileFacts) :
    (builtScope tree root config cache files).factsAt path = some f ↔
      f ∈ builtFacts tree root config files ∧ samePath f.path path = true := by
  constructor
  · intro found
    exact ⟨List.mem_of_find?_eq_some found, by simpa using List.find?_some found⟩
  · rintro ⟨loaded, here⟩
    have present : ((builtScope tree root config cache files).factsAt path).isSome = true :=
      List.find?_isSome.mpr ⟨f, loaded, here⟩
    obtain ⟨g, found⟩ := Option.isSome_iff_exists.mp present
    rw [found, Option.some.injEq]
    refine eq_of_not_apart (fun _ _ => samePath_symm) (loadedFacts_apart ..)
      (List.mem_of_find?_eq_some found) loaded ?_
    have there : samePath g.path path = true := by simpa using List.find?_some found
    simp only [samePath, beq_iff_eq] at here there
    simp [samePath, here, there]

theorem builtScope_sameView (perm : files.Perm others)
    (distinct : IdsDetermineUnits (builtFacts tree root config files)) (cache : AliasCache) :
    (builtScope tree root config cache files).SameView (builtScope tree root config cache others) := by
  have nodes : (builtScope tree root config cache files).nodes =
      (builtScope tree root config cache others).nodes := nodesOf_perm perm distinct
  constructor
  · intro path
    have same : (builtScope tree root config cache files).factsAt path =
        (builtScope tree root config cache others).factsAt path := by
      apply Option.ext
      intro f
      rw [factsAt_builtScope_eq_some_iff, factsAt_builtScope_eq_some_iff, builtFacts, builtFacts,
        (loadedFacts_perm tree root perm config.parsing.maxFileSize).mem_iff]
    rw [same]
    cases (builtScope tree root config cache others).factsAt path with
    | none => exact .none
    | some f => exact .some (.refl f)
  · intro id
    simp only [Scope.hasNode, nodes]
  · intro id
    simp only [Scope.isAsync, nodes]
  · intro kind text
    simp only [Scope.entryPointNamed, nodes]
  · rfl

/-- The frameworks do not see in which order the units were found. -/
theorem knownFilesOf_sameView_of_mem {facts others : List FileFacts}
    (pairs : ∀ pair, (pair ∈ (allUnits facts).map fun u => (u.1, u.2.name)) ↔
      pair ∈ (allUnits others).map fun u => (u.1, u.2.name)) :
    (knownFilesOf facts).SameView (knownFilesOf others) := by
  constructor
  · apply eq_of_rising id (KnownFiles.paths_ofPairs_rise _) (KnownFiles.paths_ofPairs_rise _)
    intro path
    rw [KnownFiles.mem_paths_ofPairs_iff, KnownFiles.mem_paths_ofPairs_iff]
    exact exists_congr fun name => pairs (path, name)
  · intro file name
    rw [knownFilesOf, knownFilesOf, KnownFiles.find_ofPairs_eq, KnownFiles.find_ofPairs_eq]
    exact if_congr (pairs (file, name)) rfl rfl

variable (tree root config) in
theorem knownFilesOf_sameView (perm : files.Perm others) :
    (knownFilesOf (builtFacts tree root config files)).SameView
      (knownFilesOf (builtFacts tree root config others)) := by
  apply knownFilesOf_sameView_of_mem
  intro pair
  simp only [List.mem_map, mem_allUnits_iff, builtFacts,
    (loadedFacts_perm tree root perm config.parsing.maxFileSize).mem_iff]

/-! ## The same edges -/

/-- The edges that start at the units of a file. -/
def edgesFromFile (s : Scope) (known : KnownFiles) (f : FileFacts) : List Edge :=
  f.units.flatMap fun u => s.edgesOf (nodeId f.relative u.1.name) (s.connections known f u.1 u.2)

theorem mem_edgesFromFile {s : Scope} {known : KnownFiles} {f : FileFacts} {e : Edge}
    (member : e ∈ edgesFromFile s known f) : ∃ u ∈ f.units, e.source = nodeId f.relative u.1.name := by
  obtain ⟨u, inFile, made⟩ := List.mem_flatMap.mp member
  exact ⟨u, inFile, source_of_mem_edgesOf made⟩

/-- The edges with one source come from one file. -/
theorem edgesFromFile_alone (distinct : IdsDetermineUnits (builtFacts tree root config files))
    (s : Scope) (known : KnownFiles) (source : String) :
    (builtFacts tree root config files).Pairwise fun f g =>
      (edgesFromFile s known f).filter (·.source == source) = [] ∨
        (edgesFromFile s known g).filter (·.source == source) = [] := by
  refine List.Pairwise.imp_of_mem ?_ (loadedFacts_apart ..)
  intro f g fLoaded gLoaded apart
  by_contra both
  rw [not_or] at both
  obtain ⟨a, aMember⟩ := List.exists_mem_of_ne_nil _ both.1
  obtain ⟨b, bMember⟩ := List.exists_mem_of_ne_nil _ both.2
  obtain ⟨aMade, aSource⟩ := List.mem_filter.mp aMember
  obtain ⟨bMade, bSource⟩ := List.mem_filter.mp bMember
  obtain ⟨u, inF, aFrom⟩ := mem_edgesFromFile aMade
  obtain ⟨v, inG, bFrom⟩ := mem_edgesFromFile bMade
  have sameId : nodeId f.relative u.1.name = nodeId g.relative v.1.name := by
    rw [← aFrom, ← bFrom, beq_iff_eq.mp aSource, beq_iff_eq.mp bSource]
  have samePaths := (distinct f fLoaded g gLoaded u inF v inG sameId).1
  simp [samePath, samePaths] at apart

theorem Scope.SameView.edgesFromFile {s t : Scope} {known other : KnownFiles} (view : s.SameView t)
    (knownView : known.SameView other) : edgesFromFile s known = edgesFromFile t other := by
  funext f
  simp only [CallAtlas.edgesFromFile, view.connections knownView, view.edgesOf]

variable (tree root config files) in
/-- The edges with one source are gathered file by file. -/
theorem build_edges_filter (cache : AliasCache) (source : String) :
    (build tree root config cache files).value.edges.filter (·.source == source) =
      dedupEdges ((builtFacts tree root config files).flatMap fun f =>
        (edgesFromFile (builtScope tree root config cache files)
          (knownFilesOf (builtFacts tree root config files)) f).filter (·.source == source)) := by
  have raw : (rawEdges (builtScope tree root config cache files)
      (knownFilesOf (builtFacts tree root config files))).value =
        (builtFacts tree root config files).flatMap (edgesFromFile
          (builtScope tree root config cache files) (knownFilesOf (builtFacts tree root config files))) :=
    rawEdges_value
  rw [build_edges, filter_dedupEdges, raw, List.filter_flatMap]

theorem build_edges_filter_perm (perm : files.Perm others)
    (distinct : IdsDetermineUnits (builtFacts tree root config files)) (cache : AliasCache)
    (source : String) :
    (build tree root config cache files).value.edges.filter (·.source == source) =
      (build tree root config cache others).value.edges.filter (·.source == source) := by
  have fromFile := (builtScope_sameView perm distinct cache).edgesFromFile
    (knownFilesOf_sameView tree root config perm)
  rw [build_edges_filter, build_edges_filter, ← fromFile]
  congr 1
  exact flatMap_eq_of_perm (loadedFacts_perm tree root perm _) _ (edgesFromFile_alone distinct _ _ source)

/-- Where ids tell units apart, the files may be listed in any order: the nodes are the same, and so are
    the edges of every unit, in their order; all edges and all issues are the same up to their order. -/
theorem build_perm (tree : FileTree) (root : String) (config : Config) (cache : AliasCache)
    {files others : List String} (perm : files.Perm others)
    (distinct : IdsDetermineUnits (builtFacts tree root config files)) :
    let outcome := (build tree root config cache files).value
    let other := (build tree root config cache others).value
    outcome.nodes = other.nodes ∧ outcome.edges.Perm other.edges ∧
    (∀ source, outcome.edges.filter (·.source == source) = other.edges.filter (·.source == source)) ∧
    outcome.issues.Perm other.issues := by
  have edges := build_edges_filter_perm perm distinct cache
  exact ⟨nodesOf_perm perm distinct, perm_of_filter_eq edges, edges,
    build_issues_perm tree root config perm cache⟩

end

/-- A file with a function that calls one of another file. -/
def crossingTree : FileTree :=
  ⟨[(["p"], .directory),
    (["p", "a.ts"], .file "import\x7bg\x7dfrom'./b';function f()\x7bg()\x7d".toUTF8),
    (["p", "b.ts"], .file "function g()\x7b\x7d".toUTF8)]⟩

/-- The two files, and one that is missing. -/
def crossingFiles : List String := ["a.ts", "b.ts", "c.ts"]

theorem build_perm_reversed :
    let outcome := (build crossingTree "/p" Config.standard .empty crossingFiles).value
    let other := (build crossingTree "/p" Config.standard .empty crossingFiles.reverse).value
    (IdsDetermineUnits (builtFacts crossingTree "/p" Config.standard crossingFiles) ∧
      outcome.edges.map (·.id) = ["a.ts:f->b.ts:g"]) ∧
    outcome.nodes = other.nodes ∧ outcome.edges.Perm other.edges ∧
    (∀ source, outcome.edges.filter (·.source == source) = other.edges.filter (·.source == source)) ∧
    outcome.issues.Perm other.issues := by
  intro outcome other
  have distinct : IdsDetermineUnits (builtFacts crossingTree "/p" Config.standard crossingFiles) := by
    decide +kernel
  refine ⟨⟨distinct, by decide +kernel⟩, ?_⟩
  exact build_perm crossingTree "/p" Config.standard .empty (List.reverse_perm crossingFiles).symm distinct

end CallAtlas
