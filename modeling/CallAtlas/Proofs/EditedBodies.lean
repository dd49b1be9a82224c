import CallAtlas.Proofs.FileOrder
import CallAtlas.Proofs.SourceFiles

/-!
# Editing the bodies of one file

Other files learn little about a file: the names of its units, which of them run later, which one it
exports by default, their entry points, and what it passes on.  That is its outline.  Where two trees
differ in one file, and its outline is the same in both, the two builds have the same nodes for all other
files, and every unit of another file has the same edges in the same order (`build_edited`).

Searches in the two graphs see the same (`BodiesEdited.sameView`), since the nodes differ only in what
nobody looks at (`BodiesEdited.map_glimpse_nodes`).
-/

namespace CallAtlas

open CallAtlas.Path CallAtlas.Text

/-- What is learned about a unit from outside of its file. -/
structure UnitOutline where
  name : String
  isAsync : Bool
  defaultExport : Bool
  entryPoint : Option EntryPoint
  deriving DecidableEq

/-- What is learned about a file from outside.  Whether a unit is exported shows only in its entry
    point. -/
structure FileOutline where
  units : List UnitOutline
  reExports : List ReExport
  deriving DecidableEq

/-- The outline of a unit in the file that is recorded as `file`. -/
def CodeUnit.outline (u : CodeUnit) (file : String) : UnitOutline :=
  { name := u.name
    isAsync := u.isAsync
    defaultExport := u.defaultExport
    entryPoint := entryPointOf u file }

/-- The outline of a file. -/
def FileFacts.outline (f : FileFacts) : FileOutline :=
  { units := f.units.map fun u => u.1.outline f.relative
    reExports := f.reExports }

/-- The outline of a listed file, if it can be read. -/
def outlineOf? (tree : FileTree) (root : String) (limit : Nat) (file : String) : Option FileOutline :=
  (Extraction.ofFile tree limit (wholePath root file)).toOption.map fun e =>
    (FileFacts.ofExtraction root (wholePath root file) e).outline

/-- The path leads to the location. -/
def FileTree.leadsTo (tree : FileTree) (place : Location) (path : String) : Bool :=
  (tree.locate path).toOption == some place

/-- The trees are the same but for the bytes of the file at `place`. -/
structure FileTree.EditedAt (place : Location) (before after : FileTree) : Prop where
  forth : KeepsBut place before after
  back : KeepsBut place after before

/-- The trees are the same but for one file, which is no project file, and has the same outline under every
    path under which it is listed. -/
structure BodiesEdited (place : Location) (before after : FileTree) (root : String) (config : Config)
    (files : List String) : Prop where
  edited : FileTree.EditedAt place before after
  noProjectFile : ∀ directory, ∀ name ∈ config.resolution.projectConfigFiles,
    before.leadsTo place (Path.join directory name) = false
  outlined : ∀ file ∈ files, before.leadsTo place (wholePath root file) = true →
    outlineOf? before root config.parsing.maxFileSize file =
      outlineOf? after root config.parsing.maxFileSize file

/-- The ids of the units in the file at `place`. -/
def unitIdsAt (tree : FileTree) (place : Location) (facts : List FileFacts) : List String :=
  (facts.filter fun f => tree.leadsTo place f.path).flatMap fun f =>
    f.units.map fun u => nodeId f.relative u.1.name

/-! ## Trees with one file edited -/

namespace FileTree

theorem leadsTo_iff (tree : FileTree) (place : Location) (path : String) :
    tree.leadsTo place path = true ↔ tree.locate path = .ok place := by
  unfold leadsTo
  cases tree.locate path with
  | error e => simp [Except.toOption]
  | ok l => simp [Except.toOption]

/-- A path that ends with a name leads only to what has that name. -/
theorem leadsTo_join_eq_false (tree : FileTree) {place : Location} {name : String} (piece : IsPiece name)
    (notParent : name ≠ "..") (different : place.getLast? ≠ some name) (directory : String) :
    tree.leadsTo place (Path.join directory name) = false := by
  have slashFree : ∀ c ∈ name.toList, decide (c = '/') = false := by
    intro c member
    rw [decide_eq_false_iff_not]
    rintro rfl
    exact piece.noSlash member
  have lastPiece : ∃ front, pieces (Path.join directory name) = front ++ [name] := by
    unfold pieces splitAt
    by_cases empty : directory = ""
    · subst empty
      refine ⟨[], ?_⟩
      have alone : Path.join "" name = name := by simp [Path.join]
      rw [alone, splitFrom_of_free slashFree]
      simp
    · have relative : isAbsolute ("/".intercalate [name]) = false :=
        isAbsolute_intercalate (by simpa using piece)
      rw [String.intercalate_singleton] at relative
      obtain ⟨front, -, -, -, whole⟩ := exists_front_join empty relative
      refine ⟨(splitFrom (· = '/') [] front).map String.ofList, ?_⟩
      rw [whole, splitFrom_append (by simp), splitFrom_of_free slashFree, List.map_append]
      simp
  rw [Bool.eq_false_iff]
  intro leads
  rw [leadsTo_iff, locate] at leads
  obtain ⟨front, whole⟩ := lastPiece
  -- Wherever the pieces in front lead, the last step goes to something by that name.
  split at leads
  · cases leads
  · rw [whole, List.foldlM_append] at leads
    cases followed : front.foldlM tree.follow [] with
    | error e =>
      rw [followed] at leads
      cases leads
    | ok l =>
      rw [followed] at leads
      change [name].foldlM tree.follow l = .ok place at leads
      have last : tree.follow l name = .ok place := by simpa using leads
      unfold follow at last
      split at last
      · cases last
      · cases last
      · cases last
      · rw [if_neg (by simp [piece.nonempty, piece.notPoint]), if_neg notParent] at last
        split at last
        · cases last
          exact different (by simp)
        · cases last

namespace EditedAt

variable {place : Location} {before after : FileTree}

theorem symm (edited : EditedAt place before after) : EditedAt place after before :=
  ⟨edited.back, edited.forth⟩

theorem leadsTo_eq (edited : EditedAt place before after) (l : Location) (path : String) :
    before.leadsTo l path = after.leadsTo l path := by
  rw [Bool.eq_iff_iff, leadsTo_iff, leadsTo_iff]
  exact ⟨edited.forth.locate, edited.back.locate⟩

theorem isFile_eq (edited : EditedAt place before after) : before.isFile = after.isFile := by
  have onward : ∀ {tree other : FileTree} {path : String}, KeepsBut place tree other →
      tree.isFile path = true → other.isFile path = true := by
    intro tree other path keeps file
    rw [isFile_eq_true_iff] at file ⊢
    obtain ⟨e, found, noDirectory⟩ := file
    obtain ⟨l, leads, present⟩ := (entry?_eq_ok_iff ..).mp found
    rcases keeps l _ present with kept | ⟨-, -, new, replaced⟩
    · exact ⟨e, (entry?_eq_ok_iff ..).mpr ⟨l, keeps.locate leads, kept⟩, noDirectory⟩
    · exact ⟨.file new, (entry?_eq_ok_iff ..).mpr ⟨l, keeps.locate leads, replaced⟩, by simp⟩
  funext path
  rw [Bool.eq_iff_iff]
  exact ⟨onward edited.forth, onward edited.back⟩

theorem readText_of_ok (edited : EditedAt place before after) {path text : String}
    (other : before.leadsTo place path = false) (read : before.readText path = .ok text) :
    after.readText path = .ok text := by
  refine edited.forth.readText read fun leads => ?_
  rw [← leadsTo_iff, ← edited.leadsTo_eq, other] at leads
  cases leads

theorem ofFile_of_ok (edited : EditedAt place before after) {path : String} {limit : Nat}
    {e : Extraction} (other : before.leadsTo place path = false)
    (read : Extraction.ofFile before limit path = .ok e) :
    Extraction.ofFile after limit path = .ok e := by
  obtain ⟨source, parsed, rfl⟩ := extraction_ofFile_eq_ok read
  obtain ⟨text, textRead⟩ := parsedSource_ofFile_text parsed
  have same : after.readText path = before.readText path := by
    rw [textRead, edited.readText_of_ok other textRead]
  rw [Extraction.ofFile, parsedSource_ofFile_congr same, parsed]

/-- The aliases of a project file, if that is another one than the edited file. -/
theorem load_fst_eq (edited : EditedAt place before after) {path : String}
    (other : before.leadsTo place path = false) :
    (PathAliases.load before path).1 = (PathAliases.load after path).1 := by
  have otherAfter : after.leadsTo place path = false := by rw [← edited.leadsTo_eq, other]
  unfold PathAliases.load
  cases read : before.readText path with
  | ok text => rw [edited.readText_of_ok other read]
  | error e =>
    cases readAfter : after.readText path with
    | error e' => rfl
    | ok text =>
      have readBefore := edited.symm.readText_of_ok otherAfter readAfter
      rw [read] at readBefore
      cases readBefore

theorem aliasesAlong_eq (edited : EditedAt place before after) {names : List String}
    (noProjectFile : ∀ directory, ∀ name ∈ names, before.leadsTo place (Path.join directory name) = false)
    (cache : AliasCache) (directories : List String) :
    aliasesAlong before names cache directories = aliasesAlong after names cache directories := by
  induction directories with
  | nil => rfl
  | cons directory directories inductionHypothesis =>
    have sameFile : PathAliases.fileIn? before names directory =
        PathAliases.fileIn? after names directory := by
      rw [PathAliases.fileIn?, PathAliases.fileIn?, edited.isFile_eq]
    rw [aliasesAlong, aliasesAlong, ← sameFile, inductionHypothesis]
    cases cache.get? directory with
    | some found => rfl
    | none =>
      cases inside : PathAliases.fileIn? before names directory with
      | none => rfl
      | some file =>
        obtain ⟨name, named, rfl⟩ := List.mem_map.mp (List.mem_of_find?_eq_some inside)
        exact edited.load_fst_eq (noProjectFile directory name named)

theorem resolve_eq (edited : EditedAt place before after) {config : ResolutionConfig}
    (noProjectFile : ∀ directory, ∀ name ∈ config.projectConfigFiles,
      before.leadsTo place (Path.join directory name) = false)
    (cache : AliasCache) :
    Specifier.resolve before config cache = Specifier.resolve after config cache := by
  funext fromFile specifier
  have sameBases : Specifier.bases before config.projectConfigFiles cache fromFile specifier =
      Specifier.bases after config.projectConfigFiles cache fromFile specifier := by
    simp only [Specifier.bases, aliasesFor, edited.aliasesAlong_eq noProjectFile]
  rw [Specifier.resolve, Specifier.resolve, sameBases, edited.isFile_eq]

end EditedAt

end FileTree

/-! ## Facts with the same outline -/

/-- Two files at the same place have the same outline. -/
structure FileFacts.SameOutline (f g : FileFacts) : Prop where
  path : f.path = g.path
  relative : f.relative = g.relative
  outline : f.outline = g.outline

namespace FileFacts.SameOutline

variable {f g : FileFacts}

theorem sameExports (same : f.SameOutline g) : f.SameExports g := by
  have units : f.outline.units = g.outline.units := by rw [same.outline]
  have byDefault : ∀ h : FileFacts, (h.units.find? (·.1.defaultExport)).map (·.1.name) =
      (h.outline.units.find? (·.defaultExport)).map (·.name) := by
    intro h
    rw [FileFacts.outline, List.find?_map, Option.map_map]
    rfl
  refine ⟨same.path, same.relative, congrArg FileOutline.reExports same.outline, ?_⟩
  rw [byDefault f, byDefault g, units]

theorem exists_unit (same : f.SameOutline g) {u : CodeUnit × List CallSite} (inFile : u ∈ f.units) :
    ∃ v ∈ g.units, v.1.outline g.relative = u.1.outline f.relative := by
  have listed : u.1.outline f.relative ∈ g.outline.units := by
    rw [← same.outline]
    exact List.mem_map_of_mem inFile
  exact List.mem_map.mp listed

end FileFacts.SameOutline

/-! ## The two builds -/

/-- Members that give nothing can be left out. -/
theorem flatMap_filter_of_empty {α β : Type} {xs : List α} {keep : α → Bool} {block : α → List β}
    (empty : ∀ a ∈ xs, (!keep a) = true → block a = []) :
    (xs.filter keep).flatMap block = xs.flatMap block := by
  induction xs with
  | nil => rfl
  | cons a xs inductionHypothesis =>
    have later := inductionHypothesis fun b member => empty b (List.mem_cons_of_mem a member)
    by_cases kept : keep a = true
    · rw [List.filter_cons_of_pos kept, List.flatMap_cons, List.flatMap_cons, later]
    · rw [List.filter_cons_of_neg kept, List.flatMap_cons, later,
        empty a List.mem_cons_self (by simpa using kept), List.nil_append]

/-- What searches look at in a node. -/
def Node.glimpse (n : Node) : String × Bool × Option EntryPoint := (n.id, n.isAsync, n.entryPoint)

theorem mem_unitIdsAt_iff (tree : FileTree) (place : Location) (facts : List FileFacts) (id : String) :
    id ∈ unitIdsAt tree place facts ↔
      ∃ f ∈ facts, tree.leadsTo place f.path = true ∧ ∃ u ∈ f.units, nodeId f.relative u.1.name = id := by
  simp only [unitIdsAt, List.mem_flatMap, List.mem_filter, List.mem_map, and_assoc]

namespace BodiesEdited

variable {place : Location} {before after : FileTree} {root : String} {config : Config}
  {files : List String}

theorem symm (edit : BodiesEdited place before after root config files) :
    BodiesEdited place after before root config files := by
  refine ⟨edit.edited.symm, ?_, ?_⟩
  · intro directory name named
    rw [← edit.edited.leadsTo_eq]
    exact edit.noProjectFile directory name named
  · intro file listed leads
    rw [← edit.edited.leadsTo_eq] at leads
    exact (edit.outlined file listed leads).symm

/-- Other files stay as they are. -/
theorem mem_builtFacts (edit : BodiesEdited place before after root config files) {f : FileFacts}
    (other : before.leadsTo place f.path = false) (loaded : f ∈ builtFacts before root config files) :
    f ∈ builtFacts after root config files := by
  obtain ⟨file, listed, e, read, rfl⟩ := (mem_loadedFacts_iff ..).mp loaded
  exact (mem_loadedFacts_iff ..).mpr ⟨file, listed, e, edit.edited.ofFile_of_ok other read, rfl⟩

theorem exists_sameOutline (edit : BodiesEdited place before after root config files) {f : FileFacts}
    (loaded : f ∈ builtFacts before root config files) :
    ∃ g ∈ builtFacts after root config files, f.SameOutline g := by
  cases here : before.leadsTo place f.path with
  | false => exact ⟨f, edit.mem_builtFacts here loaded, rfl, rfl, rfl⟩
  | true =>
    obtain ⟨file, listed, e, read, rfl⟩ := (mem_loadedFacts_iff ..).mp loaded
    have same := edit.outlined file listed here
    rw [outlineOf?, read, Except.toOption, Option.map_some] at same
    obtain ⟨e', readAfter, sameOutline⟩ := Option.map_eq_some_iff.mp same.symm
    cases extracted : Extraction.ofFile after config.parsing.maxFileSize (wholePath root file) with
    | error failure =>
      rw [extracted] at readAfter
      cases readAfter
    | ok found =>
      rw [extracted] at readAfter
      cases readAfter
      exact ⟨_, (mem_loadedFacts_iff ..).mpr ⟨file, listed, e', extracted, rfl⟩, rfl, rfl,
        sameOutline.symm⟩

/-- Every unit of one build has its like in the other. -/
theorem exists_unit (edit : BodiesEdited place before after root config files) {f : FileFacts}
    (loaded : f ∈ builtFacts before root config files) {u : CodeUnit × List CallSite}
    (inFile : u ∈ f.units) :
    ∃ g ∈ builtFacts after root config files, f.SameOutline g ∧
      ∃ v ∈ g.units, v.1.outline g.relative = u.1.outline f.relative := by
  obtain ⟨g, gLoaded, same⟩ := edit.exists_sameOutline loaded
  exact ⟨g, gLoaded, same, same.exists_unit inFile⟩

theorem idsDetermineUnits (edit : BodiesEdited place before after root config files)
    (distinct : IdsDetermineUnits (builtFacts before root config files)) :
    IdsDetermineUnits (builtFacts after root config files) := by
  intro f fLoaded g gLoaded u inF v inG sameId
  -- Both units have their likes in the first build, under the same ids.
  obtain ⟨f', fLoaded', sameF, u', inF', sameU⟩ := edit.symm.exists_unit fLoaded inF
  obtain ⟨g', gLoaded', sameG, v', inG', sameV⟩ := edit.symm.exists_unit gLoaded inG
  have uName : u'.1.name = u.1.name := congrArg UnitOutline.name sameU
  have vName : v'.1.name = v.1.name := congrArg UnitOutline.name sameV
  have together := distinct f' fLoaded' g' gLoaded' u' inF' v' inG'
    (by rw [← sameF.relative, ← sameG.relative, uName, vName, sameId])
  rwa [← sameF.path, ← sameG.path, uName, vName] at together

theorem unitIdsAt_subset (edit : BodiesEdited place before after root config files) {id : String}
    (member : id ∈ unitIdsAt before place (builtFacts before root config files)) :
    id ∈ unitIdsAt after place (builtFacts after root config files) := by
  obtain ⟨f, loaded, here, u, inFile, rfl⟩ := (mem_unitIdsAt_iff ..).mp member
  obtain ⟨g, gLoaded, same, v, inG, sameUnit⟩ := edit.exists_unit loaded inFile
  refine (mem_unitIdsAt_iff ..).mpr ⟨g, gLoaded, ?_, v, inG, ?_⟩
  · rw [← edit.edited.leadsTo_eq, ← same.path, here]
  · rw [← same.relative, show v.1.name = u.1.name from congrArg UnitOutline.name sameUnit]

theorem mem_map_glimpse_nodes (edit : BodiesEdited place before after root config files)
    (distinct : IdsDetermineUnits (builtFacts before root config files))
    {seen : String × Bool × Option EntryPoint}
    (member : seen ∈ (nodesOf (builtFacts before root config files)).map Node.glimpse) :
    seen ∈ (nodesOf (builtFacts after root config files)).map Node.glimpse := by
  obtain ⟨n, inNodes, rfl⟩ := List.mem_map.mp member
  obtain ⟨f, loaded, u, inFile, rfl⟩ := exists_unit_of_mem_nodesOf inNodes
  obtain ⟨g, gLoaded, same, v, inG, sameUnit⟩ := edit.exists_unit loaded inFile
  refine List.mem_map.mpr ⟨nodeOf g.relative v.1, ?_, ?_⟩
  · exact (mem_nodesOf_builtFacts_iff (edit.idsDetermineUnits distinct) _).mpr
      ⟨g, gLoaded, v, inG, rfl⟩
  · have name : v.1.name = u.1.name := congrArg UnitOutline.name sameUnit
    have isAsync : v.1.isAsync = u.1.isAsync := congrArg UnitOutline.isAsync sameUnit
    have entryPoint : entryPointOf v.1 g.relative = entryPointOf u.1 f.relative :=
      congrArg UnitOutline.entryPoint sameUnit
    simp only [Node.glimpse, nodeOf, name, isAsync, entryPoint, same.relative]

/-- The nodes of the two builds differ only in what no search looks at. -/
theorem map_glimpse_nodes (edit : BodiesEdited place before after root config files)
    (distinct : IdsDetermineUnits (builtFacts before root config files)) :
    (nodesOf (builtFacts before root config files)).map Node.glimpse =
      (nodesOf (builtFacts after root config files)).map Node.glimpse := by
  have rise : ∀ facts : List FileFacts,
      ((nodesOf facts).map Node.glimpse).Pairwise fun a b => a.1 < b.1 := by
    intro facts
    exact List.pairwise_map.mpr (nodesOf_ascending facts)
  -- Both lists rise by id, so it is enough that they have the same members.
  refine eq_of_rising (·.1) (rise (builtFacts before root config files))
    (rise (builtFacts after root config files)) fun seen => ?_
  exact ⟨edit.mem_map_glimpse_nodes distinct,
    edit.symm.mem_map_glimpse_nodes (edit.idsDetermineUnits distinct)⟩

theorem factsAt_rel (edit : BodiesEdited place before after root config files) (cache : AliasCache)
    (path : String) :
    Option.Rel FileFacts.SameExports ((builtScope before root config cache files).factsAt path)
      ((builtScope after root config cache files).factsAt path) := by
  cases found : (builtScope before root config cache files).factsAt path with
  | some f =>
    obtain ⟨loaded, here⟩ := (factsAt_builtScope_eq_some_iff cache path f).mp found
    obtain ⟨g, gLoaded, same⟩ := edit.exists_sameOutline loaded
    have foundAfter : (builtScope after root config cache files).factsAt path = some g :=
      (factsAt_builtScope_eq_some_iff cache path g).mpr ⟨gLoaded, same.path ▸ here⟩
    rw [foundAfter]
    exact .some same.sameExports
  | none =>
    cases foundAfter : (builtScope after root config cache files).factsAt path with
    | none => exact .none
    | some g =>
      obtain ⟨loaded, here⟩ := (factsAt_builtScope_eq_some_iff cache path g).mp foundAfter
      obtain ⟨f, fLoaded, same⟩ := edit.symm.exists_sameOutline loaded
      have foundBefore : (builtScope before root config cache files).factsAt path = some f :=
        (factsAt_builtScope_eq_some_iff cache path f).mpr ⟨fLoaded, same.path ▸ here⟩
      rw [found] at foundBefore
      cases foundBefore

theorem sameView (edit : BodiesEdited place before after root config files)
    (distinct : IdsDetermineUnits (builtFacts before root config files)) (cache : AliasCache) :
    (builtScope before root config cache files).SameView
      (builtScope after root config cache files) := by
  have glimpses : (builtScope before root config cache files).nodes.map Node.glimpse =
      (builtScope after root config cache files).nodes.map Node.glimpse := edit.map_glimpse_nodes distinct
  -- Every search among the nodes can be done on what it looks at.
  have hasNode : ∀ (s : Scope) (id : String),
      s.hasNode id = (s.nodes.map Node.glimpse).any (·.1 == id) := by
    intro s id
    rw [List.any_map]
    rfl
  have isAsync : ∀ (s : Scope) (id : String), s.isAsync id =
      (((s.nodes.map Node.glimpse).find? (·.1 == id)).map (·.2.1)).getD false := by
    intro s id
    rw [List.find?_map, Option.map_map]
    rfl
  have entryPointNamed : ∀ (s : Scope) (kind : EdgeKind) (text : String), s.entryPointNamed kind text =
      ((s.nodes.map Node.glimpse).find? fun seen =>
        (seen.2.2.map (·.accepts kind text)).getD false).map (·.1) := by
    intro s kind text
    rw [List.find?_map, Option.map_map]
    rfl
  constructor
  · exact edit.factsAt_rel cache
  · intro id
    rw [hasNode, hasNode, glimpses]
  · intro id
    rw [isAsync, isAsync, glimpses]
  · intro kind text
    rw [entryPointNamed, entryPointNamed, glimpses]
  · exact edit.edited.resolve_eq edit.noProjectFile cache

theorem knownFiles_sameView (edit : BodiesEdited place before after root config files) :
    (knownFilesOf (builtFacts before root config files)).SameView
      (knownFilesOf (builtFacts after root config files)) := by
  have onward : ∀ {tree other : FileTree}, BodiesEdited place tree other root config files →
      ∀ pair, (pair ∈ (allUnits (builtFacts tree root config files)).map fun u => (u.1, u.2.name)) →
        pair ∈ (allUnits (builtFacts other root config files)).map fun u => (u.1, u.2.name) := by
    intro tree other change pair member
    obtain ⟨unit, inUnits, rfl⟩ := List.mem_map.mp member
    obtain ⟨f, loaded, u, inFile, rfl⟩ := (mem_allUnits_iff _ unit).mp inUnits
    obtain ⟨g, gLoaded, same, v, inG, sameUnit⟩ := change.exists_unit loaded inFile
    refine List.mem_map.mpr ⟨(g.relative, v.1), (mem_allUnits_iff ..).mpr ⟨g, gLoaded, v, inG, rfl⟩, ?_⟩
    rw [same.relative, show v.1.name = u.1.name from congrArg UnitOutline.name sameUnit]
  exact knownFilesOf_sameView_of_mem fun pair => ⟨onward edit pair, onward edit.symm pair⟩

/-! ## Nodes and edges of the other files -/

theorem mem_filter_nodes (edit : BodiesEdited place before after root config files)
    (distinct : IdsDetermineUnits (builtFacts before root config files)) {n : Node}
    (member : n ∈ nodesOf (builtFacts before root config files))
    (outside : n.id ∉ unitIdsAt before place (builtFacts before root config files)) :
    n ∈ nodesOf (builtFacts after root config files) := by
  obtain ⟨f, loaded, u, inFile, rfl⟩ := exists_unit_of_mem_nodesOf member
  have other : before.leadsTo place f.path = false := by
    rw [Bool.eq_false_iff]
    intro here
    exact outside ((mem_unitIdsAt_iff ..).mpr ⟨f, loaded, here, u, inFile, rfl⟩)
  exact (mem_nodesOf_builtFacts_iff (edit.idsDetermineUnits distinct) _).mpr
    ⟨f, edit.mem_builtFacts other loaded, u, inFile, rfl⟩

theorem filter_nodes_eq (edit : BodiesEdited place before after root config files)
    (distinct : IdsDetermineUnits (builtFacts before root config files)) :
    (nodesOf (builtFacts before root config files)).filter
        (fun n => n.id ∉ unitIdsAt before place (builtFacts before root config files)) =
      (nodesOf (builtFacts after root config files)).filter
        (fun n => n.id ∉ unitIdsAt before place (builtFacts before root config files)) := by
  refine eq_of_rising Node.id ((nodesOf_ascending (builtFacts before root config files)).filter _)
    ((nodesOf_ascending (builtFacts after root config files)).filter _) fun n => ?_
  simp only [List.mem_filter, decide_eq_true_eq]
  constructor
  · rintro ⟨member, outside⟩
    exact ⟨edit.mem_filter_nodes distinct member outside, outside⟩
  · rintro ⟨member, outside⟩
    refine ⟨edit.symm.mem_filter_nodes (edit.idsDetermineUnits distinct) member ?_, outside⟩
    exact fun inside => outside (edit.symm.unitIdsAt_subset inside)

/-- The other files are loaded in both builds. -/
theorem perm_otherFiles (edit : BodiesEdited place before after root config files) :
    ((builtFacts before root config files).filter fun f => !before.leadsTo place f.path).Perm
      ((builtFacts after root config files).filter fun f => !after.leadsTo place f.path) := by
  have nodup : ∀ tree, (builtFacts tree root config files).Nodup :=
    fun tree => loadedFacts_nodup tree root files config.parsing.maxFileSize
  rw [List.perm_ext_iff_of_nodup ((nodup before).filter _) ((nodup after).filter _)]
  intro f
  simp only [List.mem_filter, Bool.not_eq_true', ← edit.edited.leadsTo_eq]
  constructor
  · rintro ⟨loaded, other⟩
    exact ⟨edit.mem_builtFacts other loaded, other⟩
  · rintro ⟨loaded, other⟩
    refine ⟨edit.symm.mem_builtFacts ?_ loaded, other⟩
    rw [← edit.edited.leadsTo_eq, other]

theorem filter_edges_eq (edit : BodiesEdited place before after root config files)
    (distinct : IdsDetermineUnits (builtFacts before root config files)) (cache : AliasCache)
    {source : String} (outside : source ∉ unitIdsAt before place (builtFacts before root config files)) :
    (build before root config cache files).value.edges.filter (·.source == source) =
      (build after root config cache files).value.edges.filter (·.source == source) := by
  have fromFile := (edit.sameView distinct cache).edgesFromFile edit.knownFiles_sameView
  rw [build_edges_filter, build_edges_filter, ← fromFile]
  congr 1
  generalize builtScope before root config cache files = s,
    knownFilesOf (builtFacts before root config files) = known
  -- The edited file gives no edge with this source, so it can be left out on both sides.
  have leaveOut : ∀ tree, source ∉ unitIdsAt tree place (builtFacts tree root config files) →
      ((builtFacts tree root config files).filter fun f => !tree.leadsTo place f.path).flatMap
          (fun f => (edgesFromFile s known f).filter (·.source == source)) =
        (builtFacts tree root config files).flatMap
          fun f => (edgesFromFile s known f).filter (·.source == source) := by
    intro tree notThere
    refine flatMap_filter_of_empty fun f loaded here => ?_
    rw [List.filter_eq_nil_iff]
    intro e made isSource
    obtain ⟨u, inFile, sameId⟩ := mem_edgesFromFile made
    rw [beq_iff_eq] at isSource
    exact notThere ((mem_unitIdsAt_iff ..).mpr
      ⟨f, loaded, by simpa using here, u, inFile, by rw [← sameId, isSource]⟩)
  rw [← leaveOut before outside, ← leaveOut after fun inside => outside (edit.symm.unitIdsAt_subset inside)]
  exact flatMap_eq_of_perm edit.perm_otherFiles _
    ((edgesFromFile_alone distinct s known source).filter _)

theorem not_mem_unitIdsAt (distinct : IdsDetermineUnits (builtFacts before root config files))
    {f : FileFacts} (loaded : f ∈ builtFacts before root config files)
    (other : before.leadsTo place f.path = false) {u : CodeUnit × List CallSite} (inFile : u ∈ f.units) :
    nodeId f.relative u.1.name ∉ unitIdsAt before place (builtFacts before root config files) := by
  intro inside
  obtain ⟨g, gLoaded, here, v, inG, sameId⟩ := (mem_unitIdsAt_iff ..).mp inside
  obtain ⟨samePaths, -⟩ := distinct g gLoaded f loaded v inG u inFile sameId
  rw [samePaths, other] at here
  cases here

end BodiesEdited

/-- Where ids tell units apart, editing the bodies of one file changes nothing for the others: the nodes of
    their units are the same, and every one of their units has the same edges in the same order. -/
theorem build_edited {place : Location} {before after : FileTree} {root : String} {config : Config}
    {files : List String} (cache : AliasCache)
    (edit : BodiesEdited place before after root config files)
    (distinct : IdsDetermineUnits (builtFacts before root config files)) :
    let outcome := (build before root config cache files).value
    let other := (build after root config cache files).value
    let ids := unitIdsAt before place (builtFacts before root config files)
    (∀ f ∈ builtFacts before root config files, before.leadsTo place f.path = false →
      ∀ u ∈ f.units, nodeId f.relative u.1.name ∉ ids) ∧
    outcome.nodes.filter (fun n => n.id ∉ ids) = other.nodes.filter (fun n => n.id ∉ ids) ∧
    ∀ source, source ∉ ids →
      outcome.edges.filter (·.source == source) = other.edges.filter (·.source == source) := by
  intro outcome other ids
  refine ⟨?_, ?_, ?_⟩
  · intro f loaded notThere u inFile
    exact BodiesEdited.not_mem_unitIdsAt distinct loaded notThere inFile
  · exact edit.filter_nodes_eq distinct
  · intro source outside
    exact edit.filter_edges_eq distinct cache outside

/-- The crossing files, where the function that is called from the other file does more. -/
def busyTree : FileTree :=
  crossingTree.insert ["p", "b.ts"] (.file "function g()\x7breturn h()\x7d".toUTF8)

theorem bodiesEdited_busyTree :
    BodiesEdited ["p", "b.ts"] crossingTree busyTree "/p" Config.standard crossingFiles := by
  have file : crossingTree.entryAt ["p", "b.ts"] = some (.file "function g()\x7b\x7d".toUTF8) := rfl
  have writable : ∀ e, crossingTree.entryAt ["p", "b.ts"] = some e → ∃ old, e = .file old :=
    fun e present => ⟨_, (Option.some.inj (file.symm.trans present)).symm⟩
  refine ⟨⟨FileTree.keepsBut_insert (by decide) _ writable, ?_⟩, ?_, by decide +kernel⟩
  · intro l e present
    by_cases here : l = ["p", "b.ts"]
    · subst here
      cases present
      exact .inr ⟨rfl, ⟨_, rfl⟩, _, file⟩
    · rw [busyTree, FileTree.entryAt_insert _ (by decide), if_neg here] at present
      exact .inl present
  · intro directory name named
    simp only [Config.standard, ResolutionConfig.standard, List.mem_cons, List.not_mem_nil,
      or_false] at named
    rcases named with rfl | rfl <;>
      exact FileTree.leadsTo_join_eq_false _ ⟨by decide, by decide, by decide⟩ (by decide) (by decide)
        directory

/-- The caller keeps its node and its edge to the function that is edited. -/
theorem build_edited_busy :
    let outcome := (build crossingTree "/p" Config.standard .empty crossingFiles).value
    let other := (build busyTree "/p" Config.standard .empty crossingFiles).value
    let ids := unitIdsAt crossingTree ["p", "b.ts"] (builtFacts crossingTree "/p" Config.standard
      crossingFiles)
    (IdsDetermineUnits (builtFacts crossingTree "/p" Config.standard crossingFiles) ∧
      ids = ["b.ts:g"] ∧
      (outcome.edges.filter (·.source == "a.ts:f")).map (·.target) = ["b.ts:g"]) ∧
    (∀ f ∈ builtFacts crossingTree "/p" Config.standard crossingFiles,
      crossingTree.leadsTo ["p", "b.ts"] f.path = false →
        ∀ u ∈ f.units, nodeId f.relative u.1.name ∉ ids) ∧
    outcome.nodes.filter (fun n => n.id ∉ ids) = other.nodes.filter (fun n => n.id ∉ ids) ∧
    ∀ source, source ∉ ids →
      outcome.edges.filter (·.source == source) = other.edges.filter (·.source == source) := by
  intro outcome other ids
  have facts : IdsDetermineUnits (builtFacts crossingTree "/p" Config.standard crossingFiles) ∧
      ids = ["b.ts:g"] ∧
      (outcome.edges.filter (·.source == "a.ts:f")).map (·.target) = ["b.ts:g"] := by
    decide +kernel
  exact ⟨facts, build_edited .empty bodiesEdited_busyTree facts.1⟩

end CallAtlas
