import CallAtlas.Proofs.AliasMappings
import CallAtlas.Proofs.Loading
import CallAtlas.Proofs.SourceFiles
import CallAtlas.Proofs.TriedPaths

/-!
# The file that the name of a module means

A name is joined to a directory, or to several of them if it goes by an alias (`Joins`).  For each joined path in
turn its normal form is tried, then that with other endings, then that with something behind it (`Tried`), and the
first of them that is a file is what the name means (`resolve_exact`).  With the standard settings nothing is left
to resolve in the path that is found.  So if the same file was loaded under any spelling, it is found among the
loaded ones.
-/

namespace CallAtlas.Specifier

open CallAtlas.Path

/-- The project file that counts for a directory can be read, and these are its settings. -/
structure InForce (tree : FileTree) (names : List String) (directory file : String) (settings : Json) : Prop where
  nearest : nearestFile? tree names directory = some file
  read : ∃ content, tree.readText file = .ok content ∧
    Json.parse? (Json.Commented.strip content) = some settings

/-- The paths that a name in a file is joined to: a single one, or one for each target of an alias. -/
inductive Joins (tree : FileTree) (names : List String) (fromFile specifier : String) : List String → Prop where
  | relative : isRelative specifier = true →
      Joins tree names fromFile specifier [join (directoryOf fromFile) specifier]
  | aliased {file start rest : String} {settings : Json} {targets : List String} :
      isRelative specifier = false → InForce tree names (directoryOf fromFile) file settings →
      LongestStart settings specifier start rest targets →
      Joins tree names fromFile specifier
        (targets.map fun target => join (settings.targetsFrom (directoryOf file)) (target ++ rest))
  | unmatched : isRelative specifier = false →
      (∀ file settings, InForce tree names (directoryOf fromFile) file settings →
        Unmatched settings specifier) →
      Joins tree names fromFile specifier []

/-- All paths that are tried for joined paths, in their order. -/
inductive Tried (suffixes : List String) : List String → List String → Prop where
  | nil : Tried suffixes [] []
  | cons {joined : String} {joins sources later : List String} : Swaps (normalize joined) sources →
      Tried suffixes joins later →
      Tried suffixes (joined :: joins)
        (normalize joined :: sources ++ suffixes.map (normalize joined ++ ·) ++ later)

/-- Of the paths that are tried, this is the first that leads to a file. -/
def IsFirstFile (tree : FileTree) (tried : List String) (path : String) : Prop :=
  ∃ before after, tried = before ++ path :: after ∧ tree.isFile path = true ∧
    ∀ other ∈ before, tree.isFile other = false

/-! ## Where names are joined to -/

theorem load_eq_some_iff (tree : FileTree) (file : String) (aliases : PathAliases) :
    (PathAliases.load tree file).1 = some aliases ↔
      ∃ content settings, tree.readText file = .ok content ∧
        Json.parse? (Json.Commented.strip content) = some settings ∧
        PathAliases.ofSettings? (directoryOf file) settings = some aliases := by
  unfold PathAliases.load directoryOf
  cases tree.readText file with
  | error e => simp
  | ok content =>
    cases parsed : Json.parse? (Json.Commented.strip content) with
    | none => simp [parsed]
    | some settings =>
      cases read : PathAliases.ofSettings? ((parent? file).getD ".") settings with
      | none => simp [parsed, read]
      | some found => simp [parsed, read]

section

variable {tree : FileTree} {names : List String} {fromFile specifier : String} {joins : List String}

theorem nearestAliases_eq_some_iff (directory : String) (aliases : PathAliases) :
    nearestAliases tree names directory = some aliases ↔
      ∃ file settings, InForce tree names directory file settings ∧
        PathAliases.ofSettings? (directoryOf file) settings = some aliases := by
  simp only [nearestAliases, Option.bind_eq_some_iff, load_eq_some_iff]
  constructor
  · rintro ⟨file, nearest, content, settings, content', parsed, read⟩
    exact ⟨file, settings, ⟨nearest, content, content', parsed⟩, read⟩
  · rintro ⟨file, settings, ⟨nearest, content, content', parsed⟩, read⟩
    exact ⟨file, nearest, content, settings, content', parsed, read⟩

/-- The bases of a name are the normal forms of the paths that it is joined to. -/
theorem Joins.bases_eq {cache : AliasCache} (faithful : cache.Faithful tree names)
    (joined : Joins tree names fromFile specifier joins) :
    bases tree names cache fromFile specifier = joins.map normalize := by
  unfold bases
  rw [faithful]
  cases joined with
  | relative isRelative => simp [isRelative]
  | @aliased file start rest settings targets notRelative inForce longest =>
    rw [if_neg (by simp [notRelative])]
    cases read : PathAliases.ofSettings? (directoryOf file) settings with
    | none => exact absurd longest.declared (not_maps_of_ofSettings?_eq_none read _ _)
    | some aliases =>
      rw [(nearestAliases_eq_some_iff _ aliases).mpr ⟨file, settings, inForce, read⟩]
      simp [candidates_of_longestStart read longest]
  | unmatched notRelative unmatched =>
    rw [if_neg (by simp [notRelative])]
    cases found : nearestAliases tree names (directoryOf fromFile) with
    | none => rfl
    | some aliases =>
      obtain ⟨file, settings, inForce, read⟩ := (nearestAliases_eq_some_iff _ aliases).mp found
      exact candidates_of_unmatched read (unmatched file settings inForce)

theorem exists_joins (tree : FileTree) (names : List String) (fromFile specifier : String) :
    ∃ joins, Joins tree names fromFile specifier joins := by
  cases form : isRelative specifier with
  | true => exact ⟨_, .relative form⟩
  | false =>
    by_cases matched : ∃ file settings, InForce tree names (directoryOf fromFile) file settings ∧
        ¬ Unmatched settings specifier
    · obtain ⟨file, settings, inForce, matched⟩ := matched
      rcases exists_longestStart_or_unmatched settings specifier with ⟨start, rest, targets, longest⟩ | unmatched
      · exact ⟨_, .aliased form inForce longest⟩
      · exact absurd unmatched matched
    · refine ⟨_, .unmatched form fun file settings inForce => ?_⟩
      by_cases unmatched : Unmatched settings specifier
      · exact unmatched
      · exact absurd ⟨file, settings, inForce, unmatched⟩ matched

/-! ## Joined paths are absolute -/

theorem isAbsolute_directoryOf {path : String} (absolute : isAbsolute path = true)
    (notTop : components path ≠ [.root]) : isAbsolute (directoryOf path) = true := by
  unfold directoryOf
  cases isParent : parent? path with
  | some above => exact isAbsolute_parent absolute isParent
  | none =>
    rcases (parent?_eq_none_iff path).mp isParent with empty | top
    · rw [isAbsolute_iff, empty] at absolute
      cases absolute
    · exact absurd top notTop

theorem components_ne_of_isFile {path : String} (file : tree.isFile path = true) :
    components path ≠ [.root] := by
  intro top
  obtain ⟨e, found, noDirectory⟩ := (isFile_eq_true_iff tree path).mp file
  obtain ⟨l, located, stands⟩ := (FileTree.entry?_eq_ok_iff tree path _).mp found
  -- The root leads to the top, and that is a directory.
  have atTop := FileTree.locate_eq_resolved (by rw [top]; rfl) located
  rw [top] at atTop
  subst atTop
  exact noDirectory (Option.some.inj stands).symm

theorem isAbsolute_nearestFile {directory file : String} (absolute : isAbsolute directory = true)
    (nearest : nearestFile? tree names directory = some file) :
    isAbsolute file = true ∧ tree.isFile file = true := by
  obtain ⟨around, member, found⟩ := List.exists_of_findSome?_eq_some nearest
  obtain ⟨name, -, rfl⟩ := List.mem_map.mp (List.mem_of_find?_eq_some found)
  exact ⟨isAbsolute_join (isAbsolute_of_mem_ancestors absolute member), List.find?_some found⟩

theorem isAbsolute_targetsFrom {directory : String} (absolute : isAbsolute directory = true)
    (settings : Json) : isAbsolute (settings.targetsFrom directory) = true := by
  unfold Json.targetsFrom
  split
  · rw [normalize_of_isAbsolute (isAbsolute_join absolute), isAbsolute_rooted]
  · exact absolute

theorem Joins.areAbsolute (absolute : isAbsolute fromFile = true) (notTop : components fromFile ≠ [.root])
    (joined : Joins tree names fromFile specifier joins) : ∀ path ∈ joins, isAbsolute path = true := by
  have directory := isAbsolute_directoryOf absolute notTop
  cases joined with
  | relative isRelative =>
    intro path member
    rw [List.mem_singleton.mp member]
    exact isAbsolute_join directory
  | aliased notRelative inForce longest =>
    intro path member
    obtain ⟨target, -, rfl⟩ := List.mem_map.mp member
    obtain ⟨fileAbsolute, isFile⟩ := isAbsolute_nearestFile directory inForce.nearest
    have fromDirectory := isAbsolute_directoryOf fileAbsolute (components_ne_of_isFile isFile)
    exact isAbsolute_join (isAbsolute_targetsFrom fromDirectory _)
  | unmatched => simp

/-! ## What is tried -/

theorem Tried.eq_flatMap {suffixes tried : List String} (isTried : Tried suffixes joins tried) :
    tried = (joins.map normalize).flatMap (candidatesAt suffixes) := by
  induction isTried with
  | nil => rfl
  | cons swaps _ inductionHypothesis =>
    rw [List.map_cons, List.flatMap_cons, inductionHypothesis, swaps.eq_swapped, candidatesAt]

theorem exists_tried (suffixes : List String) (absolute : ∀ path ∈ joins, isAbsolute path = true) :
    ∃ tried, Tried suffixes joins tried := by
  induction joins with
  | nil => exact ⟨_, .nil⟩
  | cons joined joins inductionHypothesis =>
    obtain ⟨later, isTried⟩ := inductionHypothesis fun path member =>
      absolute path (List.mem_cons_of_mem joined member)
    have swaps : Swaps (normalize joined) (swapped (normalize joined)) := by
      rw [normalize_of_isAbsolute (absolute joined List.mem_cons_self)]
      exact swaps_swapped fun _ => isPiece_of_mem_resolved
    exact ⟨_, .cons swaps isTried⟩

theorem find?_eq_some_iff_isFirstFile (tree : FileTree) (tried : List String) (path : String) :
    tried.find? tree.isFile = some path ↔ IsFirstFile tree tried path := by
  rw [List.find?_eq_some_iff_append, IsFirstFile]
  constructor
  · rintro ⟨isFile, before, after, split, skipped⟩
    exact ⟨before, after, split, isFile, fun other member => by simpa using skipped other member⟩
  · rintro ⟨before, after, split, isFile, skipped⟩
    exact ⟨isFile, before, after, split, fun other member => by simp [skipped other member]⟩

end

/-! ## Looking up what was loaded -/

/-- A file that was loaded is found under every path that denotes its whole path. -/
theorem factsAt_eq_some {tree : FileTree} {root : String} {limit : Nat} {files : List String} {s : Scope}
    (facts : s.facts = loadedFacts tree root limit files) {f : FileFacts}
    (loaded : IsLoaded tree root limit files f) {path : String} (same : samePath f.path path = true) :
    s.factsAt path = some f := by
  unfold Scope.factsAt
  rw [facts]
  cases found : (loadedFacts tree root limit files).find? fun g => samePath g.path path with
  | none =>
    have member := (mem_loadedFacts_iff tree root limit files f).mpr loaded
    exact absurd same (by simpa using List.find?_eq_none.mp found f member)
  | some g =>
    have gLoaded := (mem_loadedFacts_iff tree root limit files g).mp (List.mem_of_find?_eq_some found)
    have gSame := List.find?_some found
    rw [gLoaded.eq_of_samePath loaded]
    simp only [samePath, beq_iff_eq] at same gSame ⊢
    rw [gSame, same]

/-- The file is listed, in whatever spelling, and read, and it is the one that the path leads to. -/
structure IsGiven (tree : FileTree) (root : String) (limit : Nat) (files : List String) (path file : String)
    (e : Extraction) : Prop where
  listed : file ∈ files
  inside : staysInside 0 (components (join root file)) = true
  extracted : Extraction.ofFile tree limit (wholePath root file) = .ok e
  samePlace : tree.locate (wholePath root file) = tree.locate path

/-- A path with nothing left to resolve denotes the whole path of every file that it leads to. -/
theorem IsGiven.denotes {tree : FileTree} {root path file : String} {limit : Nat} {files : List String}
    {e : Extraction} (rootAbsolute : isAbsolute root = true)
    (given : IsGiven tree root limit files path file e) (absolute : isAbsolute path = true)
    (normal : samePath (normalize path) path = true)
    (inside : staysInside 0 (components path) = true) :
    samePath (wholePath root file) path = true := by
  obtain ⟨l, found⟩ := exists_locate given.extracted
  -- Both paths spell the location that they lead to.
  have pathSpells := FileTree.locate_eq_resolved inside (given.samePlace ▸ found)
  rw [wholePath_eq_rooted rootAbsolute] at found
  have fileSpells := FileTree.locate_rooted (fun _ => isPiece_of_mem_resolved)
    (points_not_mem_resolved given.inside) found
  rw [wholePath_eq_rooted rootAbsolute, ← fileSpells, pathSpells, ← normalize_of_isAbsolute absolute]
  exact normal

/-- A name means the first file among the paths that are tried for it, and nothing if none of them is a file.
    With the standard suffixes nothing is left to resolve in the path that is found, and the file is known
    under it if it was loaded under any spelling. -/
theorem resolve_exact (tree : FileTree) (config : ResolutionConfig) (requests : List AliasRequest)
    (events : List Event) {fromFile : String} (absolute : isAbsolute fromFile = true)
    (normal : normalize fromFile = fromFile) (notTop : fromFile ≠ "/") (specifier : String) :
    let names := config.projectConfigFiles
    let cache := ((AliasCache.empty.serve tree names requests).2.replay tree names events).1
    let found := resolve tree config cache fromFile specifier
    (∃ joins tried, Joins tree names fromFile specifier joins ∧ Tried config.resolveSuffixes joins tried) ∧
    (isRelative specifier = false →
      (∀ file settings, InForce tree names (directoryOf fromFile) file settings →
        Unmatched settings specifier) → found = none) ∧
    ∀ joins tried, Joins tree names fromFile specifier joins → Tried config.resolveSuffixes joins tried →
      (found.isSome = true ↔ ∃ path ∈ tried, tree.isFile path = true) ∧
      (∀ path, found = some path ↔ IsFirstFile tree tried path) ∧
      (config.resolveSuffixes = ResolutionConfig.standard.resolveSuffixes → ∀ path, found = some path →
        samePath (normalize path) path = true ∧
        ((∀ joined ∈ joins, staysInside 0 (components joined) = true) →
          ∀ root limit files file e, isAbsolute root = true → IsGiven tree root limit files path file e →
            ∀ s : Scope, s.facts = loadedFacts tree root limit files →
              s.factsAt path = some (.ofExtraction root (wholePath root file) e))) := by
  intro names cache found
  have faithful : cache.Faithful tree names :=
    ((AliasCache.faithful_empty tree names).serve requests).2.replay events
  -- Any other spelling of the top has the normal form `/`.
  have components_ne : components fromFile ≠ [.root] := by
    intro top
    apply notTop
    rw [← normal, normalize_of_isAbsolute absolute, top]
    rfl
  have found_eq {joins tried : List String} (joined : Joins tree names fromFile specifier joins)
      (isTried : Tried config.resolveSuffixes joins tried) : found = tried.find? tree.isFile := by
    rw [isTried.eq_flatMap, ← joined.bases_eq faithful]
    rfl
  refine ⟨?_, ?_, ?_⟩
  · obtain ⟨joins, joined⟩ := exists_joins tree names fromFile specifier
    obtain ⟨tried, isTried⟩ := exists_tried config.resolveSuffixes (joined.areAbsolute absolute components_ne)
    exact ⟨joins, tried, joined, isTried⟩
  · intro notRelative unmatched
    exact found_eq (.unmatched notRelative unmatched) .nil
  · intro joins tried joined isTried
    have first : ∀ path, found = some path ↔ IsFirstFile tree tried path := by
      intro path
      rw [found_eq joined isTried, find?_eq_some_iff_isFirstFile]
    refine ⟨?_, first, ?_⟩
    · rw [found_eq joined isTried, List.find?_isSome]
    · intro standard path isFound
      have areSuffixes : ∀ s ∈ config.resolveSuffixes, IsSuffix s := standard ▸ isSuffix_standard
      have member : path ∈ tried := by
        rw [found_eq joined isTried] at isFound
        exact List.mem_of_find?_eq_some isFound
      -- Each base is tried by itself, so the path that is found belongs to one of them.
      rw [isTried.eq_flatMap, List.flatMap_map, List.mem_flatMap] at member
      obtain ⟨base, baseJoined, pathTried⟩ := member
      have baseAbsolute := joined.areAbsolute absolute components_ne base baseJoined
      obtain ⟨pathAbsolute, pathNormal⟩ := samePath_normalize areSuffixes baseAbsolute pathTried
      refine ⟨pathNormal, ?_⟩
      intro inside root limit files file e rootAbsolute given s facts
      have pathInside := staysInside_tried areSuffixes baseAbsolute (inside base baseJoined) pathTried
      have loaded : IsLoaded tree root limit files (.ofExtraction root (wholePath root file) e) :=
        ⟨file, given.listed, e, given.extracted, rfl⟩
      exact factsAt_eq_some facts loaded (given.denotes rootAbsolute pathAbsolute pathNormal pathInside)

/-- Two aliases that fit the same names, the longer one declared last, with a comma too many. -/
def aliasedText : String :=
  "\x7b\"compilerOptions\":\x7b\"paths\":\x7b\"@/*\":[\"src/*\"],\"@/lib/*\":[\"lib/*\"],\x7d\x7d\x7d"

def aliasedTree : FileTree :=
  ⟨[(["p"], .directory), (["p", "lib"], .directory), (["p", "src"], .directory),
    (["p", "tsconfig.json"], .file aliasedText.toUTF8), (["p", "lib", "b.ts"], .file "".toUTF8)]⟩

/-- What the project file says. -/
def aliasedSettings : Json :=
  .object [("compilerOptions", .object [("paths", .object
    [("@/*", .array [.string "src/*"]), ("@/lib/*", .array [.string "lib/*"])])])]

theorem aliased_inForce :
    InForce aliasedTree ResolutionConfig.standard.projectConfigFiles "/p/src" "/p/tsconfig.json"
      aliasedSettings := by
  refine ⟨by decide, aliasedText, (FileTree.readText_eq_ok_iff _ _ _).mpr rfl, ?_⟩
  rfl

theorem aliased_maps_iff (start : String) (targets : List String) :
    aliasedSettings.Maps start targets ↔
      ⟨start, targets⟩ ∈ [AliasMapping.mk "@/" ["src/"], AliasMapping.mk "@/lib/" ["lib/"]] := by
  have mappings : mappingsIn [("@/*", .array [.string "src/*"]), ("@/lib/*", .array [.string "lib/*"])] =
      [⟨"@/", ["src/"]⟩, ⟨"@/lib/", ["lib/"]⟩] := by decide
  rw [← mappings]
  exact Json.maps_iff rfl rfl start targets

theorem aliased_longestStart : LongestStart aliasedSettings "@/lib/b.js" "@/lib/" "b.js" ["lib/"] := by
  refine ⟨(aliased_maps_iff _ _).mpr (by simp), by decide, ?_⟩
  intro other others declared _
  have listed := (aliased_maps_iff _ _).mp declared
  simp only [List.mem_cons, AliasMapping.mk.injEq, List.not_mem_nil, or_false] at listed
  rcases listed with ⟨rfl, -⟩ | ⟨rfl, -⟩ <;> decide

/-- The name goes by the longer alias, and the file is found with the ending of a source. -/
theorem resolve_exact_aliased :
    (isAbsolute "/p/src/a.ts" = true ∧ normalize "/p/src/a.ts" = "/p/src/a.ts" ∧ "/p/src/a.ts" ≠ "/") ∧
      resolve aliasedTree .standard .empty "/p/src/a.ts" "@/lib/b.js" = some "/p/lib/b.ts" ∧
      ∀ s : Scope, s.facts = loadedFacts aliasedTree "/p" 10 ["src/../lib/b.ts"] →
        ∃ f, s.factsAt "/p/lib/b.ts" = some f ∧ f.path = "/p/lib/b.ts" := by
  have absolute : isAbsolute "/p/src/a.ts" = true := by decide
  have normal : normalize "/p/src/a.ts" = "/p/src/a.ts" := by decide
  have notTop : "/p/src/a.ts" ≠ "/" := by decide
  obtain ⟨-, -, forTried⟩ := resolve_exact aliasedTree .standard [] [] absolute normal notTop "@/lib/b.js"
  have path : join (aliasedSettings.targetsFrom (directoryOf "/p/tsconfig.json")) ("lib/" ++ "b.js") =
      "/p/lib/b.js" := by decide
  have joined : Joins aliasedTree ResolutionConfig.standard.projectConfigFiles "/p/src/a.ts" "@/lib/b.js"
      [join (aliasedSettings.targetsFrom (directoryOf "/p/tsconfig.json")) ("lib/" ++ "b.js")] :=
    .aliased (by decide) aliased_inForce aliased_longestStart
  rw [path] at joined
  have swaps : Swaps (normalize "/p/lib/b.js") ["/p/lib/b.ts", "/p/lib/b.tsx"] := by
    have plain : ∀ t ∈ ["p", "lib"] ++ ["b" ++ "." ++ "js"], t ≠ "" ∧ t ≠ "." ∧ '/' ∉ t.toList := by decide
    have arePieces : ∀ t ∈ ["p", "lib"] ++ ["b" ++ "." ++ "js"], IsPiece t :=
      fun t member => ⟨(plain t member).1, (plain t member).2.1, (plain t member).2.2⟩
    exact Swaps.compiled arePieces (by decide) List.mem_cons_self
  obtain ⟨-, first, standard⟩ := forTried _ _ joined (.cons swaps .nil)
  have found := (first "/p/lib/b.ts").mpr ⟨["/p/lib/b.js"], _, rfl, by decide, by decide⟩
  refine ⟨⟨absolute, normal, notTop⟩, found, ?_⟩
  intro s facts
  have whole : wholePath "/p" "src/../lib/b.ts" = "/p/lib/b.ts" := by decide
  obtain ⟨e, extracted⟩ : ∃ e, Extraction.ofFile aliasedTree 10 (wholePath "/p" "src/../lib/b.ts") = .ok e :=
    ⟨_, rfl⟩
  have given : IsGiven aliasedTree "/p" 10 ["src/../lib/b.ts"] "/p/lib/b.ts" "src/../lib/b.ts" e :=
    ⟨by decide, by decide, extracted, by rw [whole]⟩
  exact ⟨_, (standard rfl _ found).2 (by decide) "/p" 10 _ _ e (by decide) given s facts, whole⟩

end CallAtlas.Specifier
