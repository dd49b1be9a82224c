import CallAtlas.Graph.Build
import CallAtlas.Proofs.Ancestors

/-!
# Remembered aliases do not show

The aliases that were found for a directory are remembered, for it and for every directory on the way
up.  A later search may stop at any of them.  Nevertheless, asking for the aliases of one directory
changes the answer for no other, whatever is remembered (`aliasesFor_visit`).  This is the step from
which the rest follows by induction: every answer of a session is that of a walk without memory, names
of modules mean the same files at all times, and a second build repeats the first
(`aliasCache_transparent`).  It is also why a build may go by the memory that it starts with.
-/

namespace CallAtlas

open CallAtlas.Path

/-! ## The walk without memory -/

/-- The project file that counts for the files of a directory: that of the nearest directory that has
    one. -/
def nearestFile? (tree : FileTree) (names : List String) (directory : String) : Option String :=
  (ancestors directory).findSome? (PathAliases.fileIn? tree names)

/-- The aliases for the files of a directory, when nothing is remembered. -/
def nearestAliases (tree : FileTree) (names : List String) (directory : String) : Option PathAliases :=
  (nearestFile? tree names directory).bind fun file => (PathAliases.load tree file).1

/-- Settings declare an alias: a pattern that ends with a star, with a target that ends with one. -/
def Json.DeclaresAlias (settings : Json) : Prop :=
  ∃ options members pattern targets target,
    settings.member? "compilerOptions" = some options ∧
    options.member? "paths" = some (.object members) ∧
    Json.lookup pattern members = some (.array targets) ∧ .string target ∈ targets ∧
    pattern.toList.getLast? = some '*' ∧ target.toList.getLast? = some '*'

/-- A project file cannot be read, is malformed, or declares no alias. -/
def DeclaresNothing (tree : FileTree) (file : String) : Prop :=
  (∃ e, tree.readText file = .error e) ∨
    ∃ content, tree.readText file = .ok content ∧
      (Json.parse? (Json.Commented.strip content) = none ∨
        ∃ settings, Json.parse? (Json.Commented.strip content) = some settings ∧
          ¬ settings.DeclaresAlias)

/-! ## What a project file declares -/

theorem Json.lookup_cons (name : String) (first : String × Json) (rest : List (String × Json)) :
    Json.lookup name (first :: rest) =
      (Json.lookup name rest).or (if first.1 == name then some first.2 else none) := by
  unfold Json.lookup
  rw [List.reverse_cons, List.find?_append, List.find?_singleton]
  cases rest.reverse.find? (·.1 == name) with
  | some found => rfl
  | none => by_cases named : first.1 == name <;> simp [named]

theorem Json.lookup_isSome (name : String) (members : List (String × Json)) :
    (Json.lookup name members).isSome = members.any (·.1 == name) := by
  unfold Json.lookup
  rw [Option.isSome_map, Bool.eq_iff_iff, List.find?_isSome]
  simp

/-- Of members of the same name the last one is kept, and it is the one that is looked up. -/
theorem mem_lastMembers_iff (members : List (String × Json)) (name : String) (value : Json) :
    (name, value) ∈ lastMembers members ↔ Json.lookup name members = some value := by
  induction members with
  | nil => simp [lastMembers, Json.lookup]
  | cons first rest inductionHypothesis =>
    obtain ⟨key, firstValue⟩ := first
    have again := Json.lookup_isSome key rest
    rw [Json.lookup_cons, lastMembers]
    dsimp only
    by_cases replaced : rest.any (·.1 == key) = true
    · rw [if_pos replaced, inductionHypothesis]
      rw [replaced] at again
      obtain ⟨later, found⟩ := Option.isSome_iff_exists.mp again
      by_cases named : key = name
      · subst named
        simp [found]
      · simp [named]
    · rw [if_neg replaced, List.mem_cons, inductionHypothesis]
      rw [Bool.not_eq_true] at replaced
      rw [replaced, Option.isSome_eq_false_iff, Option.isNone_iff_eq_none] at again
      by_cases named : key = name
      · subst named
        simp [again, eq_comm]
      · simp [named, Ne.symm named]

theorem filterMap_ne_nil_iff {α β : Type} (f : α → Option β) (items : List α) :
    items.filterMap f ≠ [] ↔ ∃ a ∈ items, (f a).isSome = true := by
  constructor
  · intro nonempty
    obtain ⟨b, member⟩ := List.exists_mem_of_ne_nil _ nonempty
    obtain ⟨a, listed, made⟩ := List.mem_filterMap.mp member
    exact ⟨a, listed, by simp [made]⟩
  · rintro ⟨a, listed, made⟩ nothing
    rw [List.filterMap_eq_nil_iff] at nothing
    simp [nothing a listed] at made

theorem withoutStar?_isSome_iff (s : String) :
    (withoutStar? s).isSome = true ↔ s.toList.getLast? = some '*' := by
  unfold withoutStar?
  split
  · rename_i starred
    simpa using starred
  · rename_i starred
    simpa using starred

theorem Json.string?_bind_withoutStar?_isSome_iff (item : Json) :
    (item.string?.bind withoutStar?).isSome = true ↔
      ∃ target, item = .string target ∧ target.toList.getLast? = some '*' := by
  cases item with
  | string target => simp [Json.string?, withoutStar?_isSome_iff]
  | null | bool _ | integer _ | real _ | array _ | object _ => simp [Json.string?]

theorem AliasMapping.ofMember?_isSome_iff (pattern : String) (value : Json) :
    (AliasMapping.ofMember? pattern value).isSome = true ↔
      ∃ targets target, value = .array targets ∧ .string target ∈ targets ∧
        pattern.toList.getLast? = some '*' ∧ target.toList.getLast? = some '*' := by
  rw [← withoutStar?_isSome_iff pattern]
  unfold AliasMapping.ofMember?
  cases withoutStar? pattern with
  | none => simp
  | some start =>
    cases value with
    | null | bool _ | integer _ | real _ | string _ | object _ => simp [Json.items?]
    | array targets =>
      have starred := filterMap_ne_nil_iff (fun item => item.string?.bind withoutStar?) targets
      simp only [Json.string?_bind_withoutStar?_isSome_iff] at starred
      simp only [Json.items?]
      split
      · rename_i nothing
        simp only [nothing, ne_eq, not_true_eq_false, false_iff] at starred
        simp only [Option.isSome_none, Bool.false_eq_true, false_iff]
        rintro ⟨_, target, same, member, -, star⟩
        cases same
        exact starred ⟨_, member, target, rfl, star⟩
      · rename_i something
        simp only [Option.isSome_some, true_iff]
        obtain ⟨item, member, target, rfl, star⟩ := starred.mp something
        exact ⟨targets, target, rfl, member, trivial, star⟩

theorem PathAliases.ofSettings?_isSome_iff (directory : String) (settings : Json) :
    (PathAliases.ofSettings? directory settings).isSome = true ↔ settings.DeclaresAlias := by
  unfold PathAliases.ofSettings? Json.DeclaresAlias
  cases settings.member? "compilerOptions" with
  | none => simp
  | some options =>
    cases paths : options.member? "paths" with
    | none => simp [paths]
    | some value =>
      cases value with
      | null | bool _ | integer _ | real _ | string _ | array _ => simp [paths, Json.members?]
      | object members =>
        have declared := filterMap_ne_nil_iff (fun m => AliasMapping.ofMember? m.1 m.2)
          (lastMembers members)
        simp only [AliasMapping.ofMember?_isSome_iff, Prod.exists, mem_lastMembers_iff] at declared
        simp only [Option.bind_eq_bind, Option.bind_some, paths, Json.members?]
        cases mappings : (lastMembers members).filterMap fun m => AliasMapping.ofMember? m.1 m.2 with
        | nil =>
          simp only [mappings, ne_eq, not_true_eq_false, false_iff] at declared
          simp only [Option.isSome_none, Bool.false_eq_true, false_iff]
          rintro ⟨_, _, pattern, targets, target, same, paths', found, member, stars⟩
          cases same
          rw [paths] at paths'
          cases paths'
          exact declared ⟨pattern, _, found, targets, target, rfl, member, stars⟩
        | cons first rest =>
          simp only [mappings, ne_eq, reduceCtorEq, not_false_eq_true, true_iff] at declared
          simp only [Option.isSome_some, true_iff]
          obtain ⟨pattern, value, found, targets, target, rfl, member, stars⟩ := declared
          exact ⟨options, members, pattern, targets, target, rfl, paths, found, member, stars⟩

/-- A project file gives no aliases exactly if it declares none that can be used. -/
theorem PathAliases.load_eq_none_iff (tree : FileTree) (file : String) :
    (PathAliases.load tree file).1 = none ↔ DeclaresNothing tree file := by
  unfold PathAliases.load DeclaresNothing
  cases tree.readText file with
  | error e => simp
  | ok content =>
    cases parsed : Json.parse? (Json.Commented.strip content) with
    | none => simp [parsed]
    | some settings =>
      have declares := PathAliases.ofSettings?_isSome_iff ((parent? file).getD ".") settings
      cases aliases : PathAliases.ofSettings? ((parent? file).getD ".") settings with
      | none =>
        rw [aliases] at declares
        simp [parsed, aliases, ← declares]
      | some found =>
        rw [aliases] at declares
        simp [parsed, aliases, ← declares]

theorem nearestAliases_eq_none_iff (tree : FileTree) (names : List String) (directory : String) :
    nearestAliases tree names directory = none ↔
      ∀ file, nearestFile? tree names directory = some file → DeclaresNothing tree file := by
  unfold nearestAliases
  cases nearestFile? tree names directory with
  | none => simp
  | some file => simp [PathAliases.load_eq_none_iff]

/-! ## One search -/

namespace AliasCache

theorem get?_empty (directory : String) : empty.get? directory = none := rfl

theorem get?_insert (cache : AliasCache) (directory : String) (found : Option PathAliases)
    (asked : String) :
    (cache.insert directory found).get? asked =
      if components directory = components asked then some found else cache.get? asked := by
  unfold insert get?
  by_cases same : components directory = components asked
  · simp [same]
  · simp [same]

/-- What is remembered of a directory does not depend on how it is spelled. -/
theorem get?_congr (cache : AliasCache) {a b : String} (same : components a = components b) :
    cache.get? a = cache.get? b := by
  unfold get?
  rw [same]

theorem get?_foldl_insert (cache : AliasCache) (directories : List String)
    (found : Option PathAliases) (asked : String) :
    (directories.foldl (fun c d => c.insert d found) cache).get? asked = some found ∧
        (∃ d ∈ directories, components d = components asked) ∨
      (directories.foldl (fun c d => c.insert d found) cache).get? asked = cache.get? asked := by
  induction directories generalizing cache with
  | nil => exact .inr rfl
  | cons first rest inductionHypothesis =>
    rcases inductionHypothesis (cache.insert first found) with ⟨hit, d, member, same⟩ | kept
    · exact .inl ⟨hit, d, List.mem_cons_of_mem first member, same⟩
    · rw [List.foldl_cons, kept, get?_insert]
      by_cases same : components first = components asked
      · exact .inl ⟨if_pos same, first, List.mem_cons_self, same⟩
      · exact .inr (if_neg same)

end AliasCache

section

variable (tree : FileTree) (names : List String)

/-- The path as it is written when it is put together from its components. -/
def respelled (path : String) : String := ofComponents (components path)

theorem components_respelled (path : String) : components (respelled path) = components path :=
  components_ofComponents (areRead_components path)

theorem aliasesFor_congr (cache : AliasCache) {a b : String} (same : components a = components b) :
    aliasesFor tree names cache a = aliasesFor tree names cache b := by
  unfold aliasesFor
  rw [ancestors_congr same]

/-- One step of a search: memory first, then a project file, then the parent. -/
theorem aliasesFor_eq (cache : AliasCache) (directory : String) :
    aliasesFor tree names cache directory =
      match cache.get? directory with
      | some found => found
      | none =>
        match PathAliases.fileIn? tree names (respelled directory) with
        | some file => (PathAliases.load tree file).1
        | none =>
          match parent? directory with
          | none => none
          | some above => aliasesFor tree names cache above := by
  unfold aliasesFor
  rw [ancestors_eq, aliasesAlong, ← respelled, cache.get?_congr (components_respelled directory)]
  cases parent? directory with
  | none => rfl
  | some above => rfl

/-- The directories that a search for one directory remembers something new about. -/
def newFor (cache : AliasCache) (directory : String) : List String :=
  newAlong tree names cache (ancestors directory)

theorem newFor_eq (cache : AliasCache) (directory : String) :
    newFor tree names cache directory =
      if (cache.get? directory).isSome then []
      else if (PathAliases.fileIn? tree names (respelled directory)).isSome then [respelled directory]
      else respelled directory ::
        match parent? directory with
        | none => []
        | some above => newFor tree names cache above := by
  unfold newFor
  rw [ancestors_eq, newAlong, ← respelled, cache.get?_congr (components_respelled directory)]
  cases parent? directory with
  | none => rfl
  | some above => rfl

/-- All directories that a search passes have the same aliases. -/
theorem aliasesFor_of_mem_newFor (cache : AliasCache) (directory : String) :
    ∀ passed ∈ newFor tree names cache directory,
      aliasesFor tree names cache passed = aliasesFor tree names cache directory := by
  induction directory using parentInduction with
  | step directory inductionHypothesis =>
    intro passed member
    have itself := aliasesFor_congr tree names cache (components_respelled directory)
    rw [newFor_eq] at member
    split at member
    · cases member
    · rename_i forgotten
      split at member
      · obtain rfl := List.mem_singleton.mp member
        exact itself
      · rename_i noFile
        rcases List.mem_cons.mp member with rfl | further
        · exact itself
        · -- Nothing is found here, so the search goes on as one for the parent.
          rw [Bool.not_eq_true, Option.isSome_eq_false_iff, Option.isNone_iff_eq_none] at forgotten noFile
          rw [aliasesFor_eq tree names cache directory, forgotten, noFile]
          cases isParent : parent? directory with
          | none =>
            rw [isParent] at further
            cases further
          | some above =>
            rw [isParent] at further
            exact inductionHypothesis above isParent passed further

theorem get?_visit (cache : AliasCache) (directory asked : String) :
    (cache.visit tree names directory).get? asked = some (aliasesFor tree names cache asked) ∨
      (cache.visit tree names directory).get? asked = cache.get? asked := by
  rcases cache.get?_foldl_insert (newFor tree names cache directory)
    (aliasesFor tree names cache directory) asked with ⟨hit, passed, member, same⟩ | kept
  · left
    rw [← aliasesFor_congr tree names cache same,
      aliasesFor_of_mem_newFor tree names cache directory passed member]
    exact hit
  · exact .inr kept

/-- Asking for the aliases of one directory changes no other answer, whatever is remembered. -/
theorem aliasesFor_visit (cache : AliasCache) (directory asked : String) :
    aliasesFor tree names (cache.visit tree names directory) asked =
      aliasesFor tree names cache asked := by
  induction asked using parentInduction with
  | step asked inductionHypothesis =>
    rw [aliasesFor_eq]
    rcases get?_visit tree names cache directory asked with hit | kept
    · rw [hit]
    · rw [kept, aliasesFor_eq tree names cache asked]
      cases cache.get? asked with
      | some found => rfl
      | none =>
        cases PathAliases.fileIn? tree names (respelled asked) with
        | some file => rfl
        | none =>
          cases isParent : parent? asked with
          | none => rfl
          | some above => exact inductionHypothesis above isParent

theorem aliasesFor_empty (directory : String) :
    aliasesFor tree names .empty directory = nearestAliases tree names directory := by
  unfold aliasesFor nearestAliases nearestFile?
  induction ancestors directory with
  | nil => rfl
  | cons d directories inductionHypothesis =>
    rw [aliasesAlong, AliasCache.get?_empty, List.findSome?_cons]
    cases PathAliases.fileIn? tree names d with
    | some file => rfl
    | none => exact inductionHypothesis

/-! ## Sessions -/

/-- The memory gives the answers of a walk without memory. -/
def AliasCache.Faithful (cache : AliasCache) : Prop :=
  ∀ directory, aliasesFor tree names cache directory = nearestAliases tree names directory

theorem AliasCache.faithful_empty : AliasCache.empty.Faithful tree names :=
  aliasesFor_empty tree names

end

variable {tree : FileTree} {names : List String}

theorem AliasCache.Faithful.visit {cache : AliasCache} (faithful : cache.Faithful tree names)
    (directory : String) : (cache.visit tree names directory).Faithful tree names := by
  intro asked
  rw [aliasesFor_visit, faithful asked]

theorem AliasCache.Faithful.replay {cache : AliasCache} (faithful : cache.Faithful tree names)
    (events : List Event) : (cache.replay tree names events).1.Faithful tree names := by
  induction events generalizing cache with
  | nil => exact faithful
  | cons event events inductionHypothesis =>
    cases event with
    | logged line => exact inductionHypothesis faithful
    | aliasesAsked directory => exact inductionHypothesis (faithful.visit directory)

/-- What a memory of aliases is asked for. -/
inductive AliasRequest where
  /-- The aliases for the files of a directory. -/
  | ask (directory : String)
  /-- Forget everything. -/
  | clear
  deriving DecidableEq, Repr

/-- The directory whose aliases are asked for. -/
def AliasRequest.directory? : AliasRequest → Option String
  | ask directory => some directory
  | clear => none

/-- Serve requests in their order: the answers to those that ask, and the memory that is left. -/
def AliasCache.serve (tree : FileTree) (names : List String) :
    AliasCache → List AliasRequest → List (Option PathAliases) × AliasCache
  | cache, [] => ([], cache)
  | cache, .ask directory :: requests =>
    let (answers, left) := serve tree names (cache.visit tree names directory) requests
    (aliasesFor tree names cache directory :: answers, left)
  | _, .clear :: requests => serve tree names .empty requests

theorem AliasCache.Faithful.serve {cache : AliasCache} (faithful : cache.Faithful tree names)
    (requests : List AliasRequest) :
    (cache.serve tree names requests).1 =
        (requests.filterMap AliasRequest.directory?).map (nearestAliases tree names) ∧
      (cache.serve tree names requests).2.Faithful tree names := by
  induction requests generalizing cache with
  | nil => exact ⟨rfl, faithful⟩
  | cons request requests inductionHypothesis =>
    cases request with
    | ask directory =>
      obtain ⟨answers, left⟩ := inductionHypothesis (faithful.visit directory)
      refine ⟨?_, left⟩
      simp only [AliasCache.serve, answers, faithful directory]
      rfl
    | clear => exact inductionHypothesis (AliasCache.faithful_empty tree names)

/-! ## Names of modules, and builds -/

theorem Specifier.resolve_of_faithful {config : ResolutionConfig} {cache other : AliasCache}
    (faithful : cache.Faithful tree config.projectConfigFiles)
    (otherFaithful : other.Faithful tree config.projectConfigFiles) :
    Specifier.resolve tree config cache = Specifier.resolve tree config other := by
  funext fromFile specifier
  unfold Specifier.resolve Specifier.bases
  rw [faithful, otherFaithful]

theorem build_of_faithful {config : Config} {cache other : AliasCache}
    (faithful : cache.Faithful tree config.resolution.projectConfigFiles)
    (otherFaithful : other.Faithful tree config.resolution.projectConfigFiles) (root : String)
    (files : List String) :
    build tree root config cache files = build tree root config other files := by
  unfold build
  rw [Specifier.resolve_of_faithful faithful otherFaithful]

/-- A session that starts with nothing remembered gives the answers of walks without memory, in which
    the nearest project file decides, even if it declares nothing.  After it, and at every moment of a
    build that follows it, names of modules mean what they mean at the start, and a second build
    repeats the first. -/
theorem aliasCache_transparent (tree : FileTree) (root : String) (config : Config)
    (files : List String) (requests : List AliasRequest) :
    let names := config.resolution.projectConfigFiles
    let session := AliasCache.empty.serve tree names requests
    let first := build tree root config session.2 files
    let second := build tree root config (session.2.replay tree names first.events).1 files
    session.1 = (requests.filterMap AliasRequest.directory?).map (nearestAliases tree names) ∧
    (∀ directory, nearestAliases tree names directory = none ↔
      ∀ file, nearestFile? tree names directory = some file → DeclaresNothing tree file) ∧
    (∀ events fromFile specifier,
      Specifier.resolve tree config.resolution (session.2.replay tree names events).1 fromFile specifier =
        Specifier.resolve tree config.resolution .empty fromFile specifier) ∧
    second.value.nodes = first.value.nodes ∧ second.value.edges = first.value.edges ∧
    second.value.issues = first.value.issues := by
  intro names session first second
  have start : AliasCache.empty.Faithful tree names := AliasCache.faithful_empty tree names
  obtain ⟨answers, faithful⟩ := start.serve requests
  have again : second = first := build_of_faithful (faithful.replay first.events) faithful root files
  refine ⟨answers, nearestAliases_eq_none_iff tree names, ?_, ?_, ?_, ?_⟩
  · intro events fromFile specifier
    rw [Specifier.resolve_of_faithful (faithful.replay events) start]
  · rw [again]
  · rw [again]
  · rw [again]

end CallAtlas
