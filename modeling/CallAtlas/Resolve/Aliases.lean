import CallAtlas.Files.Tree
import CallAtlas.Json.Commented
import CallAtlas.Json.Parser
import CallAtlas.Log.Trace
import CallAtlas.Path.Normal

/-!
# Aliases of modules

A project file can declare aliases such as `"@/*": ["src/*"]`: a module whose name starts with `@/` is
then looked for in `src/`.  For the files of a directory, the nearest project file counts, in the
directory itself or in one around it.  It counts even if it declares nothing usable.

What was found for a directory is kept in an `AliasCache`, together with what was found for all
directories on the way up.
-/

namespace CallAtlas

open Text

/-- Names of modules that start with `start` are looked for in the places `targets`. -/
structure AliasMapping where
  start : String
  targets : List String
  deriving DecidableEq, Repr

structure PathAliases where
  /-- The place that targets are seen from. -/
  baseDir : String
  /-- The mappings, those with the longest start first. -/
  mappings : List AliasMapping
  deriving DecidableEq, Repr

/-- Without the star at the end; nothing if there is none. -/
def withoutStar? (s : String) : Option String :=
  if s.toList.getLast? == some '*' then some (String.ofList s.toList.dropLast) else none

/-- The mapping that one member of `paths` declares: a pattern with a star at the end, and at least
    one target with a star at the end. -/
def AliasMapping.ofMember? (pattern : String) (targets : Json) : Option AliasMapping :=
  match withoutStar? pattern, targets.items? with
  | some start, some items =>
    match items.filterMap fun item => item.string?.bind withoutStar? with
    | [] => none
    | targets => some ⟨start, targets⟩
  | _, _ => none

/-- The members of an object without those that a later member of the same name replaces. -/
def lastMembers : List (String × Json) → List (String × Json)
  | [] => []
  | m :: ms => if ms.any (·.1 == m.1) then lastMembers ms else m :: lastMembers ms

def AliasMapping.size (m : AliasMapping) : Nat := m.start.utf8ByteSize

namespace PathAliases

def ofSettings? (directory : String) (settings : Json) : Option PathAliases := do
  let options ← settings.member? "compilerOptions"
  let baseDir := match (options.member? "baseUrl").bind Json.string? with
    | some base => Path.normalize (Path.join directory base)
    | none => directory
  let members ← (options.member? "paths").bind Json.members?
  match (lastMembers members).filterMap fun m => AliasMapping.ofMember? m.1 m.2 with
  | [] => none
  | mappings => some ⟨baseDir, mappings.mergeSort fun a b => b.size ≤ a.size⟩

/-- The places where a module may be, in order: those of the first mapping that its name starts
    with. -/
def candidates (aliases : PathAliases) (specifier : String) : List String :=
  match aliases.mappings.findSome? fun m =>
      (stripPrefix? m.start.toList specifier.toList).map (m, ·) with
  | some (m, rest) =>
    m.targets.map fun target =>
      Path.normalize (Path.join aliases.baseDir (target ++ String.ofList rest))
  | none => []

/-- The aliases of a project file, and what is said about it in the log. -/
def load (tree : FileTree) (path : String) : Option PathAliases × List LogLine :=
  match tree.readText path with
  | .error e => (none, [⟨.warn, "Cannot read " ++ Path.shown path ++ ": " ++ e.text⟩])
  | .ok content =>
    match Json.parse? (Json.Commented.strip content) with
    | none =>
      (none, [⟨.warn, "Ignoring path aliases in malformed " ++ Path.shown path ++ ": not JSON"⟩])
    | some settings =>
      match ofSettings? ((Path.parent? path).getD ".") settings with
      | none => (none, [])
      | some aliases =>
        (some aliases, [⟨.debug, "Loaded " ++ toString aliases.mappings.length ++
          " path aliases from " ++ Path.shown path⟩])

/-- The project file in a directory: the first of the names that is a file there. -/
def fileIn? (tree : FileTree) (names : List String) (directory : String) : Option String :=
  (names.map (Path.join directory)).find? tree.isFile

end PathAliases

/-! ## Directories and the cache -/

/-- What was found for directories before.  `none` says that there are no usable aliases. -/
structure AliasCache where
  entries : List (List Path.Component × Option PathAliases)

namespace AliasCache

def empty : AliasCache := ⟨[]⟩

def get? (cache : AliasCache) (directory : String) : Option (Option PathAliases) :=
  (cache.entries.find? (·.1 == Path.components directory)).map (·.2)

def insert (cache : AliasCache) (directory : String) (found : Option PathAliases) : AliasCache :=
  ⟨(Path.components directory, found) :: cache.entries⟩

end AliasCache

/-- The aliases in effect, where the list holds a directory and those around it. -/
def aliasesAlong (tree : FileTree) (names : List String) (cache : AliasCache) :
    List String → Option PathAliases
  | [] => none
  | d :: ds =>
    match cache.get? d with
    | some found => found
    | none =>
      match PathAliases.fileIn? tree names d with
      | some file => (PathAliases.load tree file).1
      | none => aliasesAlong tree names cache ds

def newAlong (tree : FileTree) (names : List String) (cache : AliasCache) :
    List String → List String
  | [] => []
  | d :: ds =>
    if (cache.get? d).isSome then []
    else if (PathAliases.fileIn? tree names d).isSome then [d]
    else d :: newAlong tree names cache ds

/-- What a search writes to the log: it reads at most one project file. -/
def linesAlong (tree : FileTree) (names : List String) (cache : AliasCache) :
    List String → List LogLine
  | [] => []
  | d :: ds =>
    if (cache.get? d).isSome then []
    else
      match PathAliases.fileIn? tree names d with
      | some file => (PathAliases.load tree file).2
      | none => linesAlong tree names cache ds

def aliasesFor (tree : FileTree) (names : List String) (cache : AliasCache) (directory : String) :
    Option PathAliases :=
  aliasesAlong tree names cache (Path.ancestors directory)

def AliasCache.visit (tree : FileTree) (names : List String) (cache : AliasCache)
    (directory : String) : AliasCache :=
  let found := aliasesFor tree names cache directory
  (newAlong tree names cache (Path.ancestors directory)).foldl (fun c d => c.insert d found) cache

/-- Go through a trace: the cache that it leaves, and all lines of the log in order. -/
def AliasCache.replay (tree : FileTree) (names : List String) :
    AliasCache → List Event → AliasCache × List LogLine
  | cache, [] => (cache, [])
  | cache, .logged line :: events =>
    let (cache, lines) := replay tree names cache events
    (cache, line :: lines)
  | cache, .aliasesAsked directory :: events =>
    let (after, lines) := replay tree names (cache.visit tree names directory) events
    (after, linesAlong tree names cache (Path.ancestors directory) ++ lines)

end CallAtlas
