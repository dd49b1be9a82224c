import CallAtlas.Config.Basic
import CallAtlas.Discovery.Level
import CallAtlas.Failure
import CallAtlas.Log.Trace

/-!
# Finding source files

The directories of a project are walked through for files with the right endings.  What the patterns
of the project leave out is left out; otherwise the rules in the directories decide.  The directory that
a walk starts at is never left out itself.
-/

namespace CallAtlas

open Text

/-- The patterns of a project, seen from its root: what they fit is left out. -/
def overrideRules (root : String) : List String → Except Failure IgnoreRules
  | [] => .ok ⟨root, []⟩
  | pattern :: patterns =>
    match IgnoreRule.ofLine false ("!" ++ pattern) with
    | .error e => .error (.ignorePattern pattern e.text)
    | .ok rule =>
      match overrideRules root patterns with
      | .error e => .error e
      | .ok rules => .ok { rules with rules := rule.toList ++ rules.rules }

structure Walk where
  tree : FileTree
  overrides : IgnoreRules
  /-- The path the walk starts at. -/
  start : String
  /-- The same path without points. -/
  base : String
  /-- The directories around the start, the nearest first. -/
  outer : List Level

namespace Walk

def wholePath (w : Walk) (path : String) : String :=
  let cs := path.toList
  let rest := (stripPrefix? w.start.toList cs).getD cs
  Path.join w.base (String.ofList (stripChar '/' rest))

/-- What is at `path` is left out; `inner` are the directories from there up to the start. -/
def leavesOut (w : Walk) (inner : List Level) (path : String) (isDirectory : Bool) : Bool :=
  let chosen := (w.overrides.verdict path isDirectory).invert
  let levels := inner.map (·, path) ++ w.outer.map (·, w.wholePath path)
  chosen.orElse (Level.verdict levels isDirectory) == .ignore

def filesBelow (w : Walk) : Nat → List Level → Location → String → List String
  | 0, _, _, _ => []
  | depth + 1, inner, location, path =>
    let inner := Level.inDirectory w.tree path :: inner
    (w.tree.namesIn location).flatMap fun name =>
      let child := Path.join path name
      match w.tree.entryAt (location ++ [name]) with
      | some (.file _) | some .locked => if w.leavesOut inner child false then [] else [child]
      | some .directory =>
        if w.leavesOut inner child true then []
        else w.filesBelow depth inner (location ++ [name]) child
      | none => []

/-- All files of a walk.  No directory is deeper than there are entries. -/
def files (w : Walk) : List String :=
  match w.tree.locate w.start with
  | .error _ => []
  | .ok location =>
    match w.tree.entryAt location with
    | some (.file _) | some .locked => [w.start]
    | some .directory => w.filesBelow (w.tree.entries.length + 1) [] location w.start
    | none => []

end Walk

/-- The directories around a location, the nearest first. -/
def pathsAround (location : Location) : List String :=
  (List.range location.length).reverse.map fun n => "/" ++ "/".intercalate (location.take n)

def walkFrom (tree : FileTree) (overrides : IgnoreRules) (start : String) :
    Except Failure (List String) :=
  match tree.locate start with
  | .error e => .error (.fileSystem e.text)
  | .ok location =>
    let around := pathsAround location
    match around.reverse.flatMap (Level.problems tree) with
    | [] => .ok (Walk.files
        { tree, overrides, start
          base := "/" ++ "/".intercalate location
          outer := around.map (Level.inDirectory tree) })
    | problems => .error (.fileSystem ("\n".intercalate problems))

def hasExtension (extensions : List String) (path : String) : Bool :=
  match Path.extension? path with
  | some e => extensions.contains e
  | none => false

def dropRepeated (paths : List String) : List String :=
  match paths with
  | [] => []
  | p :: ps => p :: go p ps
where
  go (last : String) : List String → List String
    | [] => []
    | p :: ps => if Path.components p == Path.components last then go last ps else p :: go p ps

def walkAll (tree : FileTree) (root : String) (overrides : IgnoreRules) :
    List String → Traced (Except Failure (List String))
  | [] => pure (.ok [])
  | dir :: dirs => do
    let start := Path.join root dir
    if tree.contains start then
      match walkFrom tree overrides start with
      | .error e => return .error e
      | .ok files =>
        let rest ← walkAll tree root overrides dirs
        return rest.map (files ++ ·)
    else
      Traced.warn ("Source directory " ++ Path.shown start ++ " does not exist")
      walkAll tree root overrides dirs

/-- The source files below the directories, sorted, each once. -/
def discover (tree : FileTree) (root : String) (config : Config) (dirs : List String) :
    Traced (Except Failure (List String)) := do
  match overrideRules root config.project.ignorePatterns with
  | .error e => return .error e
  | .ok overrides =>
    let found ← walkAll tree root overrides dirs
    return found.map fun files =>
      dropRepeated ((files.filter (hasExtension config.parsing.extensions)).mergeSort
        fun a b => !Path.lt b a)

end CallAtlas
