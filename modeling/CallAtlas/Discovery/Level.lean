import CallAtlas.Ignore.Rules

/-!
# Rules of directories

Every directory can hold rules about what is left out below it: in a file `.ignore`, and, if it belongs
to a repository, in a file `.gitignore` and in the repository itself.  The rules of the innermost
directory that says something count.  Of the rules of a repository, those outside of the innermost
repository do not count.
-/

namespace CallAtlas

structure Level where
  /-- The rules that always count. -/
  plain : IgnoreRules
  /-- The rules that count inside of a repository. -/
  shared : IgnoreRules
  /-- The rules of the repository that lies here. -/
  own : IgnoreRules
  /-- A repository lies here. -/
  isRepository : Bool

namespace Level

def inDirectory (tree : FileTree) (path : String) : Level :=
  let inside := Path.join path
  { plain := (IgnoreRules.ofFile tree path (inside ".ignore")).1
    shared := (IgnoreRules.ofFile tree path (inside ".gitignore")).1
    own := if tree.isFile (inside ".git") then ⟨path, []⟩
      else (IgnoreRules.ofFile tree path (inside ".git/info/exclude")).1
    isRepository := tree.contains (inside ".git") || tree.contains (inside ".jj") }

def problems (tree : FileTree) (path : String) : List String :=
  [".ignore", ".gitignore", ".git/info/exclude"].flatMap fun name =>
    let file := Path.join path name
    (IgnoreRules.ofFile tree path file).2.map fun (line, e) =>
      file ++ ": line " ++ toString line ++ ": " ++ e.text

def firstVerdict (f : Level → IgnoreRules) (isDirectory : Bool) : List (Level × String) → Verdict
  | [] => .silent
  | (level, path) :: rest =>
    ((f level).verdict path isDirectory).orElse (firstVerdict f isDirectory rest)

/-- The levels up to the first repository, which is included. -/
def withinRepository : List (Level × String) → List (Level × String)
  | [] => []
  | l :: ls => if l.1.isRepository then [l] else l :: withinRepository ls

/-- What the rules of the levels say, the innermost first.  Each level comes with the path as it is
    compared there. -/
def verdict (levels : List (Level × String)) (isDirectory : Bool) : Verdict :=
  let plain := firstVerdict (·.plain) isDirectory levels
  if levels.any (·.1.isRepository) then
    let within := withinRepository levels
    plain.orElse ((firstVerdict (·.shared) isDirectory within).orElse
      (firstVerdict (·.own) isDirectory within))
  else plain

end Level

end CallAtlas
