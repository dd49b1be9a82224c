import CallAtlas.Files.Tree
import CallAtlas.Ignore.Glob
import CallAtlas.Text.Blank

/-!
# Rules about what to leave out

A list of rules stands in a file, one rule to a line, and concerns the paths below the directory of
that file.  A rule is a glob; with `!` in front it keeps what other rules leave out, and with a slash
at the end it concerns directories only.  A glob with a slash at the start or inside is seen from the
directory of the list, any other fits at every depth.  The last rule that fits decides.
-/

namespace CallAtlas

open Text

structure IgnoreRule where
  glob : Glob
  /-- The rule keeps what it fits. -/
  keeps : Bool
  directoriesOnly : Bool

inductive Verdict where
  | silent
  | ignore
  | keep
  deriving DecidableEq, Repr

namespace Verdict

def orElse : Verdict → Verdict → Verdict
  | silent, v => v
  | v, _ => v

/-- What was to be kept is left out, and the other way round. -/
def invert : Verdict → Verdict
  | silent => silent
  | ignore => keep
  | keep => ignore

end Verdict

structure RuleError where
  line : String
  cause : GlobError
  deriving DecidableEq, Repr

def RuleError.text (e : RuleError) : String :=
  "error parsing glob '" ++ e.line ++ "': " ++ e.cause.text

/-- The text without a slash at the end, and whether there was one. -/
def dropSlash (cs : List Char) : List Char × Bool :=
  if cs.getLast? == some '/' then
    let shorter := cs.dropLast
    (if shorter.getLast? == some '\\' then shorter.dropLast else shorter, true)
  else (cs, false)

def startsRecursive (cs : List Char) : Bool := startsWith "**/" cs || cs == ['*', '*']

/-- The glob of a rule, as it is seen from the directory of the list. -/
def anchoredGlob (anchored : Bool) (cs : List Char) : List Char :=
  let glob := if anchored || cs.contains '/' || startsRecursive cs then cs
    else '*' :: '*' :: '/' :: cs
  if (stripPrefix? ['*', '*', '/'] glob.reverse).isSome then glob ++ ['/', '*'] else glob

/-- The line of a list without blanks at the end, unless the last of them is escaped. -/
def ruleLine (cs : List Char) : List Char :=
  if (stripPrefix? [' ', '\\'] cs.reverse).isSome then cs else trimEnd cs

/-- The rule without the signs in front: whether it keeps, whether it is seen from the directory of the
    list, and its glob. -/
def ruleSigns (cs : List Char) : Bool × Bool × List Char :=
  match cs with
  | '\\' :: '!' :: rest => (false, false, '!' :: rest)
  | '\\' :: '#' :: rest => (false, false, '#' :: rest)
  | '!' :: '/' :: rest => (true, true, rest)
  | '!' :: rest => (true, false, rest)
  | '/' :: rest => (false, true, rest)
  | cs => (false, false, cs)

/-- The rule in a line; comments and empty lines hold none. -/
def IgnoreRule.ofLine (plainAllowed : Bool) (line : String) :
    Except RuleError (Option IgnoreRule) :=
  let cs := ruleLine line.toList
  if line.toList.head? == some '#' || cs.isEmpty then .ok none
  else
    let (keeps, anchored, glob) := ruleSigns cs
    let (glob, directoriesOnly) := dropSlash glob
    match Glob.parse plainAllowed (String.ofList (anchoredGlob anchored glob)) with
    | .ok glob => .ok (some { glob, keeps, directoriesOnly })
    | .error cause => .error ⟨String.ofList cs, cause⟩

structure IgnoreRules where
  root : String
  rules : List IgnoreRule

namespace IgnoreRules

def seenFrom (root path : String) : List UInt8 :=
  let cs := path.toList
  match stripPrefix? root.toList cs with
  | some rest => if cs.contains '/' then (String.ofList (stripChar '/' rest)).toUTF8.toList
    else path.toUTF8.toList
  | none => path.toUTF8.toList

def verdict (rules : IgnoreRules) (path : String) (isDirectory : Bool) : Verdict :=
  let seen := seenFrom rules.root path
  match rules.rules.reverse.find? fun r =>
      (!r.directoriesOnly || isDirectory) && r.glob.fits seen with
  | some r => if r.keeps then .keep else .ignore
  | none => .silent

/-- The lines of a file of rules; marks of the byte order in front of them are dropped. -/
def fileLines (text : String) : List String :=
  (lines (text.toList.dropWhile (· = Char.ofNat 0xfeff))).map String.ofList

/-- The rules in a file, seen from `root`, and the lines that hold no rule, with their numbers. -/
def ofFile (tree : FileTree) (root file : String) : IgnoreRules × List (Nat × RuleError) :=
  match tree.readText file with
  | .error _ => (⟨root, []⟩, [])
  | .ok text =>
    let read := (fileLines text).map (IgnoreRule.ofLine true)
    (⟨root, read.filterMap fun r => r.toOption.join⟩,
      read.zipIdx.filterMap fun (r, i) =>
        match r with
        | .error e => some (i + 1, e)
        | .ok _ => none)

end IgnoreRules

end CallAtlas
