import CallAtlas.Config.Basic
import CallAtlas.Resolve.Aliases

/-!
# Names of modules

A module is named by a path that is seen from the importing file, or by an alias.  `resolve` finds the
file that is meant: the first of the candidates that is a file.
-/

namespace CallAtlas.Specifier

open Text

def isRelative (specifier : String) : Bool :=
  specifier == "." || specifier == ".." || startsWith "./" specifier.toList ||
    startsWith "../" specifier.toList

/-- The endings of compiled files, each with the endings of the sources that they may stand for. -/
def extensionSwaps : List (String × List String) :=
  [("js", ["ts", "tsx"]), ("jsx", ["tsx"]), ("mjs", ["mts"]), ("cjs", ["cts"])]

def withExtension (path old new : String) : String :=
  String.ofList (path.toList.take (path.length - old.length)) ++ new

/-- The path with the endings of sources, if it has the ending of a compiled file. -/
def swapped (base : String) : List String :=
  match Path.extension? base with
  | some old =>
    match extensionSwaps.find? (·.1 == old) with
    | some (_, news) => news.map (withExtension base old)
    | none => []
  | none => []

/-- The files that a path may stand for, in the order in which they are tried. -/
def candidatesAt (suffixes : List String) (base : String) : List String :=
  base :: swapped base ++ suffixes.map (base ++ ·)

def directoryOf (file : String) : String := (Path.parent? file).getD "."

def bases (tree : FileTree) (names : List String) (cache : AliasCache) (fromFile specifier : String) :
    List String :=
  if isRelative specifier then [Path.normalize (Path.join (directoryOf fromFile) specifier)]
  else
    match aliasesFor tree names cache (directoryOf fromFile) with
    | some aliases => aliases.candidates specifier
    | none => []

def resolve (tree : FileTree) (config : ResolutionConfig) (cache : AliasCache)
    (fromFile specifier : String) : Option String :=
  ((bases tree config.projectConfigFiles cache fromFile specifier).flatMap
    (candidatesAt config.resolveSuffixes)).find? tree.isFile

/-- The trace of looking up a name: aliases are only asked for if the name is no path. -/
def events (fromFile specifier : String) : List Event :=
  if isRelative specifier then [] else [.aliasesAsked (directoryOf fromFile)]

end CallAtlas.Specifier
