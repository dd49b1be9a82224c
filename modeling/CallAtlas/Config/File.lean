import CallAtlas.Config.Json
import CallAtlas.Failure
import CallAtlas.Toml.Document
import CallAtlas.Toml.Printer

/-!
# Settings in files

The settings of a project stand in a file of its root.  A file that does not exist leaves the
standard settings; a file that cannot be read as settings is a failure.
-/

namespace CallAtlas

open Toml (line tableText written writtenList)

namespace Config

def fileText (c : Config) : String :=
  "\n".intercalate [
    tableText "project" [
      line "name" (written c.project.name),
      line "source_dirs" (writtenList c.project.sourceDirs),
      line "ignore_patterns" (writtenList c.project.ignorePatterns),
      line "snapshot_path" (written c.project.snapshotPath)],
    tableText "parsing" [
      line "extensions" (writtenList c.parsing.extensions),
      line "max_file_size" (toString c.parsing.maxFileSize)],
    tableText "resolution" [
      line "resolve_suffixes" (writtenList c.resolution.resolveSuffixes),
      line "project_config_files" (writtenList c.resolution.projectConfigFiles),
      line "root_prefixes" (writtenList c.resolution.rootPrefixes)]]

def ofText? (text : String) : Option Config := (Toml.parse? text).bind Config.ofJson?

def load (tree : FileTree) (path : String) : Except Failure Config :=
  match tree.readText path with
  | .error e => .error (.io e)
  | .ok text =>
    match ofText? text with
    | some c => .ok c
    | none => .error (.config "not a settings file")

/-- The file that `init` writes, and the first that is looked for. -/
def fileName : String := "docgraph.toml"

def fileNames : List String := [fileName, "Docgraph.toml", ".docgraph.toml"]

/-- The file that holds the settings: the one that was named, or the first known one in the root. -/
def fileIn? (tree : FileTree) (root : String) (named : Option String) : Option String :=
  match named with
  | some path => some path |>.filter tree.contains
  | none => (fileNames.map (Path.join root)).find? tree.contains

def loadOrStandard (tree : FileTree) (root : String) (named : Option String) :
    Except Failure Config :=
  match fileIn? tree root named with
  | some path => load tree path
  | none => .ok standard

def save (c : Config) (tree : FileTree) (path : String) : Except Failure FileTree :=
  match tree.write path c.fileText.toUTF8 with
  | .error e => .error (.io e)
  | .ok tree => .ok tree

end Config

end CallAtlas
