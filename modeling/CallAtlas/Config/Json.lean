import CallAtlas.Config.Basic
import CallAtlas.Graph.Json

/-!
# Settings as data

Settings are records; all of their fields have to be there.
-/

namespace CallAtlas

open Json (fields? strings? word? string?)

def ProjectConfig.toJson (c : ProjectConfig) : Json :=
  .object [("name", .string c.name), ("source_dirs", .strings c.sourceDirs),
    ("ignore_patterns", .strings c.ignorePatterns), ("snapshot_path", .string c.snapshotPath)]

def ParsingConfig.toJson (c : ParsingConfig) : Json :=
  .object [("extensions", .strings c.extensions), ("max_file_size", .natural c.maxFileSize)]

def ResolutionConfig.toJson (c : ResolutionConfig) : Json :=
  .object [("resolve_suffixes", .strings c.resolveSuffixes),
    ("project_config_files", .strings c.projectConfigFiles),
    ("root_prefixes", .strings c.rootPrefixes)]

def Config.toJson (c : Config) : Json :=
  .object [("project", c.project.toJson), ("parsing", c.parsing.toJson),
    ("resolution", c.resolution.toJson)]

def ProjectConfig.ofJson? (v : Json) : Option ProjectConfig := do
  let [name, sourceDirs, ignorePatterns, snapshotPath] ←
    fields? ["name", "source_dirs", "ignore_patterns", "snapshot_path"] v | none
  return {
    name := ← name.bind string?
    sourceDirs := ← sourceDirs.bind strings?
    ignorePatterns := ← ignorePatterns.bind strings?
    snapshotPath := ← snapshotPath.bind string? }

def ParsingConfig.ofJson? (v : Json) : Option ParsingConfig := do
  let [extensions, maxFileSize] ← fields? ["extensions", "max_file_size"] v | none
  return { extensions := ← extensions.bind strings?, maxFileSize := ← maxFileSize.bind word? }

def ResolutionConfig.ofJson? (v : Json) : Option ResolutionConfig := do
  let [resolveSuffixes, projectConfigFiles, rootPrefixes] ←
    fields? ["resolve_suffixes", "project_config_files", "root_prefixes"] v | none
  return {
    resolveSuffixes := ← resolveSuffixes.bind strings?
    projectConfigFiles := ← projectConfigFiles.bind strings?
    rootPrefixes := ← rootPrefixes.bind strings? }

def Config.ofJson? (v : Json) : Option Config := do
  let [project, parsing, resolution] ← fields? ["project", "parsing", "resolution"] v | none
  return {
    project := ← project.bind ProjectConfig.ofJson?
    parsing := ← parsing.bind ParsingConfig.ofJson?
    resolution := ← resolution.bind ResolutionConfig.ofJson? }

end CallAtlas
