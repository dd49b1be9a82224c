/-!
# Settings

The settings of a project, and what they are if nothing is said.
-/

namespace CallAtlas

structure ProjectConfig where
  name : String
  /-- The directories that are searched for source files. -/
  sourceDirs : List String
  /-- Patterns of files and directories that are left out. -/
  ignorePatterns : List String
  /-- Where the graph is kept, as seen from the root of the project. -/
  snapshotPath : String
  deriving DecidableEq, Repr

structure ParsingConfig where
  /-- The endings of source files. -/
  extensions : List String
  /-- The greatest size in bytes. -/
  maxFileSize : Nat
  deriving DecidableEq, Repr

structure ResolutionConfig where
  /-- What may be added to the name of a module, in the order in which it is tried. -/
  resolveSuffixes : List String
  /-- The names of files that declare aliases. -/
  projectConfigFiles : List String
  /-- The directories at which a path from another machine is taken up. -/
  rootPrefixes : List String
  deriving DecidableEq, Repr

structure Config where
  project : ProjectConfig
  parsing : ParsingConfig
  resolution : ResolutionConfig
  deriving DecidableEq, Repr

def ProjectConfig.standard : ProjectConfig :=
  { name := "Unnamed Project"
    sourceDirs := ["src"]
    ignorePatterns := ["node_modules/", "dist/", "build/", ".next/", "*.d.ts"]
    snapshotPath := ".docgraph/graph.json" }

def ParsingConfig.standard : ParsingConfig :=
  { extensions := ["ts", "tsx", "js", "jsx", "mjs", "cjs", "mts", "cts"]
    maxFileSize := 1024 * 1024 }

def ResolutionConfig.standard : ResolutionConfig :=
  { resolveSuffixes :=
      [".ts", ".tsx", ".js", ".jsx", "/index.ts", "/index.tsx", "/index.js", "/index.jsx"]
    projectConfigFiles := ["tsconfig.json", "jsconfig.json"]
    rootPrefixes := ["src/", "app/", "lib/", "pages/", "packages/", "components/"] }

def Config.standard : Config :=
  { project := .standard, parsing := .standard, resolution := .standard }

end CallAtlas
