import CallAtlas.Files.Tree

/-!
# Changes to a tree of files

What has to be done to turn one tree into a later one that has lost nothing.
-/

namespace CallAtlas

inductive Change where
  | makeDirectory (l : Location)
  | writeFile (l : Location) (bytes : ByteArray)
  deriving DecidableEq

namespace FileTree

/-- The steps from a tree to a later one, in the order in which the entries came. -/
def changesTo (before after : FileTree) : List Change :=
  after.entries.filterMap fun (l, e) =>
    if before.entryAt l = some e then none
    else
      match e with
      | .directory => some (.makeDirectory l)
      | .file bytes => some (.writeFile l bytes)
      -- No step of a run locks a file.
      | .locked => none

end FileTree

def Location.path (l : Location) : String := "/" ++ "/".intercalate l

end CallAtlas
