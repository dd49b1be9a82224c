import CallAtlas.Command.Help
import CallAtlas.Command.Run
import CallAtlas.Files.Changes
import CallAtlas.Time.Epoch
import Std.Time.DateTime.Timestamp

/-!
# The program

The program works in the directory that the environment names as the current one.  It reads the names
of the files that it may see from standard input, one to a line; a name that ends with a slash is a
directory.  The files are read once, the command is carried out on that picture of them, and what it
changed is written back.  The log goes to standard error.
-/

namespace CallAtlas.Program

partial def readLines (input : IO.FS.Stream) : IO (List String) := do
  let line ← input.getLine
  if line.isEmpty then return []
  else
    let rest ← readLines input
    return String.ofList (Text.dropEndWhile (· = '\n') line.toList) :: rest

def addEntry (root : String) (tree : FileTree) (name : String) : IO FileTree := do
  let path := Path.join root name
  if name.toList.getLast? = some '/' then
    return (tree.createDirectories path).toOption.getD tree
  else
    try
      return withFile tree path (← IO.FS.readBinFile path)
    catch
      | .permissionDenied .. =>
        let tree := withFile tree path .empty
        return ((tree.locate path).toOption.map (tree.insert · .locked)).getD tree
      | e => throw e
where
  withFile (tree : FileTree) (path : String) (bytes : ByteArray) : FileTree :=
    ((makeParent tree path).bind (·.write path bytes)).toOption.getD tree

def apply : Change → IO Unit
  | .makeDirectory l => IO.FS.createDirAll (Location.path l)
  | .writeFile l bytes => IO.FS.writeBinFile (Location.path l) bytes

def shown (l : LogLine) : String :=
  (match l.level with
    | .debug => "DEBUG "
    | .info => "INFO "
    | .warn => "WARN ") ++ l.text

def now : IO Instant := do
  let nanos := (← Std.Time.Timestamp.now).toNanosecondsSinceUnixEpoch.val.toNat
  match Instant.ofNanos? nanos with
  | some i => return i
  | none => throw (IO.userError "the clock is out of range")

def run (i : Command.Invocation) : IO UInt32 := do
  let root := (← IO.getEnv "PWD").getD "/"
  let names ← readLines (← IO.getStdin)
  let start := (FileTree.empty.createDirectories root).toOption.getD .empty
  let before ← names.foldlM (addEntry root) start
  IO.eprintln ("INFO Starting docgraph v" ++ version)
  let result := i.run before root .empty (← now)
  (before.changesTo result.tree).forM apply
  IO.print result.output
  result.lines.forM fun l => IO.eprintln (shown l)
  match result.failure with
  | none => return 0
  | some e =>
    IO.eprintln ("Error: " ++ e.text)
    return 1

end CallAtlas.Program

def main (args : List String) : IO UInt32 := do
  match CallAtlas.Command.Invocation.ofArgs args with
  | .ok i => CallAtlas.Program.run i
  | .error e =>
    if e.isRequest then
      IO.print e.text
      return 0
    else
      IO.eprint e.text
      return 2
