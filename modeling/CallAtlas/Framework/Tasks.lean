import CallAtlas.Framework.Hint
import CallAtlas.Framework.Scan
import CallAtlas.Framework.SourcePath

/-!
# Background tasks

A file below `jobs`, `workers` or `tasks` handles the task of its own name.  Tasks are put into a queue
by that name.
-/

namespace CallAtlas.Tasks

open Text Scan SourcePath

/-- The names that mark the handler of a task, in the order in which they are looked for. -/
def handlerNames : List String := ["handler", "run", "perform", "process"]

def isTaskFile (path : String) : Bool :=
  match behindFirst (behindOneOf ["jobs", "workers", "tasks"]) (Path.pieces path) with
  | some behind => (behind.getLast?.bind stem?).any (!·.isEmpty)
  | none => false

/-- The task that a file handles: the name of the file, or of its directory if the file is an
    index. -/
def taskId? (path : String) : Option String :=
  match Path.fileStem? path with
  | none => none
  | some "index" => (Path.pieces path).reverse[1]?
  | some stem => some stem

def entryPoint (u : CodeUnit) (path : String) : Option EntryPoint :=
  if isTaskFile path && u.exported && (u.defaultExport || handlerNames.contains u.name) then
    (taskId? path).map .backgroundTask
  else none

/-- `queue.add("…")`, `tasks.trigger("…")`, `enqueue("…")`. -/
def dispatchCall : Matcher String := fun inWord cs =>
  match (anyOf? [".add(", ".enqueue(", ".trigger("] cs).or
      (if inWord then none else anyOf? ["enqueue("] cs) with
  | some (_, rest) =>
    (quotedAll? isNameChar (rest.dropWhile isBlank)).map fun (task, rest) =>
      (String.ofList task, rest)
  | none => none

def hints (u : CodeUnit) : List Hint :=
  (matchesIn dispatchCall u.body).map fun task =>
    { kind := .asyncDispatch, target := .literal task, label := some ("dispatch " ++ task),
      order := none }

/-- The handler of a task: the first in the order of the files. -/
def resolve (hint : Hint) (known : KnownFiles) : Option String :=
  match hint.kind, hint.target with
  | .asyncDispatch, .literal task =>
    (known.paths.filter fun file => isTaskFile file && taskId? file == some task).findSome?
      fun file => handlerNames.findSome? (known.find file)
  | _, _ => none

def framework : Framework := { name := "background-task", entryPoint, hints, resolve }

end CallAtlas.Tasks
