import CallAtlas.Command.Options

/-!
# The command line

The four commands with their options.  `Invocation.ofArgs` reads a command line; what stands behind
the name of a command belongs to it, and is looked at before the options in front are settled.
-/

namespace CallAtlas.Command

inductive Task where
  /-- Write standard settings to a directory. -/
  | init (path : Option String)
  /-- Make the graph and write it to a file. -/
  | build (sources : List String) (output : Option String)
  /-- Compare the graph in a file with the sources. -/
  | check (snapshot : Option String) (failOnStale : Bool)
  /-- List the units of a file. -/
  | symbols (file : String)
  deriving DecidableEq, Repr

structure Invocation where
  config : Option String
  verbose : Bool
  task : Task
  deriving DecidableEq, Repr

def helpOption : OptionShape := ⟨"help", some 'h', .help⟩

def taskNames : List String := ["init", "build", "check", "symbols"]

def helpName : String := "help"

def frontShape : CommandShape :=
  { options := [⟨"config", some 'c', .single⟩, ⟨"verbose", some 'v', .flag⟩, helpOption,
      ⟨"version", some 'V', .version⟩]
    operands := []
    commands := taskNames ++ [helpName] }

def taskShape : String → CommandShape
  | "init" => ⟨[⟨"path", some 'p', .single⟩, helpOption], [], []⟩
  | "build" =>
    ⟨[⟨"source", some 's', .repeated⟩, ⟨"output", some 'o', .single⟩, helpOption], [], []⟩
  | "check" =>
    ⟨[⟨"snapshot", some 's', .single⟩, ⟨"fail-on-stale", none, .flag⟩, helpOption], [], []⟩
  | _ => ⟨[helpOption], ["file"], []⟩

def taskOf (name : String) (r : Reading) : Except UsageError Task :=
  match name with
  | "init" => .ok (.init (r.value? "path"))
  | "build" => .ok (.build (r.valuesOf "source") (r.value? "output"))
  | "check" => .ok (.check (r.value? "snapshot") (r.flags.contains "fail-on-stale"))
  | _ =>
    match r.value? "file" with
    | some file => .ok (.symbols file)
    | none => .error .missingOperand

def readTask (name : String) (words : List String) : Except UsageError Task := do
  let (r, _) ← (taskShape name).read .start words
  taskOf name (← r.settle)

/-- The topic that help is asked for: no command, a command, or help itself. -/
def readTopic : List String → UsageError
  | [] => .helpAsked
  | [topic] => if frontShape.commands.contains topic then .helpAsked else .unknownCommand
  | [outer, topic] =>
    if outer = helpName && frontShape.commands.contains topic then .helpAsked else .unknownCommand
  | _ => .unknownCommand

def Invocation.ofArgs (words : List String) : Except UsageError Invocation := do
  match ← frontShape.read .start words with
  | (r, some (name, rest)) =>
    if name = helpName then throw (readTopic rest)
    else
      let task ← readTask name rest
      let r ← r.settle
      return { config := r.value? "config", verbose := r.flags.contains "verbose", task }
  | (r, none) =>
    let r ← r.settle
    throw (if r.isEmpty then .nothingGiven else .missingCommand)

end CallAtlas.Command
