import CallAtlas.Graph.Basic

/-!
# Connections beside calls

A framework connects units in ways that no call shows: a request reaches a route, a message reaches a
listener.  A `Hint` is such a connection as seen from the unit it starts at.  `KnownFiles` are the
units that a hint can lead to.
-/

namespace CallAtlas

inductive HintTarget where
  /-- The name of a route, an event or a task. -/
  | literal (text : String)
  /-- A name in the scope of the unit, to be resolved like a call. -/
  | symbol (name : String)
  deriving DecidableEq, Repr

/-- A connection that no call shows. -/
structure Hint where
  kind : EdgeKind
  target : HintTarget
  label : Option String
  order : Option Nat
  deriving DecidableEq, Repr

/-- The units of every file of a project: files in the order of their paths, the units of each in the
    order in which they were added. -/
structure KnownFiles where
  files : List (String × List String)
  deriving Repr

namespace KnownFiles

def empty : KnownFiles := ⟨[]⟩

def insertInto (file unit : String) : List (String × List String) → List (String × List String)
  | [] => [(file, [unit])]
  | (f, units) :: rest =>
    if file == f then (f, units ++ [unit]) :: rest
    else if file < f then (file, [unit]) :: (f, units) :: rest
    else (f, units) :: insertInto file unit rest

def insert (known : KnownFiles) (file unit : String) : KnownFiles :=
  ⟨insertInto file unit known.files⟩

def ofPairs (pairs : List (String × String)) : KnownFiles :=
  pairs.foldl (fun known p => known.insert p.1 p.2) empty

def paths (known : KnownFiles) : List String := known.files.map (·.1)

def unitsIn (known : KnownFiles) (file : String) : List String :=
  ((known.files.find? (·.1 == file)).map (·.2)).getD []

def find (known : KnownFiles) (file name : String) : Option String :=
  if (known.unitsIn file).contains name then some (nodeId file name) else none

end KnownFiles

/-- What is known about one framework: the entry points it has, the connections that its idioms make,
    and where a connection by name leads. -/
structure Framework where
  name : String
  /-- The way in which control comes to a unit from outside; the path is within the project. -/
  entryPoint : CodeUnit → String → Option EntryPoint
  /-- The connections that start at a unit. -/
  hints : CodeUnit → List Hint
  /-- The id of the unit that a hint by name leads to. -/
  resolve : Hint → KnownFiles → Option String

end CallAtlas
