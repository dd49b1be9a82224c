import CallAtlas.Graph.Facts
import CallAtlas.Resolve.Specifier

/-!
# What a call reaches

A bare call reaches a unit of the same file, or one that is imported under that name.  `this.name` in a
method reaches another method of the same class, and `ns.name` a unit of a module that is imported as
`ns`.  Other calls reach nothing.  A module may pass a name on from another module; such chains are
followed for at most `maxHops` steps.

All of this is a function of the facts about the files, the ids of the nodes, and the resolution of
module names.
-/

namespace CallAtlas

open Text

structure Scope where
  facts : List FileFacts
  /-- The units of the graph, in the order of their ids. -/
  nodes : List Node
  /-- The file that the name of a module means in a file. -/
  resolve : String → String → Option String

def maxHops : Nat := 5

namespace Scope

def factsAt (s : Scope) (path : String) : Option FileFacts :=
  s.facts.find? fun f => samePath f.path path

def hasNode (s : Scope) (id : String) : Bool := s.nodes.any (·.id == id)

def definedIn (s : Scope) (f : FileFacts) (name : String) : Option String :=
  let id := nodeId f.relative name
  if s.hasNode id then some id else none

/-- The id of the unit that a file itself provides under a name. -/
def providedBy (s : Scope) (f : FileFacts) (name : String) : Option String :=
  if name == "default" then
    (f.units.find? (·.1.defaultExport)).map fun u => nodeId f.relative u.1.name
  else s.definedIn f name

/-- The name in the other module that a file passes on under `name`. -/
def passedOn (r : ReExport) (name : String) : Option String :=
  if r.exportedName == name then some r.nameInModule
  else if r.exportedName == "*" && name != "default" then some name
  else none

def resolved (s : Scope) (file specifier : String) : Traced (Option String) :=
  ⟨s.resolve file specifier, Specifier.events file specifier⟩

def firstOf {α β : Type} (f : α → Traced (Option β)) : List α → Traced (Option β)
  | [] => pure none
  | a :: as => do
    match ← f a with
    | some b => return some b
    | none => firstOf f as

/-- The id of the unit that a module exports under a name, where the name may be passed on for at most
    `hops` more steps. -/
def lookupExport (s : Scope) : Nat → String → String → Traced (Option String)
  | hops, path, name =>
    match s.factsAt path with
    | none => pure none
    | some f =>
      match s.providedBy f name with
      | some id => pure (some id)
      | none =>
        match hops with
        | 0 => do
          Traced.debug ("Re-export chain for " ++ name ++ " exceeded depth " ++
            toString maxHops ++ " at " ++ f.relative)
          return none
        | hops + 1 =>
          firstOf (fun r => do
            match passedOn r name with
            | none => return none
            | some inner =>
              match ← s.resolved f.path r.specifier with
              | none => return none
              | some target => lookupExport s hops target inner) f.reExports

def classOf? (u : CodeUnit) : Option String :=
  if u.kind = .method then (cutAt (· = '.') u.name.toList).map fun p => String.ofList p.1 else none

def localTarget (s : Scope) (f : FileFacts) (caller : CodeUnit) (name expression : String) :
    Option String :=
  if expression == name then s.definedIn f name
  else if expression == "this." ++ name then
    (classOf? caller).bind fun c => s.definedIn f (c ++ "." ++ name)
  else none

/-- The name in the other module that a call reaches through an import. -/
def importedName (i : Import) (name expression : String) : Option String :=
  match i.kind with
  | .namespace =>
    match cutAt (· = '.') expression.toList with
    | some (object, member) =>
      if String.ofList object == i.localName && String.ofList member == name then some name
      else none
    | none => none
  | .default | .named =>
    if expression == name && i.localName == name then some i.nameInModule else none

def importTarget (s : Scope) (f : FileFacts) (name expression : String) (i : Import) :
    Traced (Option String) := do
  match importedName i name expression with
  | none => return none
  | some inner =>
    match ← s.resolved f.path i.specifier with
    | none => return none
    | some target => s.lookupExport maxHops target inner

/-- The unit that a call of `expression`, whose last part is `name`, reaches. -/
def resolveCall (s : Scope) (f : FileFacts) (caller : CodeUnit) (name expression : String) :
    Traced (Option String) :=
  match s.localTarget f caller name expression with
  | some id => pure (some id)
  | none => firstOf (s.importTarget f name expression) f.imports

/-- The first node whose entry point is what `text` names. -/
def entryPointNamed (s : Scope) (kind : EdgeKind) (text : String) : Option String :=
  (s.nodes.find? fun n => (n.entryPoint.map (·.accepts kind text)).getD false).map (·.id)

end Scope

end CallAtlas
