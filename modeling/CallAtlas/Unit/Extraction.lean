import CallAtlas.Syntax.Program
import CallAtlas.Unit.Calls
import CallAtlas.Unit.Collect
import CallAtlas.Unit.Modules

/-!
# Extraction

Everything that is taken from one file: its units, each with the calls made inside it, its imports,
the names it passes on, and the declarations that had to be left out.

A name may be declared several times.  All declarations are kept here in their order; wherever one
unit is asked for by name, the last declaration of that name counts (`unitNamed`, `callSites`).
-/

namespace CallAtlas

open Syntax

structure ParsedSource where
  path : String
  text : String
  root : Tree

inductive ParseCause where
  | unreadable (reason : String)
  | tooLarge
  | unsupported
  deriving DecidableEq, Repr

def ParseCause.text : ParseCause → String
  | unreadable reason => "unreadable: " ++ reason
  | tooLarge => "exceeds maximum size limit"
  | unsupported => "unsupported file extension"

/-- Read a text.  The size is looked at before the file name. -/
def ParsedSource.ofText (limit : Nat) (path text : String) : Except ParseCause ParsedSource :=
  if limit < text.utf8ByteSize then .error .tooLarge
  else
    match dialectOf? path with
    | none => .error .unsupported
    | some dialect => .ok ⟨path, text, Tree.ofText dialect text⟩

namespace ParsedSource

def findings (s : ParsedSource) : List Finding :=
  CallAtlas.findings s.text (allowsComponents s.path) [] s.root

def candidates (s : ParsedSource) : List Candidate := s.findings.filterMap Finding.candidate?

def issues (s : ParsedSource) : List Issue := s.findings.filterMap Finding.issue?

def unitAlone (s : ParsedSource) (c : Candidate) : CodeUnit :=
  let textOf (t : Option Tree) : String := (t.map (·.text s.text)).getD ""
  { name := c.name
    kind := c.kind
    file := s.path
    params := textOf c.params
    body := textOf c.body
    declaration := c.declaration.text s.text
    firstLine := c.declaration.line
    lastLine := c.declaration.lastLine
    isAsync := c.scope.hasToken "async"
    exported := c.exported
    defaultExport := c.defaultExport
    docs := docOf s.text c.trail }

/-- Mark a unit that is exported somewhere else in its file. -/
def markExports (listed : List String) (default? : Option String) (u : CodeUnit) : CodeUnit :=
  let isDefault := default? == some u.name
  { u with
    exported := u.exported || listed.contains u.name || isDefault
    defaultExport := u.defaultExport || isDefault }

def unitOf (s : ParsedSource) (c : Candidate) : CodeUnit :=
  markExports (listedNames s.text s.root) (defaultName s.text s.root) (s.unitAlone c)

def units (s : ParsedSource) : List CodeUnit := s.candidates.map s.unitOf

def unitsWithCalls (s : ParsedSource) : List (CodeUnit × List CallSite) :=
  s.candidates.map fun c => (s.unitOf c, callsIn s.text c.above c.scope)

end ParsedSource

structure Extraction where
  units : List (CodeUnit × List CallSite)
  imports : List Import
  reExports : List ReExport
  issues : List Issue
  deriving DecidableEq, Repr

def Extraction.ofSource (s : ParsedSource) : Extraction :=
  { units := s.unitsWithCalls
    imports := importsIn s.text s.root
    reExports := reExportsIn s.text s.root
    issues := s.issues }

def unitNamed (name : String) (units : List CodeUnit) : Option CodeUnit :=
  units.reverse.find? (·.name == name)

/-- The calls made inside the last unit called `owner`; none if there is no such unit. -/
def Extraction.callSites (e : Extraction) (owner : String) : List CallSite :=
  ((e.units.reverse.find? (·.1.name == owner)).map (·.2)).getD []

end CallAtlas
