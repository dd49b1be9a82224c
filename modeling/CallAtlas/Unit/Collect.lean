import CallAtlas.Syntax.Tree
import CallAtlas.Text.Uppercase
import CallAtlas.Unit.Basic

/-!
# Declarations that are units

`findings` walks through a syntax tree and reports what it declares: functions, classes with their
methods, and variables bound to a function, at any depth.  A declaration that has no readable name,
or that holds a syntax error, is reported as an issue instead.  A broken class still gives the methods
that are whole.

A declaration is found together with its `Trail`, the way from the root to it, because its comment
and its exports stand outside of it.
-/

namespace CallAtlas

open Syntax Text

/-! ## Places in a tree -/

/-- One step down a tree: the node it starts from, and the elder siblings of the child it goes to,
    the nearest first. -/
structure Step where
  parent : Tree
  before : List Tree

/-- The way from the root to a node, the last step first. -/
abbrev Trail := List Step

/-- The nodes around a place, the innermost first. -/
def Trail.above (trail : Trail) : List Tree := trail.map (·.parent)

def Trail.parent? (trail : Trail) : Option Tree := trail.head?.map (·.parent)

def Trail.previous? (trail : Trail) : Option Tree := trail.head?.bind (·.before.head?)

/-- The children of a node with the trails that lead to them; `before` are the elder siblings. -/
def childrenFrom (parent : Tree) (trail : Trail) (before : List Tree) :
    List Tree → List (Trail × Tree)
  | [] => []
  | t :: ts => (⟨parent, before⟩ :: trail, t) :: childrenFrom parent trail (t :: before) ts

def placesIn (parent : Tree) (trail : Trail) : List (Trail × Tree) :=
  childrenFrom parent trail [] parent.children

/-! ## Exports and comments around a declaration -/

/-- The declaration stands directly in an export, and whether that is the default export. -/
def exportFlags (trail : Trail) : Bool × Bool :=
  match trail.parent? with
  | some p => if p.kind = .exportStatement then (true, p.hasToken "default") else (false, false)
  | none => (false, false)

def isNamedDefault (trail : Trail) (t : Tree) : Bool :=
  (t.childIn .name).isSome && exportFlags trail == (true, true)

/-- The sibling in front of a declaration, or of the export it stands in. -/
def anchorPrevious? (trail : Trail) : Option Tree :=
  if (exportFlags trail).1 then Trail.previous? (trail.drop 1) else trail.previous?

def docOf (source : String) (trail : Trail) : Option DocComment :=
  (anchorPrevious? trail).bind fun t =>
    let text := t.text source
    if t.kind = .comment && DocComment.isDoc text.toList then DocComment.ofRaw? text else none

/-! ## Declarations -/

structure Candidate where
  name : String
  kind : UnitKind
  /-- The nodes around the scope, the innermost first. -/
  above : List Tree
  /-- What the unit covers: its calls are looked for here. -/
  scope : Tree
  /-- The whole declaration: text, lines and comment are taken from it. -/
  declaration : Tree
  /-- The way to the declaration. -/
  trail : Trail
  params : Option Tree
  body : Option Tree
  exported : Bool
  defaultExport : Bool

inductive Finding where
  | candidate (c : Candidate)
  | issue (i : Issue)

def Finding.candidate? : Finding → Option Candidate
  | candidate c => some c
  | issue _ => none

def Finding.issue? : Finding → Option Issue
  | candidate _ => none
  | issue i => some i

def nameOf (source : String) (t : Tree) (name : Option Tree) : Except Issue String :=
  match name with
  | none => .error ⟨t.line, t.kind.label ++ " without a name"⟩
  | some n =>
    let text := n.text source
    if (trim text.toList).isEmpty then .error ⟨t.line, "unreadable name for " ++ t.kind.label⟩
    else .ok text

def brokenIssue (t : Tree) (name : String) : Issue :=
  ⟨t.line, "'" ++ name ++ "' contains syntax errors"⟩

def unlessBroken (t : Tree) (name : String) (found : Candidate) : Finding :=
  if t.hasError then .issue (brokenIssue t name) else .candidate found

/-- A unit with an upper-case name and markup in its body is a component, where components are at
    home; otherwise it is of the sort `other`. -/
def kindOf (components : Bool) (name : String) (body : Option Tree) (other : UnitKind) : UnitKind :=
  if components && (name.toList.head?.map isUppercase).getD false &&
      (body.map Tree.hasMarkup).getD false then .component
  else other

def functionFindings (source : String) (components : Bool) (trail : Trail) (t : Tree) :
    List Finding :=
  match nameOf source t (t.childIn .name) with
  | .error i => [.issue i]
  | .ok name =>
    let body := t.childIn .body
    let (exported, defaultExport) := exportFlags trail
    [unlessBroken t name
      { name, kind := kindOf components name body .function, above := trail.above, scope := t,
        declaration := t, trail, params := t.childIn .parameters, body, exported, defaultExport }]

/-- A method of the class `className`, directly in the class body. -/
def methodFindings (source : String) (className : String) (exported : Bool) (trail : Trail)
    (t : Tree) : List Finding :=
  if t.kind = .methodDefinition then
    match nameOf source t (t.childIn .name) with
    | .error i => [.issue i]
    | .ok name =>
      let qualified := className ++ "." ++ name
      [unlessBroken t qualified
        { name := qualified, kind := .method, above := trail.above, scope := t, declaration := t,
          trail, params := t.childIn .parameters, body := t.childIn .body, exported,
          defaultExport := false }]
  else []

def placeIn? (f : Field) (t : Tree) (trail : Trail) : Option (Trail × Tree) :=
  (placesIn t trail).find? fun p => p.2.field == some f

/-- A class and its methods.  A class without a name gives nothing. -/
def classFindings (source : String) (components : Bool) (trail : Trail) (t : Tree) :
    List Finding :=
  match t.childIn .name with
  | none => []
  | some n =>
    match nameOf source t (some n) with
    | .error i => [.issue i]
    | .ok name =>
      let body := t.childIn .body
      let (exported, defaultExport) := exportFlags trail
      let own := unlessBroken t name
        { name, kind := kindOf components name body .class_, above := trail.above, scope := t,
          declaration := t, trail, params := none, body, exported, defaultExport }
      let methods := match placeIn? .body t trail with
        | none => []
        | some (bodyTrail, b) =>
          (placesIn b bodyTrail).flatMap fun (trail, m) =>
            methodFindings source name exported trail m
      own :: methods

def isFunctionValue (t : Tree) : Bool :=
  t.kind == .arrowFunction || t.kind == .functionExpression

/-- A declaration of variables.  Only the first variable counts, and only if it is one name bound to
    a function. -/
def variableFindings (source : String) (components : Bool) (trail : Trail) (t : Tree) :
    List Finding :=
  match (placesIn t trail).find? fun p => p.2.kind == .variableDeclarator with
  | none => []
  | some (declaratorTrail, declarator) =>
    match placeIn? .value declarator declaratorTrail with
    | none => []
    | some (valueTrail, value) =>
      let name? := declarator.childIn .name
      if !isFunctionValue value then []
      else if (name?.map fun n => n.kind != .identifier).getD false then []
      else
        match nameOf source t name? with
        | .error i => [.issue i]
        | .ok name =>
          let body := value.childIn .body
          let (exported, defaultExport) := exportFlags trail
          let params := (value.childIn .parameters).or (value.childIn .parameter)
          [unlessBroken t name
            { name, kind := kindOf components name body .callableConstant,
              above := valueTrail.above, scope := value, declaration := t, trail, params, body,
              exported, defaultExport }]

def ownFindings (source : String) (components : Bool) (trail : Trail) (t : Tree) :
    List Finding :=
  match t.kind with
  | .functionDeclaration | .generatorFunctionDeclaration =>
    functionFindings source components trail t
  | .classDeclaration | .abstractClassDeclaration => classFindings source components trail t
  | .lexicalDeclaration | .variableDeclaration => variableFindings source components trail t
  | .classExpression =>
    if isNamedDefault trail t then classFindings source components trail t else []
  | .functionExpression =>
    if isNamedDefault trail t then functionFindings source components trail t else []
  | _ => []

mutual

def findings (source : String) (components : Bool) (trail : Trail) : Tree → List Finding
  | .node k f s m cs =>
    ownFindings source components trail (.node k f s m cs) ++
      findingsIn source components trail (.node k f s m cs) [] cs

/-- What the children of `parent` declare; `before` are the children already seen, the latest
    first. -/
def findingsIn (source : String) (components : Bool) (trail : Trail) (parent : Tree)
    (before : List Tree) : List Tree → List Finding
  | [] => []
  | t :: ts =>
    findings source components (⟨parent, before⟩ :: trail) t ++
      findingsIn source components trail parent (t :: before) ts

end

end CallAtlas
