import CallAtlas.Syntax.Tree
import CallAtlas.Unit.Basic

/-!
# What a file takes from and gives to other modules

Imports and exports stand at the top level of a file.  Those that concern types only are left out,
because nothing is called through them.
-/

namespace CallAtlas

open Syntax Text

def unquoted (text : String) : String :=
  String.ofList
    (trimMatches (fun c => c = doubleQuote || c = singleQuote || c = backtick) text.toList)
where
  doubleQuote : Char := Char.ofNat 0x22
  singleQuote : Char := Char.ofNat 0x27
  backtick : Char := Char.ofNat 0x60

def specifierOf (source : String) (statement : Tree) : Option String :=
  (statement.childIn .source).map fun t => unquoted (t.text source)

/-- The name in one specifier of a list, with its new name if it has one; specifiers of types have
    none. -/
def specifierNames (source : String) (spec : Tree) : Option (String × Option String) :=
  if spec.hasToken "type" then none
  else (spec.childIn .name).map fun name =>
    (unquoted (name.text source), (spec.childIn .alias).map (·.text source))

/-! ## Imports -/

def importsOfPart (source specifier : String) (part : Tree) : List Import :=
  match part.kind with
  | .identifier => [⟨part.text source, "default", specifier, .default⟩]
  | .namespaceImport =>
    ((part.childOf .identifier).map fun t => (⟨t.text source, "*", specifier, .namespace⟩ : Import)).toList
  | .namedImports =>
    (part.children.filter (·.kind == .importSpecifier)).filterMap fun spec =>
      (specifierNames source spec).map fun (name, alias?) =>
        ⟨alias?.getD name, name, specifier, .named⟩
  | _ => []

def importsOf (source : String) (statement : Tree) : List Import :=
  if statement.kind = .importStatement && !statement.hasToken "type" then
    match specifierOf source statement with
    | none => []
    | some specifier =>
      (statement.children.filter (·.kind == .importClause)).flatMap fun clause =>
        clause.children.flatMap (importsOfPart source specifier)
  else []

def importsIn (source : String) (root : Tree) : List Import :=
  root.children.flatMap (importsOf source)

/-! ## Exports -/

def reExportsOf (source : String) (statement : Tree) : List ReExport :=
  if statement.kind = .exportStatement && !statement.hasToken "type" then
    match specifierOf source statement with
    | none => []
    | some specifier =>
      match statement.childOf .exportClause with
      | some clause =>
        (clause.children.filter (·.kind == .exportSpecifier)).filterMap fun spec =>
          (specifierNames source spec).map fun (name, alias?) =>
            ⟨(alias?.map unquoted).getD name, name, specifier⟩
      | none =>
        if (statement.childOf .namespaceExport).isNone && !statement.hasToken "as" &&
            statement.hasToken "*" then [⟨"*", "*", specifier⟩]
        else []
  else []

def reExportsIn (source : String) (root : Tree) : List ReExport :=
  root.children.flatMap (reExportsOf source)

def isOwnExport (statement : Tree) : Bool :=
  statement.kind == .exportStatement && (statement.childIn .source).isNone

def ownSpecifiers (statement : Tree) : List Tree :=
  match statement.childOf .exportClause with
  | some clause => clause.children
  | none => []

/-- The name that one statement exports by default.  The outer `none` says that the statement exports
    nothing by default, the inner one that what it exports has no name. -/
def defaultNameOf (source : String) (statement : Tree) : Option (Option String) :=
  if !isOwnExport statement then none
  else if statement.hasToken "default" then
    match statement.childIn .declaration with
    | some declaration => some ((declaration.childIn .name).map (·.text source))
    | none =>
      match statement.childIn .value with
      | some value => some (if value.kind = .identifier then some (value.text source) else none)
      | none => some none
  else
    ((ownSpecifiers statement).find? fun spec =>
      (spec.childIn .alias).map (·.text source) == some "default").map fun spec =>
        (spec.childIn .name).map (·.text source)

/-- The name that a file exports by default, if it is one: the first default export decides. -/
def defaultName (source : String) (root : Tree) : Option String :=
  (root.children.findSome? (defaultNameOf source)).join

def listedNames (source : String) (root : Tree) : List String :=
  (root.children.filter isOwnExport).flatMap fun statement =>
    (ownSpecifiers statement).filterMap fun spec => (spec.childIn .name).map (·.text source)

end CallAtlas
