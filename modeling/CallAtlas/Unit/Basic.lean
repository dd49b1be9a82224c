import CallAtlas.Digest.Content
import CallAtlas.Doc.Comment
import CallAtlas.Path.Basic
import CallAtlas.Syntax.Dialect

/-!
# Units and what surrounds them in a file

A unit is a named piece of code that can be documented on its own: a function, a class, a constant
that can be called, a method, or a component that renders markup.  A file holds units, the calls made
inside each of them, and the names it takes from and passes on to other modules.
-/

namespace CallAtlas

inductive UnitKind where
  | function
  | class_
  | callableConstant
  | method
  | component
  deriving DecidableEq, Repr

def UnitKind.text : UnitKind → String
  | function => "function"
  | class_ => "class"
  | callableConstant => "callable-constant"
  | method => "method"
  | component => "component"

def UnitKind.ofText? : String → Option UnitKind
  | "function" => some function
  | "class" => some class_
  | "callable-constant" => some callableConstant
  | "method" => some method
  | "component" => some component
  | _ => none

structure CodeUnit where
  /-- The declared name; a method's name has the name of its class in front. -/
  name : String
  kind : UnitKind
  /-- The file it was found in, as it was given. -/
  file : String
  /-- The text of the parameters, with brackets if there are any. -/
  params : String
  body : String
  /-- The text of the whole declaration. -/
  declaration : String
  firstLine : Nat
  lastLine : Nat
  isAsync : Bool
  exported : Bool
  defaultExport : Bool
  docs : Option DocComment
  deriving DecidableEq, Repr

/-- The digest of a unit.  Its name, its place and its exports do not count. -/
def CodeUnit.hash (u : CodeUnit) : String := Digest.contentHash u.params u.body

structure CallSite where
  /-- The name that is called, without what it is a member of. -/
  callee : String
  /-- The whole expression that is called. -/
  expression : String
  /-- The conditions under which the call is made, the outermost first. -/
  guards : List String
  deriving DecidableEq, Repr

inductive ImportKind where
  | default
  | named
  | namespace
  deriving DecidableEq, Repr

structure Import where
  /-- The name in this file. -/
  localName : String
  /-- The name in the other module: `default` for its default, `*` for all of it. -/
  nameInModule : String
  specifier : String
  kind : ImportKind
  deriving DecidableEq, Repr

structure ReExport where
  /-- The name under which it is passed on, `*` for all names. -/
  exportedName : String
  nameInModule : String
  specifier : String
  deriving DecidableEq, Repr

structure Issue where
  line : Nat
  message : String
  deriving DecidableEq, Repr

open Syntax (Dialect)

/-- The dialect a file is written in, by the ending of its name. -/
def dialectOf? (path : String) : Option Dialect :=
  match Path.extension? path with
  | some "ts" | some "mts" | some "cts" => some .typeScript
  | some "tsx" => some .tsx
  | some "js" | some "jsx" | some "mjs" | some "cjs" => some .javaScript
  | _ => none

/-- Markup is at home in the file, so that its units may be components. -/
def allowsComponents (path : String) : Bool :=
  Path.extension? path == some "tsx" || Path.extension? path == some "jsx"

end CallAtlas
