import CallAtlas.Syntax.Tree
import CallAtlas.Unit.Basic

/-!
# The calls inside a node

`callsIn` lists what is called inside a node.  Each call comes with its guards: the conditions that
have to hold for the call to be reached, as far as they show in the tree.  A guard is contributed by
the step from a node to one of its children (`guardFor`): into a branch of a choice, into a case of a
selection, into the right side of a logical operator.

The same expression is listed once, where it is called first.
-/

namespace CallAtlas

open Syntax Text

def condensed (source : String) (t : Tree) : String :=
  let text := trim (t.text source).toList
  let text :=
    if t.kind = .parenthesizedExpression then
      match text with
      | '(' :: cs => if cs.getLast? = some ')' then cs.dropLast else text
      | _ => text
    else text
  String.ofList (joinWith [' '] (words text))

def negated (condition : String) : String := "!(" ++ condition ++ ")"

/-- What the selection around a case selects on; `above` are the nodes around the case, the innermost
    first. -/
def discriminant? (source : String) (above : List Tree) : Option String :=
  match above with
  | _ :: selection :: _ => (selection.childIn .value).map (condensed source)
  | _ => none

/-- The child is the first one of its parent in the role `f`; `before` are its elder siblings. -/
def isIn (f : Field) (before : List Tree) (child : Tree) : Bool :=
  child.field == some f && !before.any fun t => t.field == some f

/-- The guard that the step from `parent` to `child` contributes; `above` are the nodes around
    `parent`, `before` the elder siblings of `child`. -/
def guardFor (source : String) (above : List Tree) (parent : Tree) (before : List Tree)
    (child : Tree) : Option String :=
  match parent.kind with
  | .ifStatement | .ternaryExpression =>
    (parent.childIn .condition).bind fun c =>
      let condition := condensed source c
      if isIn .consequence before child then some condition
      else if isIn .alternative before child || child.kind == .elseClause then
        some (negated condition)
      else none
  | .switchCase =>
    if isIn .value before child then none
    else
      (parent.childIn .value).bind fun value =>
        (discriminant? source above).map fun subject =>
          subject ++ " === " ++ condensed source value
  | .switchDefault => (discriminant? source above).map (· ++ " (default)")
  | .binaryExpression =>
    if isIn .right before child then
      (parent.childIn .operator).bind fun operator =>
        (parent.childIn .left).bind fun left =>
          match operator.text source with
          | "&&" => some (condensed source left)
          | "||" => some (negated (condensed source left))
          | _ => none
    else none
  | _ => none

/-- The call of `callee` under the guards given.  Only names and members can be called by name. -/
def callOf (source : String) (guards : List String) (callee : Tree) : Option CallSite :=
  match callee.kind with
  | .identifier =>
    let text := callee.text source
    if text.isEmpty then none else some ⟨text, text, guards⟩
  | .memberExpression =>
    (callee.childIn .property).bind fun property =>
      let name := property.text source
      if name.isEmpty then none else some ⟨name, callee.text source, guards⟩
  | _ => none

def ownCall (source : String) (guards : List String) (t : Tree) : Option CallSite :=
  match t.kind with
  | .callExpression | .newExpression => (t.childIn .callee).bind (callOf source guards)
  | _ => none

mutual

/-- All calls in a node, in the order of the text; `above` are the nodes around it, the innermost
    first. -/
def occurrences (source : String) (above : List Tree) (guards : List String) :
    Tree → List CallSite
  | .node k f s m cs =>
    (ownCall source guards (.node k f s m cs)).toList ++
      occurrencesIn source above (.node k f s m cs) guards [] cs

/-- All calls in the children of `parent`; `before` are the children already seen, the latest
    first. -/
def occurrencesIn (source : String) (above : List Tree) (parent : Tree) (guards : List String)
    (before : List Tree) : List Tree → List CallSite
  | [] => []
  | t :: ts =>
    occurrences source (parent :: above)
        (guards ++ (guardFor source above parent before t).toList) t ++
      occurrencesIn source above parent guards (t :: before) ts

end

/-- The calls without those whose expression occurs before; `seen` are the expressions so far. -/
def firstCalls (seen : List String) : List CallSite → List CallSite
  | [] => []
  | c :: cs =>
    if seen.contains c.expression then firstCalls seen cs
    else c :: firstCalls (c.expression :: seen) cs

/-- What is called inside a node; `above` are the nodes around it, the innermost first. -/
def callsIn (source : String) (above : List Tree) (scope : Tree) : List CallSite :=
  firstCalls [] (occurrences source above [] scope)

end CallAtlas
