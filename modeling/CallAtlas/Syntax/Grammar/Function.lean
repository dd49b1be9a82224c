import CallAtlas.Syntax.Grammar.Type

/-!
# Patterns, parameters and functions

The rules for what a binding introduces, for parameter lists, and for the three ways to write a
function inside an expression.
-/

namespace CallAtlas.Syntax.Grammar

open Grower

/-! ## Patterns -/

def withDefault (g : Grammar) : Grower Unit := do
  if ← sees "=" then
    wrap .assignmentPattern (some .left) do
      token "="
      field .right (g (.expression false))

def restPattern (g : Grammar) : Grower Unit :=
  node .restPattern do
    token "..."
    g .pattern

def patternMember (g : Grammar) : Grower Unit := do
  if ← sees "..." then restPattern g
  else if (← seesWord) && !(← seesSecond ":") then
    take .shorthandPropertyIdentifier
    withDefault g
  else
    node .pairPattern do
      propertyName g
      token ":"
      field .value do
        g .pattern
        withDefault g

def pattern (g : Grammar) : Grower Unit := do
  if ← sees "\x7b" then
    node .objectPattern do
      token "\x7b"
      while_ (return !(← sees "\x7d") && !(← seesEnd)) do
        unless ← optionally "," do
          mending (fun t => t.spells "," || t.spells "\x7d") (patternMember g)
      token "\x7d"
  else if ← sees "[" then
    node .arrayPattern do
      token "["
      items "]" do
        if ← sees "..." then restPattern g
        else
          g .pattern
          withDefault g
  else identifier

/-! ## Decorators -/

def callArguments (g : Grammar) : Grower Unit :=
  node .arguments do
    token "("
    items ")" do
      if ← sees "..." then
        node .spreadElement do
          token "..."
          g (.expression false)
      else g (.expression false)

def decorator (g : Grammar) : Grower Unit :=
  node .decorator do
    token "@"
    if ← sees "(" then
      node .parenthesizedExpression do
        token "("
        g (.expressions false)
        closing ")"
    else
      identifier
      while_ (sees ".") do
        wrap .memberExpression (some .object) do
          token "."
          field .property (word .propertyIdentifier)
      if ← isTyped then
        if ← sees "<" then
          wrap .callExpression (some .callee) do
            typeArguments g
            field .arguments (callArguments g)
      if ← sees "(" then
        wrap .callExpression (some .callee) (field .arguments (callArguments g))

def decorators (g : Grammar) : Grower Unit :=
  while_ (sees "@") (field .decorator (decorator g))

/-! ## Parameters -/

/-- The words that may stand in front of a parameter of the typed dialects. -/
def parameterModifiers : List String := ["public", "private", "protected", "override", "readonly"]

def startsPattern (t : Token) : Bool :=
  t.isWord || t.spells "\x7b" || t.spells "[" || t.spells "..."

def parameter (g : Grammar) : Grower Unit := do
  if ← isTyped then
    nodeOf do
      decorators g
      while_ (return (← seesAny parameterModifiers) && startsPattern (← second).token) skipToken
      if ← sees "..." then restPattern g else g .pattern
      let optional ← optionally "?"
      if ← sees ":" then typeAscription g
      if ← optionally "=" then field .value (g (.expression false))
      return if optional then .optionalParameter else .requiredParameter
  else
    decorators g
    if ← sees "..." then restPattern g
    else
      g .pattern
      withDefault g

def formalParameters (g : Grammar) : Grower Unit :=
  node .formalParameters do
    token "("
    items ")" (parameter g)

/-- What a function takes and gives: type parameters, parameters and the type of its result. -/
def signature (g : Grammar) : Grower Unit := do
  let typed ← isTyped
  if typed && (← sees "<") then typeParameters g
  field .parameters (formalParameters g)
  if typed && (← sees ":") then typeAscription g

/-! ## Functions inside expressions -/

def functionExpression (g : Grammar) : Grower Unit :=
  nodeOf do
    discard (optionally "async")
    token "function"
    let generator ← optionally "*"
    if ← seesWord then field .name identifier
    signature g
    field .body (g (.block true))
    return if generator then .generatorFunction else .functionExpression

def arrowBody (g : Grammar) (noIn : Bool) : Grower Unit := do
  token "=>"
  field .body (if ← sees "\x7b" then g (.block true) else g (.expression noIn))

def bareArrow (g : Grammar) (noIn : Bool) : Grower Unit :=
  node .arrowFunction do
    if (← sees "async") && !(← seesSecond "=>") then token "async"
    field .parameter identifier
    arrowBody g noIn

def listedArrow (g : Grammar) (noIn : Bool) : Grower Unit :=
  node .arrowFunction do
    discard (optionally "async")
    signature g
    arrowBody g noIn

/-- A function with a parameter list comes next.  The list is told from brackets around an
    expression by the arrow behind it.  The brackets are counted first, so that a list with a mistake
    in it is one as well; what counting cannot tell (a type in front of the arrow, a bracket in the
    text of markup) is read. -/
def seesListedArrow (g : Grammar) : Grower Bool := do
  if (← sees "(") && (← behindBrackets).spells "=>" then return true
  else if (← sees "(") || ((← isTyped) && (← sees "<")) then ahead (do signature g; token "=>")
  else return false

def seesAsyncArrow (g : Grammar) : Grower Bool := do
  if (← sees "async") && ((← seesSecond "(") || (← seesSecond "<")) then
    ahead do
      token "async"
      unless ← seesListedArrow g do fail
  else return false

def seesBareArrow : Grower Bool := do
  if !(← seesWord) then return false
  else if ← seesSecond "=>" then return true
  else if (← sees "async") && (← second).token.isWord then
    ahead do
      skipToken
      skipToken
      token "=>"
  else return false

end CallAtlas.Syntax.Grammar
