import CallAtlas.Syntax.Grammar.Class
import CallAtlas.Syntax.Grammar.Markup

/-!
# Expressions

Operators are read by level: a phrase `operators n` takes all operators that bind at least as tightly
as level `n`.  An operand takes its suffixes (members, calls, templates) as they come, each one
wrapping what was read so far.  An assignment is read where its left side is found, whatever stands
around it.
-/

namespace CallAtlas.Syntax.Grammar

open Grower

/-! ## Operators -/

/-- The level of a binary operator; a higher level binds more tightly. -/
def operatorLevel : String → Option Nat
  | "??" => some 1
  | "||" => some 2
  | "&&" => some 3
  | "|" => some 4
  | "^" => some 5
  | "&" => some 6
  | "==" | "!=" | "===" | "!==" => some 7
  | "<" | "<=" | ">" | ">=" | "in" | "instanceof" => some 8
  | "<<" | ">>" | ">>>" => some 9
  | "+" | "-" => some 10
  | "*" | "/" | "%" => some 11
  | "**" => some 12
  | _ => none

/-- The level of `as` and `satisfies`, which have a type on their right. -/
def castLevel : Nat := 8

def augmentedAssignments : List String :=
  ["+=", "-=", "*=", "/=", "%=", "**=", "<<=", ">>=", ">>>=", "&=", "^=", "|=", "&&=", "||=", "??="]

/-- The tokens in front of which a missing operand is supplied. -/
def followsOperand (t : Token) : Bool :=
  [";", ")", "]", "\x7d", ",", ":", "=", "=>"].any t.spells

/-! ## Operands -/

def parenthesized (g : Grammar) : Grower Unit :=
  node .parenthesizedExpression do
    token "("
    g (.expressions false)
    if (← isTyped) && (← sees ":") then typeAscription g
    closing ")"

def array (g : Grammar) : Grower Unit :=
  node .array do
    token "["
    items "]" do
      if ← sees "..." then
        node .spreadElement do
          token "..."
          g (.expression false)
      else g (.expression false)

def property (g : Grammar) : Grower Unit := do
  if ← sees "..." then
    node .spreadElement do
      token "..."
      g (.expression false)
  else if ← seesMethod g then method g
  else if (← seesWord) && !(← seesSecond ":") then
    take .shorthandPropertyIdentifier
    withDefault g
  else
    node .pair do
      propertyName g
      token ":"
      field .value (g (.expression false))

def object (g : Grammar) : Grower Unit :=
  node .object do
    token "\x7b"
    while_ (return !(← sees "\x7d") && !(← seesEnd)) do
      unless ← optionally "," do
        mending (fun t => t.spells "," || t.spells "\x7d") do
          property g
          unless ← seesAny [",", "\x7d"] do fail
    token "\x7d"

def importExpression : Grower Unit := do
  if ← seesSecond "." then
    node .metaProperty do
      token "import"
      token "."
      word .propertyIdentifier
  else take .importExpression

def wordOperand (g : Grammar) (noIn : Bool) (w : String) : Grower Unit := do
  if ← seesBareArrow then bareArrow g noIn
  else if ← seesAsyncArrow g then listedArrow g noIn
  else match w with
    | "function" => functionExpression g
    | "async" =>
      if (← seesSecond "function") && !(← second).newline then functionExpression g
      else identifier
    | "class" => classExpression g
    | "this" => take .thisExpression
    | "super" => take .superExpression
    | "true" | "false" | "null" | "undefined" => take .literal
    | "import" => importExpression
    | _ => identifier

def operand (g : Grammar) (noIn : Bool) : Grower Unit := do
  match ← next with
  | .word w => wordOperand g noIn w
  | .number => take .number
  | .string => take .string
  | .privateName => take .privatePropertyIdentifier
  | .punct "`" => templateString g
  | .punct "/" | .punct "/=" => regularExpression
  | .punct "(" => if ← seesListedArrow g then listedArrow g noIn else parenthesized g
  | .punct "[" => array g
  | .punct "\x7b" => object g
  | .punct "@" => classExpression g
  | .punct "<" =>
    if ← seesListedArrow g then listedArrow g noIn
    else if (← dialect).hasMarkup then g .element
    else
      node .typeAssertion do
        typeArguments g
        g (.unary noIn)
  | t => if followsOperand t then supply .identifier else fail

/-! ## Suffixes -/

def startsSuffix : Grower Bool := do
  if ← seesAny [".", "?.", "[", "(", "`"] then return true
  else if ← isTyped then
    return ((← sees "!") && !(← newline)) || (← sees "<")
  else return false

def memberName : Grower Unit :=
  field .property do
    match ← next with
    | .word _ => take .propertyIdentifier
    | .privateName => take .privatePropertyIdentifier
    | t => if followsOperand t then supply .propertyIdentifier else fail

def subscript (g : Grammar) : Grower Unit := do
  token "["
  g (.expressions false)
  closing "]"

/-- The token can stand behind an operand with type arguments that is not called. -/
def endsInstance (t : Token) : Bool :=
  [";", ")", "]", "\x7d", ",", ":"].any t.spells || t == .endOfInput

/-- One suffix of an operand, without calls if `calls` is false.  Tell whether there was one. -/
def suffix (g : Grammar) (calls : Bool) : Grower Bool := do
  if ← sees "." then
    wrap .memberExpression (some .object) do
      token "."
      memberName
    return true
  else if ← sees "[" then
    wrap .subscriptExpression (some .object) (subscript g)
    return true
  else if !calls then return false
  else if ← sees "?." then
    if ← seesSecond "(" then
      wrap .callExpression (some .callee) do
        node .optionalChain (token "?.")
        field .arguments (callArguments g)
    else if ← seesSecond "[" then
      wrap .subscriptExpression (some .object) do
        node .optionalChain (token "?.")
        subscript g
    else if (← isTyped) && (← seesSecond "<") then
      wrap .callExpression (some .callee) do
        node .optionalChain (token "?.")
        typeArguments g
        field .arguments (callArguments g)
    else
      wrap .memberExpression (some .object) do
        node .optionalChain (token "?.")
        memberName
    return true
  else if ← sees "(" then
    wrap .callExpression (some .callee) (field .arguments (callArguments g))
    return true
  else if ← sees "`" then
    wrap .callExpression (some .callee) (field .arguments (templateString g))
    return true
  else if (← sees "!") && !(← newline) then
    wrap .nonNullExpression none (token "!")
    return true
  else if ← sees "<" then
    if ← ahead (do typeArguments g; unless ← seesAny ["(", "`"] do fail) then
      wrap .callExpression (some .callee) do
        typeArguments g
        field .arguments (if ← sees "(" then callArguments g else templateString g)
      return true
    else if ← ahead (do typeArguments g; unless endsInstance (← next) do fail) then
      wrap .instantiationExpression none (typeArguments g)
      return true
    else return false
  else return false

def suffixes (g : Grammar) (calls : Bool) : Nat → Grower Unit
  | 0 => return ()
  | fuel + 1 => do
    if ← startsSuffix then
      if ← suffix g calls then suffixes g calls fuel

def suffixBound : Grower Nat := do
  let s ← get
  return s.size - s.here.offset + 1

/-- What is constructed by `new`: an operand with its members, but without calls. -/
def constructed (g : Grammar) (noIn : Bool) : Grower Unit := do
  if ← sees "new" then g (.unary noIn)
  else
    operand g noIn
    suffixes g false (← suffixBound)

def newExpression (g : Grammar) (noIn : Bool) : Grower Unit := do
  if ← seesSecond "." then
    node .metaProperty do
      token "new"
      token "."
      word .propertyIdentifier
  else
    node .newExpression do
      token "new"
      field .callee (constructed g noIn)
      if (← isTyped) && (← sees "<") then
        if ← ahead (do typeArguments g; unless (← sees "(") || endsInstance (← next) do fail) then
          typeArguments g
      if ← sees "(" then field .arguments (callArguments g)

def suffixed (g : Grammar) (noIn : Bool) : Grower Unit := do
  if ← sees "new" then newExpression g noIn else operand g noIn
  suffixes g true (← suffixBound)
  if (← seesAny ["++", "--"]) && !(← newline) then
    wrap .updateExpression none (field .operator skipToken)
  else if ← sees "=" then
    wrap .assignmentExpression (some .left) do
      token "="
      field .right (g (.expression noIn))
  else if ← seesAny augmentedAssignments then
    wrap .augmentedAssignmentExpression (some .left) do
      field .operator skipToken
      field .right (g (.expression noIn))

def yielded (g : Grammar) (noIn : Bool) : Grower Unit := do
  if ← optionally "*" then g (.expression noIn)
  else
    let t ← next
    unless (← newline) || followsOperand t || t == .endOfInput || t.spells "in" do
      g (.expression noIn)

def unary (g : Grammar) (noIn : Bool) : Grower Unit := do
  match ← next with
  | .punct "!" | .punct "~" | .punct "-" | .punct "+" | .word "typeof" | .word "void"
  | .word "delete" =>
    node .unaryExpression do
      field .operator skipToken
      g (.unary noIn)
  | .punct "++" | .punct "--" =>
    node .updateExpression do
      field .operator skipToken
      g (.unary noIn)
  | .word "await" =>
    if followsOperand (← second).token then suffixed g noIn
    else
      node .awaitExpression do
        token "await"
        g (.unary noIn)
  | .word "yield" =>
    node .yieldExpression do
      token "yield"
      yielded g noIn
  | _ => suffixed g noIn

/-! ## Binary operators -/

/-- The level of the binary operator that comes next, if it belongs here. -/
def nextLevel (noIn : Bool) : Grower (Option Nat) := do
  let t ← next
  match t with
  | .punct p => return operatorLevel p
  | .word w =>
    if noIn && w == "in" then return none
    else if (w == "as" || w == "satisfies") && (← isTyped) && !(← newline) then
      return some castLevel
    else if w == "in" || w == "instanceof" then return operatorLevel w
    else return none
  | _ => return none

def rightPart (g : Grammar) (noIn : Bool) (level : Nat) : Grower Unit := do
  if ← sees "as" then
    wrap .asExpression none do
      token "as"
      if ← sees "const" then skipToken else g .type
  else if ← sees "satisfies" then
    wrap .satisfiesExpression none do
      token "satisfies"
      g .type
  else
    wrap .binaryExpression (some .left) do
      field .operator skipToken
      -- powers group to the right, all others to the left
      field .right (g (.operators (if level = 12 then level else level + 1) noIn))

def operators (g : Grammar) (level : Nat) (noIn : Bool) : Grower Unit := do
  g (.unary noIn)
  while_ (return ((← nextLevel noIn).map (fun l => decide (level ≤ l))).getD false) do
    rightPart g noIn ((← nextLevel noIn).getD level)

/-- The first branch of a condition.  Brackets in front of a colon may be parameters in front of the
    type of an arrow function, but only if a colon is left for the second branch. -/
def consequence (g : Grammar) : Grower Unit := do
  if (← isTyped) && (← sees "(") && (← behindBrackets).spells ":" && (← seesListedArrow g) then
    unless ← attempt (do g (.expression false); unless ← sees ":" do fail) do parenthesized g
  else g (.expression false)

def branches (g : Grammar) (noIn : Bool) : Grower Unit := do
  token "?"
  field .consequence (consequence g)
  token ":"
  field .alternative (g (.expression noIn))

def expression (g : Grammar) (noIn : Bool) : Grower Unit := do
  g (.operators 1 noIn)
  if ← sees "?" then
    wrap .ternaryExpression (some .condition) (branches g noIn)

def expressions (g : Grammar) (noIn : Bool) : Grower Unit := do
  g (.expression noIn)
  if ← sees "," then
    wrap .sequenceExpression none do
      while_ (sees ",") do
        token ","
        g (.expression noIn)

end CallAtlas.Syntax.Grammar
