import CallAtlas.Syntax.Grammar.Module

/-!
# Statements

A statement that cannot be read does not spoil the list it stands in: what was read of it becomes an
error node, and the list goes on at the next token that can start a statement.
-/

namespace CallAtlas.Syntax.Grammar

open Grower

/-! ## Lists of statements -/

def startsStatement : Token → Bool
  | .word _ | .number | .string => true
  | t => ["\x7b", "\x7d", "(", "[", ";", "+", "-", "!", "~", "/", "<", "`", "@", "++", "--"].any t.spells

/-- Statements as long as `more` holds, each in the role `f` if one is given. -/
def statements (g : Grammar) (more : Grower Bool) : Grower Unit :=
  while_ (return (← more) && !(← seesEnd)) (mending startsStatement (g .statement))

def block (g : Grammar) (inExpression : Bool) : Grower Unit :=
  node .statementBlock do
    token "\x7b"
    statements g (return !(← sees "\x7d"))
    token "\x7d"
    endBlock inExpression

/-! ## Single statements -/

def expressionStatement (g : Grammar) : Grower Unit :=
  node .expressionStatement do
    g (.expressions false)
    endStatement true false

def ifStatement (g : Grammar) : Grower Unit :=
  node .ifStatement do
    token "if"
    field .condition (parenthesized g)
    field .consequence (g .statement)
    if ← sees "else" then
      field .alternative do
        node .elseClause do
          token "else"
          g .statement

def switchCase (g : Grammar) : Grower Unit :=
  nodeOf do
    let isDefault ← sees "default"
    if isDefault then token "default"
    else
      token "case"
      field .value (g (.expressions false))
    token ":"
    statements g (return !(← seesAny ["case", "default", "\x7d"]))
    return if isDefault then .switchDefault else .switchCase

def switchStatement (g : Grammar) : Grower Unit :=
  node .switchStatement do
    token "switch"
    field .value (parenthesized g)
    field .body do
      node .switchBody do
        token "\x7b"
        while_ (return !(← sees "\x7d") && !(← seesEnd)) do
          mending (fun t => ["case", "default", "\x7d"].any t.spells) (switchCase g)
        token "\x7d"

/-- What a loop over the members of a value assigns to.  A `var` may have a first value. -/
def loopTarget (g : Grammar) : Grower Unit := do
  if ← seesVariables then
    let isVar ← sees "var"
    skipToken
    field .left (g .pattern)
    if isVar && (← sees "=") then
      token "="
      field .value (g (.expression true))
  else field .left (g (.unary true))

def seesMemberLoop (g : Grammar) : Grower Bool :=
  ahead do
    token "for"
    discard (optionally "await")
    token "("
    loopTarget g
    tokenOf ["in", "of"]

def memberLoop (g : Grammar) : Grower Unit :=
  node .forInStatement do
    token "for"
    discard (optionally "await")
    token "("
    loopTarget g
    field .operator (tokenOf ["in", "of"])
    field .right (g (.expressions false))
    closing ")"
    field .body (g .statement)

def forStatement (g : Grammar) : Grower Unit :=
  node .forStatement do
    token "for"
    token "("
    if ← sees ";" then node .emptyStatement (token ";")
    else if ← seesVariables then variableList g true fun _ => token ";"
    else
      node .expressionStatement do
        g (.expressions true)
        token ";"
    if ← sees ";" then node .emptyStatement (token ";")
    else
      node .expressionStatement do
        g (.expressions false)
        token ";"
    unless ← sees ")" do g (.expressions false)
    closing ")"
    field .body (g .statement)

def whileStatement (g : Grammar) : Grower Unit :=
  node .whileStatement do
    token "while"
    field .condition (parenthesized g)
    field .body (g .statement)

def doStatement (g : Grammar) : Grower Unit :=
  node .doStatement do
    token "do"
    field .body (g .statement)
    token "while"
    field .condition (parenthesized g)
    unless ← optionally ";" do endBlock false

def tryStatement (g : Grammar) : Grower Unit :=
  node .tryStatement do
    token "try"
    field .body (g (.block false))
    if ← sees "catch" then
      node .catchClause do
        token "catch"
        if ← optionally "(" then
          g .pattern
          if (← isTyped) && (← sees ":") then typeAscription g
          closing ")"
        field .body (g (.block false))
    if ← sees "finally" then
      node .finallyClause do
        token "finally"
        field .body (g (.block false))

/-- The statement ends here, without a value or a label.  Comments in front of a line end belong to
    it. -/
def endsHere : Grower Bool := do
  while_ (return !(← impliedAt false false (← get).here) && !(← get).next.comments.isEmpty)
    takeComment
  return (← impliedAt false false (← get).here) || (← sees ";")

def jump (kind : Kind) (w : String) : Grower Unit :=
  node kind do
    token w
    unless ← endsHere do word .statementIdentifier
    endStatement false false

def returnStatement (g : Grammar) : Grower Unit :=
  node .returnStatement do
    token "return"
    if ← endsHere then endStatement false false
    else
      g (.expressions false)
      endStatement true false

def throwStatement (g : Grammar) : Grower Unit :=
  node .throwStatement do
    token "throw"
    g (.expressions false)
    endStatement true false

def withStatement (g : Grammar) : Grower Unit :=
  node .withStatement do
    token "with"
    field .object (parenthesized g)
    field .body (g .statement)

def debuggerStatement : Grower Unit :=
  node .debuggerStatement do
    token "debugger"
    endStatement false false

def labeledStatement (g : Grammar) : Grower Unit :=
  node .labeledStatement do
    word .statementIdentifier
    token ":"
    field .body (g .statement)

/-! ## All statements -/

def wordStatement (g : Grammar) (w : String) : Grower Unit := do
  if ← seesSecond ":" then labeledStatement g
  else match w with
    | "if" => ifStatement g
    | "switch" => switchStatement g
    | "for" => if ← seesMemberLoop g then memberLoop g else forStatement g
    | "while" => whileStatement g
    | "do" => doStatement g
    | "try" => tryStatement g
    | "with" => withStatement g
    | "break" => jump .breakStatement w
    | "continue" => jump .continueStatement w
    | "return" => returnStatement g
    | "throw" => throwStatement g
    | "debugger" => debuggerStatement
    | "import" =>
      if (← seesSecond "(") || (← seesSecond ".") then expressionStatement g
      else importStatement g
    | _ => expressionStatement g

def statement (g : Grammar) : Grower Unit := do
  if ← sees "\x7b" then g (.block false)
  else if ← sees ";" then node .emptyStatement (token ";")
  else if ← seesExport g then exportStatement g
  else if ← seesDeclaration g then declaration g
  else match ← next with
    | .word w => wordStatement g w
    | _ => expressionStatement g

end CallAtlas.Syntax.Grammar
