import CallAtlas.Syntax.Grammar.Function

/-!
# Classes

A class body is a list of members.  Whether a member is a method or a field shows behind its name, so
the head of a member is looked at before its node is opened.
-/

namespace CallAtlas.Syntax.Grammar

open Grower

def memberModifiers : List String :=
  ["public", "private", "protected", "static", "abstract", "override", "readonly", "declare",
   "async", "accessor", "get", "set"]

/-- The words in front of the name of a member.  Such a word is the name itself unless a name
    follows. -/
def modifiers : Grower Unit := do
  while_ (return (← seesAny memberModifiers) &&
      (namesMember (← second).token || (← seesSecond "*"))) skipToken
  discard (optionally "*")

def seesParameters : Grower Bool := do
  return (← sees "(") || ((← isTyped) && (← sees "<"))

def seesMethod (g : Grammar) : Grower Bool :=
  ahead do
    decorators g
    modifiers
    unless ← sees "(" do propertyName g
    if ← isTyped then discard (optionally "?")
    unless ← seesParameters do fail

/-- A method, or in the typed dialects only its head.  A missing name is supplied. -/
def method (g : Grammar) : Grower Unit :=
  nodeOf do
    decorators g
    modifiers
    field .name (if ← sees "(" then supply .propertyIdentifier else propertyName g)
    if ← isTyped then discard (optionally "?")
    signature g
    if ← sees "\x7b" then
      field .body (g (.block false))
      return .methodDefinition
    else if ← isTyped then
      unless ← optionally "," do endStatement false true
      return .methodSignature
    else fail

def fieldDefinition (g : Grammar) : Grower Unit :=
  node .fieldDefinition do
    decorators g
    modifiers
    field .name (propertyName g)
    let typed ← isTyped
    if typed then discard (do if ← seesAny ["?", "!"] then skipToken)
    if typed && (← sees ":") then typeAscription g
    let valued ← optionally "="
    if valued then field .value (g (.expression false))
    unless ← optionally "," do endStatement valued false

def member (g : Grammar) : Grower Unit := do
  if ← sees ";" then token ";"
  else if (← sees "static") && (← seesSecond "\x7b") then
    node .staticBlock do
      token "static"
      field .body (g (.block false))
  else if (← isTyped) && (← ahead do modifiers; token "["; identifier; token ":") then
    node .indexSignature do
      modifiers
      bracketed g
      if ← sees ":" then typeAscription g
      unless ← optionally "," do endStatement false false
  else if ← seesMethod g then
    if ← isTyped then decorators g
    method g
  else fieldDefinition g

def startsMember (t : Token) : Bool :=
  namesMember t || [";", "\x7d", "*", "@", "("].any t.spells

def classBody (g : Grammar) : Grower Unit :=
  node .classBody do
    token "\x7b"
    while_ (return !(← sees "\x7d") && !(← seesEnd)) (mending startsMember (member g))
    token "\x7d"

def classHeritage (g : Grammar) : Grower Unit := do
  if ← seesAny ["extends", "implements"] then
    node .classHeritage do
      if ← optionally "extends" then
        g (.unary false)
        if (← isTyped) && (← sees "<") then typeArguments g
      if ← isTyped then
        if ← optionally "implements" then
          g .type
          while_ (sees ",") do
            token ","
            g .type

def seesClassName : Grower Bool := do
  return (← seesWord) && !(← sees "extends") && !((← isTyped) && (← sees "implements"))

def classTail (g : Grammar) : Grower Unit := do
  if ← seesClassName then field .name identifier
  if (← isTyped) && (← sees "<") then typeParameters g
  classHeritage g
  field .body (g .classBody)

def classExpression (g : Grammar) : Grower Unit :=
  node .classExpression do
    decorators g
    token "class"
    classTail g

end CallAtlas.Syntax.Grammar
