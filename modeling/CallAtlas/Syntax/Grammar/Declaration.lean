import CallAtlas.Syntax.Grammar.Expression

/-!
# Declarations

Functions, classes, variables, and the declarations of the typed dialects.  Many of the words that
start a declaration of a typed dialect are ordinary names as well; the token behind such a word
decides.
-/

namespace CallAtlas.Syntax.Grammar

open Grower

/-! ## Functions, classes, variables -/

def functionDeclaration (g : Grammar) : Grower Unit :=
  nodeOf do
    discard (optionally "async")
    token "function"
    let generator ← optionally "*"
    field .name identifier
    signature g
    if (← isTyped) && !(← sees "\x7b") then
      endStatement false true
      return .functionSignature
    else
      field .body (g (.block false))
      return if generator then .generatorFunctionDeclaration else .functionDeclaration

def seesFunction : Grower Bool := do
  if (← sees "function") || ((← sees "async") && (← seesSecond "function") && !(← second).newline) then
    ahead do
      discard (optionally "async")
      token "function"
      discard (optionally "*")
      identifier
  else return false

def classDeclaration (g : Grammar) : Grower Unit :=
  nodeOf do
    decorators g
    let abstract_ ← optionally "abstract"
    token "class"
    unless ← seesClassName do fail
    classTail g
    unless abstract_ do endBlock false
    return if abstract_ then .abstractClassDeclaration else .classDeclaration

def seesClass (g : Grammar) : Grower Bool := do
  if ← seesAny ["class", "@", "abstract"] then
    ahead do
      decorators g
      if ← isTyped then discard (optionally "abstract")
      token "class"
      unless ← seesClassName do fail
  else return false

def variableDeclarator (g : Grammar) (noIn : Bool) : Grower Unit :=
  node .variableDeclarator do
    field .name (g .pattern)
    if ← isTyped then
      discard (optionally "!")
      if ← sees ":" then typeAscription g
    if ← optionally "=" then field .value (g (.expression noIn))

/-- Variables up to the end of their statement, which `finish` reads; it is told whether an
    expression came last. -/
def variableList (g : Grammar) (noIn : Bool) (finish : Bool → Grower Unit) : Grower Unit :=
  nodeOf do
    let kind := if ← sees "var" then Kind.variableDeclaration else .lexicalDeclaration
    tokenOf ["var", "let", "const"]
    variableDeclarator g noIn
    while_ (sees ",") do
      token ","
      variableDeclarator g noIn
    let last := (← get).made.head?
    finish ((last.bind (Tree.childIn .value)).isSome)
    return kind

/-- A declaration of variables comes next; `let` may be a name. -/
def seesVariables : Grower Bool := do
  if ← seesAny ["var", "const"] then return true
  else if ← sees "let" then
    let t := (← second).token
    return (t.isWord && !t.spells "in" && !t.spells "instanceof") || t.spells "[" || t.spells "\x7b"
  else return false

/-! ## Declarations of the typed dialects -/

def enumDeclaration (g : Grammar) : Grower Unit :=
  node .enumDeclaration do
    discard (optionally "const")
    token "enum"
    field .name identifier
    node .enumBody do
      token "\x7b"
      while_ (return !(← sees "\x7d") && !(← seesEnd)) do
        unless ← optionally "," do
          node .enumAssignment do
            propertyName g
            if ← optionally "=" then field .value (g (.expression false))
      token "\x7d"

def interfaceDeclaration (g : Grammar) : Grower Unit :=
  node .interfaceDeclaration do
    token "interface"
    field .name identifier
    if ← sees "<" then typeParameters g
    if ← optionally "extends" then
      g .type
      while_ (sees ",") do
        token ","
        g .type
    node .typeExpression (bracketed g)

def typeAlias (g : Grammar) : Grower Unit :=
  node .typeAliasDeclaration do
    token "type"
    field .name identifier
    if ← sees "<" then typeParameters g
    token "="
    g .type
    endStatement false false

def namespaceDeclaration (g : Grammar) : Grower Unit :=
  nodeOf do
    let kind := if ← sees "module" then Kind.moduleDeclaration else .internalModule
    tokenOf ["namespace", "module"]
    if (← next) == .string then stringLiteral
    else
      identifier
      while_ (sees ".") do
        token "."
        word .propertyIdentifier
    if ← sees "\x7b" then field .body (g (.block false)) else endStatement false false
    return kind

def seesTypedDeclaration (w : String) : Grower Bool := do
  let l ← second
  match w with
  | "enum" | "interface" => return l.token.isWord
  | "const" => return l.token.spells "enum"
  | "type" =>
    return l.token.isWord && !l.newline && (← ahead do
      token "type"
      identifier
      unless ← seesAny ["=", "<"] do fail)
  | "namespace" | "module" => return (l.token.isWord || l.token == .string) && !l.newline
  | _ => return false

def typedDeclaration (g : Grammar) (w : String) : Grower Unit :=
  match w with
  | "enum" | "const" => enumDeclaration g
  | "interface" => interfaceDeclaration g
  | "type" => typeAlias g
  | _ => namespaceDeclaration g

/-! ## All declarations -/

def seesDeclaration (g : Grammar) : Grower Bool := do
  let typed ← isTyped
  match ← next with
  | .word w =>
    if typed && (← seesTypedDeclaration w) then return true
    else if typed && w == "declare" then return (← second).token.isWord && !(← second).newline
    else return (← seesFunction) || (← seesClass g) || (← seesVariables)
  | .punct "@" => seesClass g
  | _ => return false

def plainDeclaration (g : Grammar) : Grower Unit := do
  let w := (← next).spelling
  if (← isTyped) && (← seesTypedDeclaration w) then typedDeclaration g w
  else if ← seesFunction then functionDeclaration g
  else if ← seesClass g then classDeclaration g
  else if ← seesVariables then variableList g false fun valued => endStatement valued false
  else fail

def declaration (g : Grammar) : Grower Unit := do
  if (← isTyped) && (← sees "declare") then
    node .ambientDeclaration do
      token "declare"
      if ← optionally "global" then g (.block false) else plainDeclaration g
  else plainDeclaration g

end CallAtlas.Syntax.Grammar
