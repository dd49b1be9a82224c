import CallAtlas.Syntax.Grammar.Declaration

/-!
# Imports and exports

In the typed dialects the word `type` may mark a whole statement or one specifier as concerning types
only; it may also be an ordinary name.  It is a mark when a name that is not part of the clause
follows it.
-/

namespace CallAtlas.Syntax.Grammar

open Grower

def source : Grower Unit := field .source stringLiteral

def fromClause : Grower Unit := do
  token "from"
  source

def moduleName : Grower Unit := do
  if (← next) == .string then stringLiteral else identifier

/-- One name of a list, perhaps renamed.  A word `as` without a new name is an error. -/
def specifier (kind : Kind) : Grower Unit :=
  node kind do
    if ← isTyped then
      if (← seesAny ["type", "typeof"]) && ((← second).token.isWord || (← second).token == .string)
          && !(← seesSecond "as") then
        skipToken
    field .name moduleName
    if ← sees "as" then
      let t := (← second).token
      if t.isWord || t == .string then
        token "as"
        field .alias moduleName
      else node .error (token "as")

def specifiers (list : Kind) (kind : Kind) : Grower Unit :=
  node list do
    token "\x7b"
    while_ (return !(← sees "\x7d") && !(← seesEnd)) do
      unless ← optionally "," do
        mending (fun t => t.spells "," || t.spells "\x7d") (specifier kind)
    token "\x7d"

/-! ## Imports -/

def namespaceImport : Grower Unit :=
  node .namespaceImport do
    token "*"
    token "as"
    identifier

def importClause : Grower Unit :=
  node .importClause do
    if ← sees "*" then namespaceImport
    else if ← sees "\x7b" then specifiers .namedImports .importSpecifier
    else
      identifier
      if ← optionally "," then
        if ← sees "*" then namespaceImport else specifiers .namedImports .importSpecifier

def seesImportMark : Grower Bool := do
  if ← sees "typeof" then return true
  else if ← sees "type" then
    let t := (← second).token
    if t.spells "\x7b" || t.spells "*" then return true
    else if t.spells "from" then
      ahead do
        skipToken
        skipToken
        token "from"
    else return t.isWord
  else return false

/-- What is known about the imported module beforehand. -/
def importAttribute (g : Grammar) : Grower Unit :=
  node .importAttribute do
    tokenOf ["with", "assert"]
    object g

def importEquals (g : Grammar) : Grower Unit :=
  nodeOf do
    token "import"
    if !(← seesSecond "=") then discard (optionally "type")
    if ← ahead (do identifier; token "="; token "require"; token "(") then
      node .importRequireClause do
        identifier
        token "="
        token "require"
        token "("
        source
        token ")"
      endStatement false false
      return .importStatement
    else
      identifier
      token "="
      typeName g
      endStatement false false
      return .importAlias

def importStatement (g : Grammar) : Grower Unit := do
  if (← isTyped) && (← ahead do token "import"; discard (optionally "type"); identifier; token "=")
  then importEquals g
  else if (← isTyped) && (← ahead do token "import"; identifier; token "=") then importEquals g
  else
    node .importStatement do
      token "import"
      if ← isTyped then
        if ← seesImportMark then skipToken
      if (← next) == .string then source
      else
        importClause
        fromClause
      if (← sees "with") || ((← sees "assert") && !(← newline)) then importAttribute g
      endStatement false false

/-! ## Exports -/

def defaultExport (g : Grammar) : Grower Unit := do
  token "default"
  if (← seesFunction) || (← seesClass g) || ((← isTyped) && (← sees "interface") &&
      (← second).token.isWord) then
    field .declaration (declaration g)
  else
    field .value (g (.expression false))
    endStatement true false

def exportList (g : Grammar) : Grower Unit := do
  if ← sees "*" then
    if ← seesSecond "as" then
      node .namespaceExport do
        token "*"
        token "as"
        moduleName
    else token "*"
    fromClause
  else
    specifiers .exportClause .exportSpecifier
    if ← sees "from" then fromClause
  if (← sees "with") || ((← sees "assert") && !(← newline)) then importAttribute g
  endStatement false false

/-- The forms of export that only the typed dialects have.  Tell whether one of them came. -/
def typedExport (g : Grammar) : Grower Bool := do
  if ← sees "=" then
    token "="
    g (.expression false)
    endStatement true false
    return true
  else if (← sees "as") && (← seesSecond "namespace") then
    token "as"
    token "namespace"
    identifier
    endStatement false false
    return true
  else if ← sees "import" then
    importStatement g
    return true
  else if (← sees "type") && (← seesSecond "\x7b") then
    token "type"
    exportList g
    return true
  else if (← sees "type") && (← seesSecond "*") then
    -- a marked list of all names is not part of the language
    node .error (token "type")
    exportList g
    return true
  else return false

def exportStatement (g : Grammar) : Grower Unit :=
  node .exportStatement do
    decorators g
    token "export"
    if ← sees "default" then defaultExport g
    else if ← seesAny ["*", "\x7b"] then exportList g
    else
      let typed ← if ← isTyped then typedExport g else pure false
      unless typed do field .declaration (declaration g)

def seesExport (g : Grammar) : Grower Bool := do
  if ← sees "export" then return true
  else if ← sees "@" then
    ahead do
      decorators g
      token "export"
  else return false

end CallAtlas.Syntax.Grammar
