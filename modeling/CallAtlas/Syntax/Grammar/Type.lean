import CallAtlas.Syntax.Grammar.Literal

/-!
# Types

The grammar of types, for the typed dialects.  A type is read to find out where it ends; no node
inside it is looked at later.  Bracketed parts of a type (members, parameters, tuples) are therefore
kept as runs of tokens with balanced brackets.
-/

namespace CallAtlas.Syntax.Grammar

open Grower

/-! ## Brackets inside types -/

/-- A closing angle bracket comes next, perhaps written together with others. -/
def seesAngle : Grower Bool := return (← get).next.start.rest.head? == some '>'

/-- One closing angle bracket, also where it is written together with others. -/
def closeAngle : Grower Unit := do
  if ← seesAngle then takeUpTo (.token ">") (← get).next.start.next else fail

def partner : String → String
  | "(" => ")"
  | "[" => "]"
  | _ => "\x7d"

def opensBracket (t : Token) : Bool :=
  t.spells "(" || t.spells "[" || t.spells "\x7b"

def group (g : Grammar) : Nat → Grower Unit
  | 0 => fail
  | depth + 1 => do
    unless opensBracket (← next) do fail
    let close := partner (← next).spelling
    skipToken
    while_ (return !(← sees close) && !(← seesEnd)) do
      if opensBracket (← next) then group g depth
      else if ← sees "`" then templateOf (g .type)
      else if ← seesAny [")", "]", "\x7d"] then fail
      else skipToken
    token close

def bracketed (g : Grammar) : Grower Unit := do
  let s ← get
  group g (s.size - s.here.offset + 1)

def angled (kind : Kind) (item : Grower Unit) : Grower Unit :=
  node kind do
    token "<"
    item
    while_ (sees ",") do
      token ","
      unless ← seesAngle do item
    closeAngle

def typeArguments (g : Grammar) : Grower Unit := angled .typeArguments (g .type)

def typeParameters (g : Grammar) : Grower Unit :=
  angled .typeParameters do
    while_ (return (← seesAny ["const", "in", "out"]) && (← second).token.isWord &&
      !(← seesSecond "extends")) skipToken
    identifier
    if ← optionally "extends" then g .type
    if ← optionally "=" then g .type

/-! ## Types -/

def startsType : Token → Bool
  | .word w => !(["extends", "is", "in", "as", "of"].contains w)
  | .string | .number => true
  | t => ["(", "[", "\x7b", "`", "-", "<"].any t.spells

def typeName (g : Grammar) : Grower Unit := do
  identifier
  while_ (sees ".") do
    token "."
    word .propertyIdentifier
  if ← sees "<" then
    unless ← newline do typeArguments g

/-- A type that a test of its parameter may stand for: `x is T`, `asserts x`, `asserts x is T`. -/
def typeOrPredicate (g : Grammar) : Grower Unit := do
  if ← sees "asserts" then
    if (← second).token.isWord && !(← second).newline && !(← seesSecond "is") then skipToken
  if (← seesWord) && (← seesSecond "is") && !(← second).newline then
    skipToken
    token "is"
  g .type

def functionType (g : Grammar) : Grower Unit := do
  bracketed g
  token "=>"
  typeOrPredicate g

def typeOperand (g : Grammar) : Nat → Grower Unit
  | 0 => fail
  | depth + 1 => do
    match ← next with
    | .word w =>
      if ["keyof", "unique", "readonly", "infer", "asserts", "abstract"].contains w
          && startsType (← second).token && !(← second).newline then
        skipToken
        typeOperand g depth
      else if w == "new" then
        skipToken
        if ← sees "<" then typeParameters g
        functionType g
      else if w == "typeof" then
        skipToken
        if ← sees "import" then importType else typeName g
      else if w == "import" then importType
      else typeName g
    | .string | .number => skipToken
    | .punct "-" =>
      skipToken
      unless (← next) == .number do fail
      skipToken
    | .punct "`" => templateOf (g .type)
    | .punct "<" =>
      typeParameters g
      functionType g
    | .punct "(" =>
      bracketed g
      if ← optionally "=>" then typeOrPredicate g
    | .punct "[" | .punct "\x7b" => bracketed g
    | _ => fail
    while_ (return (← sees "[") && !(← newline)) (bracketed g)
where
  /-- A module, perhaps with the name of a type in it. -/
  importType : Grower Unit := do
    token "import"
    bracketed g
    if ← optionally "." then typeName g

/-- A type: operands joined to unions and intersections, perhaps as the subject of a condition. -/
def type (g : Grammar) : Grower Unit :=
  node .typeExpression do
    let depth := (← get).size + 1
    if ← seesAny ["|", "&"] then skipToken
    typeOperand g depth
    while_ (seesAny ["|", "&"]) do
      skipToken
      typeOperand g depth
    if (← sees "extends") && !(← newline) then
      if ← attempt (do token "extends"; g .type; token "?") then
        g .type
        token ":"
        g .type

def typeAscription (g : Grammar) : Grower Unit :=
  node .typeAscription do
    token ":"
    typeOrPredicate g

end CallAtlas.Syntax.Grammar
