import CallAtlas.Syntax.Forest

/-!
# Phrases

The rules of the grammar call each other in circles.  `Phrase` lists the points at which they do:
a rule that needs one of these phrases gets it from the `Grammar` it is given, and so none of the
rules is recursive itself.  The circle is closed in `CallAtlas.Syntax.Program`.

This module also holds the small rules that all others share: names, bracketed lists, and what to do
when a closing bracket does not come.
-/

namespace CallAtlas.Syntax

/-- A phrase that rules may ask for.  In a `noIn` phrase the operator `in` ends an expression, as it
    does in the head of a loop. -/
inductive Phrase where
  | statement
  /-- A block; the flag tells whether it is the body of a function inside an expression. -/
  | block (inExpression : Bool)
  /-- One expression. -/
  | expression (noIn : Bool)
  /-- Expressions separated by commas. -/
  | expressions (noIn : Bool)
  /-- An expression made of operators of at least the given level. -/
  | operators (level : Nat) (noIn : Bool)
  /-- An operand with its prefix operators. -/
  | unary (noIn : Bool)
  /-- What a binding introduces: a name or a pattern of names. -/
  | pattern
  | classBody
  | type
  /-- A markup element. -/
  | element

abbrev Grammar := Phrase → Grower Unit

namespace Grammar

open Grower

/-! ## Names -/

def identifier : Grower Unit := word .identifier

def stringLiteral : Grower Unit := do
  if (← next) == .string then take .string else fail

def second : Grower Lookahead := do
  let s ← get
  return s.next.stop.lookahead s.size

def seesSecond (text : String) : Grower Bool := return (← second).token.spells text

/-- The name of a member: a word, a string, a number, a private name or a computed name. -/
def propertyName (g : Grammar) : Grower Unit := do
  match ← next with
  | .word _ => take .propertyIdentifier
  | .privateName => take .privatePropertyIdentifier
  | .string => take .string
  | .number => take .number
  | .punct "[" =>
    node .computedPropertyName do
      token "["
      g (.expression false)
      token "]"
  | _ => fail

def namesMember : Token → Bool
  | .word _ | .privateName | .string | .number => true
  | t => t.spells "["

/-! ## Brackets -/

def breaksOff (t : Token) : Bool :=
  t.spells ";" || t.spells "\x7b" || t.spells "\x7d" || t == .endOfInput

/-- Close a bracket.  What stands in front of the bracket is put into an error node; if the statement
    breaks off before it, the bracket is supplied. -/
def closing (bracket : String) : Grower Unit := do
  unless ← sees bracket do
    if (← get).trial then fail
    unless breaksOff (← next) do
      node .error (while_ (return !(← sees bracket) && !breaksOff (← next)) skipToken)
  if ← sees bracket then token bracket else supply (.token bracket)

def items (bracket : String) (item : Grower Unit) : Grower Unit := do
  while_ (return !(← sees bracket) && !(← seesAny [";", "\x7d"]) && !(← seesEnd)) do
    unless ← optionally "," do
      item
      unless ← seesAny [",", bracket] do
        unless (← get).trial do
          unless breaksOff (← next) do
            node .error
              (while_ (return !(← seesAny [",", bracket]) && !breaksOff (← next)) skipToken)
  closing bracket

/-- Go on with `more` behind a closing bracket, unless it is the last one that is open. -/
def closeBracket (more : List Char → Cursor → Option Cursor) (stack : List Char) (c : Cursor) :
    Option Cursor :=
  match stack with
  | [] => none
  | [_] => some c
  | _ :: rest => more rest c

/-- Go on with `more` behind the characters of a template, telling it whether the template ended. -/
def passTemplate (more : Bool → List Char → Cursor → Option Cursor) (stack : List Char)
    (c : Cursor) : Option Cursor :=
  let run := templateRun c.rest c.offset c.row
  match run.rest with
  | [] => none
  | x :: _ =>
    if x = backtick then more true stack run.next else more false (backtick :: stack) (run.drop 2)

/-- Move over a token that is no bracket.  Where no operand has `ended`, a slash starts a regular
    expression, whose brackets and quotes are text. -/
def passToken (more : Bool → Cursor → Option Cursor) (ended : Bool) (l : Lookahead) :
    Option Cursor :=
  match if ended then none else l.start.regex? with
  | some stop => more true stop
  | none => more l.token.endsOperand l.stop

/-- Move over brackets of all kinds, beginning with the one at `c`, to the place behind the bracket
    that closes it.  The stack holds the closing characters to come; a backtick in it stands for a
    substitution inside a template.  The flag tells whether an operand has just ended. -/
def skipBrackets (size : Nat) : Nat → Bool → List Char → Cursor → Option Cursor
  | 0, _, _, _ => none
  | fuel + 1, ended, stack, c =>
    let l := c.lookahead size
    match l.token with
    | .endOfInput => none
    | .punct "(" => skipBrackets size fuel false (')' :: stack) l.stop
    | .punct "[" => skipBrackets size fuel false (']' :: stack) l.stop
    | .punct "\x7b" => skipBrackets size fuel false ('\x7d' :: stack) l.stop
    | .punct ")" | .punct "]" => closeBracket (skipBrackets size fuel true) stack l.stop
    | .punct "\x7d" =>
      match stack with
      | x :: rest =>
        if x = backtick then passTemplate (skipBrackets size fuel) rest l.stop
        else closeBracket (skipBrackets size fuel true) stack l.stop
      | [] => none
    | .punct "`" => passTemplate (skipBrackets size fuel) stack l.stop
    | _ => passToken (skipBrackets size fuel · stack ·) ended l

def behindBrackets : Grower Token := do
  let s ← get
  match skipBrackets s.size (s.size - s.here.offset + 1) false [] s.next.start with
  | some stop => return (stop.lookahead s.size).token
  | none => return .endOfInput

end Grammar

end CallAtlas.Syntax
