import CallAtlas.Syntax.Grammar.Phrase

/-!
# Literals that need their own scanning

Templates and regular expressions are not tokens by themselves: a template holds expressions, and a
slash starts a regular expression only where an expression may start.
-/

namespace CallAtlas.Syntax.Grammar

open Grower

/-- One substitution of a template with `inner` in its braces.  The text behind its closing brace is
    template text again, so the brace is taken without looking at what follows. -/
def templateSubstitution (inner : Grower Unit) : Grower Unit :=
  node .templateSubstitution do
    takeRaw (.token "$\x7b") ((← get).here.drop 2)
    inner
    unless ← sees "\x7d" do fail
    takeComments
    let brace := (← get).next
    push (.leaf (.token "\x7d") (brace.start.spanTo brace.stop))
    moveRaw brace.stop

def templateOf (inner : Grower Unit) : Grower Unit :=
  node .templateString do
    token "`"
    moveRaw (← get).here
    while_ (return (← get).here.rest != [] && (← get).here.rest.head? != some backtick) do
      let here := (← get).here
      let run := templateRun here.rest here.offset here.row
      if run.offset == here.offset then templateSubstitution inner else moveRaw run
    if (← get).here.rest.isEmpty then
      moveTo (← get).here
      fail
    takeRaw (.token "`") (← get).here.next

def templateString (g : Grammar) : Grower Unit := templateOf (g (.expressions false))

def regularExpression : Grower Unit := do
  match (← get).next.start.regex? with
  | some stop => takeUpTo .regex (stop.skipWhile Char.isAlpha)
  | none => fail

end CallAtlas.Syntax.Grammar
