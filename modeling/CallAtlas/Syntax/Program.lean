import CallAtlas.Syntax.Grammar.Statement

/-!
# Reading a program

The rules of the grammar get the phrases they need from outside.  `grammar` hands them the rules
themselves, up to a nesting depth; no text is nested deeper than a fixed multiple of its length, so
with the depth that `Tree.ofText` chooses the bound is never met.

Reading never fails.  A text that breaks off inside a construct becomes an error node with all that
could be read of it.
-/

namespace CallAtlas.Syntax

open Grower

namespace Grammar

def rule (g : Grammar) : Phrase → Grower Unit
  | .statement => statement g
  | .block inExpression => block g inExpression
  | .expression noIn => expression g noIn
  | .expressions noIn => expressions g noIn
  | .operators level noIn => operators g level noIn
  | .unary noIn => unary g noIn
  | .pattern => pattern g
  | .classBody => classBody g
  | .type => type g
  | .element => element g

def upTo : Nat → Grammar
  | 0, _ => fail
  | depth + 1, p => rule (upTo depth) p

def hashBang : Grower Unit := do
  match (← get).here.rest with
  | '#' :: '!' :: _ => takeRaw .hashBangLine ((← get).here.skipWhile fun c => !isLineEnd c)
  | _ => return ()

def program (g : Grammar) : Grower Unit := do
  hashBang
  statements g (return true)
  takeComments

end Grammar

def Forest.ofText (dialect : Dialect) (text : String) : Forest :=
  let start := Cursor.ofString text
  let size := text.utf8ByteSize
  { dialect, size, here := start, next := start.lookahead size, made := [], trial := false }

/-- The syntax tree of a text.  Its root is an error node when the text breaks off. -/
def Tree.ofText (dialect : Dialect) (text : String) : Tree :=
  let depth := 16 * (text.utf8ByteSize + 4)
  match Grammar.program (Grammar.upTo depth) (Forest.ofText dialect text) with
  | .ok _ s => assemble .program s.here s.made
  | .error _ s => assemble .error s.here s.made

end CallAtlas.Syntax
