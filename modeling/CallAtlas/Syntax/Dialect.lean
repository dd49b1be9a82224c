/-!
# Dialects

The scripting language comes in three dialects, chosen by the file name.  All of them are read by
one grammar; where they part, the grammar asks the dialect.
-/

namespace CallAtlas.Syntax

inductive Dialect where
  /-- Untyped, with markup. -/
  | javaScript
  /-- Typed, without markup. -/
  | typeScript
  /-- Typed, with markup. -/
  | tsx
  deriving DecidableEq, Repr, Inhabited

namespace Dialect

def isTyped : Dialect → Bool
  | javaScript => false
  | _ => true

def hasMarkup : Dialect → Bool
  | typeScript => false
  | _ => true

end Dialect

end CallAtlas.Syntax
