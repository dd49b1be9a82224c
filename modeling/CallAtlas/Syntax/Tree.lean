import CallAtlas.Syntax.Kind

/-!
# Concrete syntax trees

A tree keeps every token and every comment of the text it was read from, each node with the byte
range it covers.  The text of a node is therefore the slice of the source at its range
(`Tree.text`), and nothing else of the source has to be kept.

A tree is flawed (`Tree.hasError`) when some node of it is an unreadable stretch or a token that had
to be supplied.  The functions on trees come in pairs, one on a tree and one on a list of siblings,
so that they recurse on the structure.
-/

namespace CallAtlas.Syntax

/-- A range of the source: byte offsets, and the rows (counted from zero) they lie in. -/
structure Span where
  start : Nat
  stop : Nat
  startRow : Nat
  stopRow : Nat
  deriving DecidableEq, Repr, Inhabited

def slice (source : String) (start stop : Nat) : String :=
  String.Pos.Raw.extract source ⟨start⟩ ⟨stop⟩

/-- A syntax node: its kind, its role in its parent, its range, whether it stands for a token that
    is not in the source, and its children in source order. -/
inductive Tree where
  | node (kind : Kind) (field : Option Field) (span : Span) (missing : Bool) (children : List Tree)
  deriving Repr

namespace Tree

instance : Inhabited Tree := ⟨node .error none default false []⟩

def kind : Tree → Kind
  | node k _ _ _ _ => k

def field : Tree → Option Field
  | node _ f _ _ _ => f

def span : Tree → Span
  | node _ _ s _ _ => s

def missing : Tree → Bool
  | node _ _ _ m _ => m

def children : Tree → List Tree
  | node _ _ _ _ cs => cs

def withField (f : Field) : Tree → Tree
  | node k _ s m cs => node k (some f) s m cs

def leaf (kind : Kind) (span : Span) : Tree :=
  node kind none span false []

def text (source : String) (t : Tree) : String :=
  slice source t.span.start t.span.stop

/-- The line (counted from one) a node starts in. -/
def line (t : Tree) : Nat := t.span.startRow + 1

def lastLine (t : Tree) : Nat := t.span.stopRow + 1

def childIn (f : Field) (t : Tree) : Option Tree :=
  t.children.find? fun c => c.field == some f

def childOf (k : Kind) (t : Tree) : Option Tree :=
  t.children.find? fun c => c.kind == k

def hasToken (text : String) (t : Tree) : Bool :=
  t.children.any fun c => c.kind == .token text

mutual

/-- Some node of the tree is unreadable or had to be supplied. -/
def hasError : Tree → Bool
  | node k _ _ m cs => k == .error || m || anyError cs

def anyError : List Tree → Bool
  | [] => false
  | t :: ts => hasError t || anyError ts

end

mutual

def hasMarkup : Tree → Bool
  | node k _ _ _ cs => k.isMarkup || anyMarkup cs

def anyMarkup : List Tree → Bool
  | [] => false
  | t :: ts => hasMarkup t || anyMarkup ts

end

end Tree

end CallAtlas.Syntax
