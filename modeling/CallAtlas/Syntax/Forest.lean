import CallAtlas.Syntax.Token
import CallAtlas.Syntax.Semicolon

/-!
# Growing a forest

A `Grower` reads tokens and grows the list of sibling trees made so far.  A construct opens a fresh
list, grows its children there and closes them into one node (`node`); an operator found behind its
first operand takes that operand as the first child of the new node (`wrap`).

A grower that fails leaves the trees it has made where they are.  So when a construct turns out to be
broken, its parts become siblings of what came before it, and whoever can go on from there collects
them in an error node (`mending`).  Growers that only look ahead are run with `attempt` or `ahead`,
which put everything back; while they run, nothing is mended.

Comments are siblings of the tokens around them.  They never begin or end a node: those in front of
a node's first token are taken before the node is opened, those behind its last token are taken only
with the token that follows.
-/

namespace CallAtlas.Syntax

structure Forest where
  dialect : Dialect
  /-- The number of bytes of the text. -/
  size : Nat
  /-- The place behind the last token or comment taken. -/
  here : Cursor
  next : Lookahead
  /-- The trees made so far, the latest first. -/
  made : List Tree
  /-- Looking ahead only: broken constructs fail at once. -/
  trial : Bool
  deriving Inhabited

abbrev Grower := EStateM Unit Forest

namespace Grower

/-! ## Looking at the next token -/

def fail {α : Type} : Grower α := throw ()

def dialect : Grower Dialect := return (← get).dialect

def isTyped : Grower Bool := return (← get).dialect.isTyped

def next : Grower Token := return (← get).next.token

def sees (text : String) : Grower Bool := return (← get).next.token.spells text

def seesAny (texts : List String) : Grower Bool :=
  return texts.any (← get).next.token.spells

def seesWord : Grower Bool := return (← get).next.token.isWord

def seesEnd : Grower Bool := return (← get).next.token == .endOfInput

def newline : Grower Bool := return (← get).next.newline

/-! ## Taking tokens and comments -/

def push (t : Tree) : Grower Unit :=
  modify fun s => { s with made := t :: s.made }

def moveTo (c : Cursor) : Grower Unit :=
  modify fun s => { s with here := c, next := c.lookahead s.size }

/-- Go on at `c`, where the text is not made of tokens. -/
def moveRaw (c : Cursor) : Grower Unit :=
  modify fun s => { s with here := c, next := ⟨[], false, c, .stray, c⟩ }

def takeComments : Grower Unit :=
  modify fun s =>
    match s.next.comments.getLast? with
    | none => s
    | some (_, stop) =>
      { s with
        made := s.next.comments.foldl (fun made c => c.1 :: made) s.made
        here := stop
        next := { s.next with comments := [] } }

def takeComment : Grower Unit :=
  modify fun s =>
    match s.next.comments with
    | [] => s
    | (t, stop) :: rest =>
      { s with made := t :: s.made, here := stop, next := { s.next with comments := rest } }

/-- Take the text from the next token's start up to `stop` as one leaf. -/
def takeUpTo (kind : Kind) (stop : Cursor) : Grower Unit := do
  takeComments
  push (.leaf kind ((← get).next.start.spanTo stop))
  moveTo stop

def take (kind : Kind) : Grower Unit := do
  takeUpTo kind (← get).next.stop

def token (text : String) : Grower Unit := do
  if ← sees text then take (.token text) else fail

/-- Take `text` if it comes next; tell whether it did. -/
def optionally (text : String) : Grower Bool := do
  if ← sees text then
    take (.token text)
    return true
  else
    return false

def tokenOf (texts : List String) : Grower Unit := do
  if ← seesAny texts then take (.token (← next).spelling) else fail

def word (kind : Kind) : Grower Unit := do
  if ← seesWord then take kind else fail

/-- Take the text between `here` and `stop` as it stands, blanks and all. -/
def takeRaw (kind : Kind) (stop : Cursor) : Grower Unit := do
  let start := (← get).here
  unless stop.offset == start.offset do
    push (.leaf kind (start.spanTo stop))
  moveTo stop

def supply (kind : Kind) : Grower Unit := do
  if (← get).trial then fail
  if ← seesEnd then fail
  let at_ := (← get).here
  push (.node kind none (at_.spanTo at_) true [])

/-! ## Building nodes -/

/-- Run `body` on an empty list of siblings and hand the list to `close`, which turns it into the
    trees to add.  When `body` fails its trees are added as they are. -/
def enclosed (body : Grower Unit) (close : Forest → List Tree → List Tree) : Grower Unit :=
  fun s =>
    match body { s with made := [] } with
    | .ok _ t => .ok () { t with made := close t t.made ++ s.made }
    | .error e t => .error e { t with made := t.made ++ s.made }

/-- The node with the given children, the latest first. -/
def assemble (kind : Kind) (here : Cursor) (children : List Tree) : Tree :=
  match children.getLast?, children.head? with
  | some first, some last =>
    .node kind none
      ⟨first.span.start, last.span.stop, first.span.startRow, last.span.stopRow⟩
      false children.reverse
  | _, _ => .leaf kind (here.spanTo here)

def nodeOf (body : Grower Kind) : Grower Unit := do
  takeComments
  fun s =>
    match body { s with made := [] } with
    | .ok kind t => .ok () { t with made := assemble kind t.here t.made :: s.made }
    | .error e t => .error e { t with made := t.made ++ s.made }

def node (kind : Kind) (body : Grower Unit) : Grower Unit :=
  nodeOf do
    body
    return kind

/-- Grow a node whose first child is the tree made last, in the role `f`. -/
def wrap (kind : Kind) (f : Option Field) (body : Grower Unit) : Grower Unit := fun s =>
  match s.made with
  | [] => .error () s
  | first :: before =>
    let first := match f with
      | some f => first.withField f
      | none => first
    match body { s with made := [first] } with
    | .ok _ t => .ok () { t with made := assemble kind t.here t.made :: before }
    | .error e t => .error e { t with made := t.made ++ before }

/-- Put the tree into the role `f`, unless it is a comment or has a role already. -/
def inRole (f : Field) (t : Tree) : Tree :=
  if t.kind == .comment || t.field.isSome then t else t.withField f

def field (f : Field) (body : Grower Unit) : Grower Unit :=
  enclosed body fun _ made => made.map (inRole f)

/-! ## Looking ahead -/

/-- Try `body`; if it fails, put everything back.  Tell whether it went through. -/
def attempt (body : Grower Unit) : Grower Bool := fun s =>
  match body { s with trial := true } with
  | .ok _ t => .ok true { t with trial := s.trial }
  | .error _ _ => .ok false s

def ahead (body : Grower Unit) : Grower Bool := fun s =>
  match body { s with trial := true } with
  | .ok _ _ => .ok true s
  | .error _ _ => .ok false s

/-! ## Repetition -/

/-- Run `body` at most `fuel` times, as long as `more` holds and the text gets shorter. -/
def repeating : Nat → Grower Bool → Grower Unit → Grower Unit
  | 0, _, _ => return ()
  | fuel + 1, more, body => do
    if ← more then
      let before := (← get).here.offset
      body
      if before < (← get).here.offset then repeating fuel more body

def while_ (more : Grower Bool) (body : Grower Unit) : Grower Unit := do
  let s ← get
  repeating (s.size - s.here.offset + 1) more body

/-! ## Mending -/

def skipToken : Grower Unit := do
  take (.token (← next).spelling)

/-- Run `body`.  If it fails before the end of the input, put what it made into an error node,
    together with the tokens up to one where `resumes` holds, and go on from there. -/
def mending (resumes : Token → Bool) (body : Grower Unit) : Grower Unit := fun s =>
  match body { s with made := [] } with
  | .ok _ t => .ok () { t with made := t.made ++ s.made }
  | .error e t =>
    if s.trial || t.next.token == .endOfInput then .error e { t with made := t.made ++ s.made }
    else
      let skipping : Grower Unit := do
        if t.here.offset == s.here.offset then skipToken
        while_ (return !resumes (← next) && !(← seesEnd)) skipToken
      match skipping t with
      | .ok _ u =>
        .ok () { u with made := assemble .error u.here u.made :: s.made }
      | .error e u => .error e { u with made := u.made ++ s.made }

/-! ## Semicolons -/

def impliedAt (afterExpression afterHead : Bool) (c : Cursor) : Grower Bool := do
  let s ← get
  return Semicolon.isImplied ⟨s.dialect, afterExpression, afterHead⟩ s.size c

/-- End a statement: with an implied semicolon, with a written one, or else with a supplied one.
    Comments are passed as long as no semicolon is implied in front of them. -/
def endStatement (afterExpression afterHead : Bool) : Grower Unit := do
  while_ (return !(← impliedAt afterExpression afterHead (← get).here) &&
      !(← get).next.comments.isEmpty) takeComment
  unless ← impliedAt afterExpression afterHead (← get).here do
    if ← sees ";" then token ";" else supply (.token ";")

/-- End a block: an implied semicolon behind it belongs to it, and so do the comments that stand
    between. -/
def endBlock (afterExpression : Bool) : Grower Unit := do
  let s ← get
  let stops := s.here :: s.next.comments.map (·.2)
  let rec go (comments : Nat) : List Cursor → Grower Unit
    | [] => return ()
    | c :: cs => do
      if ← impliedAt afterExpression false c then
        for _ in [0:comments] do takeComment
      else
        go (comments + 1) cs
  go 0 stops

end Grower

end CallAtlas.Syntax
