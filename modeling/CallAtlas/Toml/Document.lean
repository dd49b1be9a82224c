import CallAtlas.Toml.Scalar
import CallAtlas.Toml.Table

/-!
# Settings files

A settings file holds one statement to a line: a header that opens a table, or a name with its
value.  `parse?` gives the whole file as data.
-/

namespace CallAtlas.Toml

/-! ## Names and values -/

def isBare (c : Char) : Bool := c.isAlphanum || c = '_' || c = '-'

def namePart? (cs : List Char) : Option (String × List Char) :=
  match cs with
  | '"' :: rest => (basicBody cs.length rest).map fun (s, rest) => (String.ofList s, rest)
  | '\'' :: rest => (literalBody rest).map fun (s, rest) => (String.ofList s, rest)
  | cs =>
    match cs.takeWhile isBare with
    | [] => none
    | bare => some (String.ofList bare, cs.dropWhile isBare)

def name? : Nat → List Char → Option (List String × List Char)
  | 0, _ => none
  | fuel + 1, cs =>
    match namePart? (skipGap cs) with
    | none => none
    | some (part, rest) =>
      match skipGap rest with
      | '.' :: rest => (name? fuel rest).map fun (parts, rest) => (part :: parts, rest)
      | rest => some ([part], rest)

def skipComment (cs : List Char) : Option (List Char) :=
  match cs with
  | '#' :: rest =>
    match rest.dropWhile (!isControl ·) with
    | [] => some []
    | rest => if (lineEnd? rest).isSome then some rest else none
  | cs => some cs

def skipLines : Nat → List Char → Option (List Char)
  | 0, cs => some cs
  | fuel + 1, cs =>
    match skipComment (skipGap cs) with
    | none => none
    | some rest =>
      match lineEnd? rest with
      | some rest => skipLines fuel rest
      | none => some rest

def arrayItems (value : List Char → Option (Json × List Char)) :
    Nat → List Char → Option (List Json × List Char)
  | 0, _ => none
  | fuel + 1, cs => do
    match ← skipLines cs.length cs with
    | ']' :: rest => return ([], rest)
    | cs =>
      let (v, rest) ← value cs
      match ← skipLines rest.length rest with
      | ',' :: rest =>
        let (vs, rest) ← arrayItems value fuel rest
        return (v :: vs, rest)
      | ']' :: rest => return ([v], rest)
      | _ => none

/-- A dotted name with its value; the last part of the name stands apart. -/
def pair? (value : List Char → Option (Json × List Char)) (cs : List Char) :
    Option (((List String × String) × Json) × List Char) := do
  let (name, rest) ← name? cs.length cs
  match rest with
  | '=' :: rest =>
    let (v, rest) ← value (skipGap rest)
    return (((name.dropLast, name.getLast?.getD ""), v), rest)
  | _ => none

def inlineMembers (value : List Char → Option (Json × List Char)) (ms : Members) :
    Nat → List Char → Option (Members × List Char)
  | 0, _ => none
  | fuel + 1, cs => do
    let (((path, name), v), rest) ← pair? value cs
    let ms ← ms.insert v name path
    match skipGap rest with
    | ',' :: rest => inlineMembers value ms fuel rest
    | c :: rest => if c = '\x7d' then some (ms, rest) else none
    | [] => none

/-- A value in which less than `depth` brackets are open at once. -/
def value : Nat → List Char → Option (Json × List Char)
  | 0, _ => none
  | depth + 1, cs =>
    match cs with
    | '"' :: _ | '\'' :: _ => (text? cs).map fun (s, rest) => (.string (String.ofList s), rest)
    | '[' :: rest =>
      if depth = 0 then none
      else (arrayItems (value depth) cs.length rest).map fun (vs, rest) => (.array vs, rest)
    | c :: rest =>
      if c = '\x7b' then
        if depth = 0 then none
        else
          match skipGap rest with
          | d :: more =>
            if d = '\x7d' then some (.object [], more)
            else (inlineMembers (value depth) [] cs.length rest).map fun (ms, rest) =>
              (.object (membersJson ms), rest)
          | [] => none
      else plain? cs
    | [] => none

def maxNesting : Nat := 80

/-! ## Statements -/

inductive Statement where
  /-- A header; `isItem` if it opens one more table of a list. -/
  | header (isItem : Bool) (path : List String) (name : String)
  | pair (path : List String) (name : String) (v : Json)

def statement? (cs : List Char) : Option (Statement × List Char) :=
  let split (name : List String) := (name.dropLast, name.getLast?.getD "")
  match cs with
  | '[' :: '[' :: rest =>
    match name? rest.length rest with
    | some (name, ']' :: ']' :: rest) =>
      some (.header true (split name).1 (split name).2, rest)
    | _ => none
  | '[' :: rest =>
    match name? rest.length rest with
    | some (name, ']' :: rest) => some (.header false (split name).1 (split name).2, rest)
    | _ => none
  | cs => (pair? (value maxNesting) cs).map fun (((path, name), v), rest) =>
      (.pair path name v, rest)

/-- What stands behind a statement: nothing but a comment up to the end of the line. -/
def statementEnd? (cs : List Char) : Option (List Char) :=
  match skipComment (skipGap cs) with
  | some [] => some []
  | some rest => lineEnd? rest
  | none => none

def statements? : Nat → List Char → Option (List Statement)
  | 0, _ => none
  | fuel + 1, cs => do
    match ← skipLines cs.length cs with
    | [] => return []
    | cs =>
      let (s, rest) ← statement? cs
      let ss ← statements? fuel (← statementEnd? rest)
      return s :: ss

/-! ## The whole file -/

/-- A file that is being put together: its table, and the table that names are put into. -/
structure State where
  root : Members
  current : List String

/-- The table with one more value, put into the table that `current` leads to. -/
def putValue (current path : List String) (name : String) (v : Json) (root : Members) :
    Option Members :=
  Members.within (fun ms => ms.insert v name path) current root

def State.step (s : State) : Statement → Option State
  | .header isItem path name =>
    (Members.within (if isItem then Members.openItem name else Members.openTable name) path
      s.root).map fun root => ⟨root, path ++ [name]⟩
  | .pair path name v => (putValue s.current path name v s.root).map fun root => { s with root }

def parse? (text : String) : Option Json := do
  let cs := match text.toList with
    | c :: rest => if c = Char.ofNat 0xfeff then rest else c :: rest
    | [] => []
  let ss ← statements? (cs.length + 1) cs
  let s ← ss.foldlM State.step ⟨[], []⟩
  return .object (membersJson s.root)

end CallAtlas.Toml
