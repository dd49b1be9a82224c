/-!
# JSON values

Objects keep their members in the order in which they were written, also members of the same name.
A number that is whole and fits a machine word is an `integer`; of any other number only its text is
kept, since nothing here computes with it.
-/

namespace CallAtlas

inductive Json where
  | null
  | bool (b : Bool)
  | integer (i : Int)
  | real (literal : String)
  | string (s : String)
  | array (items : List Json)
  | object (members : List (String × Json))
  deriving Repr

namespace Json

instance : Inhabited Json := ⟨null⟩

def minInteger : Int := -0x8000000000000000

def wordLimit : Nat := 0x10000000000000000

def natural (n : Nat) : Json := integer n

def optional (s : Option String) : Json := (s.map string).getD null

def strings (xs : List String) : Json := array (xs.map string)

def lookup (name : String) (members : List (String × Json)) : Option Json :=
  (members.reverse.find? (·.1 == name)).map (·.2)

/-- The member called `name`; of several, the last. -/
def member? (name : String) : Json → Option Json
  | object members => lookup name members
  | _ => none

def string? : Json → Option String
  | string s => some s
  | _ => none

def bool? : Json → Option Bool
  | bool b => some b
  | _ => none

def items? : Json → Option (List Json)
  | array items => some items
  | _ => none

def members? : Json → Option (List (String × Json))
  | object members => some members
  | _ => none

def word? : Json → Option Nat
  | integer i => if 0 ≤ i ∧ i < wordLimit then some i.toNat else none
  | _ => none

/-- The texts of an array that holds nothing else. -/
def strings? : Json → Option (List String)
  | array items => items.mapM string?
  | _ => none

end Json

end CallAtlas
