import CallAtlas.Json.Basic

/-!
# Tables of a settings file

A settings file is a table of tables.  A table is opened once, by a header or by dotted names; a
table that was only passed through on the way to another may still be opened.  No name is given
twice.
-/

namespace CallAtlas.Toml

inductive Item where
  | value (v : Json)
  /-- A table.  It is `implicit` if no header opened it, and `dotted` if dotted names did. -/
  | table (isImplicit isDotted : Bool) (members : List (String × Item))
  /-- A list of tables, each opened by a header of its own. -/
  | tables (items : List (List (String × Item)))

abbrev Members := List (String × Item)

namespace Members

def get? (ms : Members) (name : String) : Option Item := (ms.find? (·.1 == name)).map (·.2)

def set (ms : Members) (name : String) (item : Item) : Members :=
  if ms.any (·.1 == name) then ms.map fun m => if m.1 == name then (name, item) else m
  else ms ++ [(name, item)]

/-- Change the table that a path of names leads to; tables that are missing on the way are made. -/
def within (f : Members → Option Members) : List String → Members → Option Members
  | [], ms => f ms
  | name :: path, ms =>
    match ms.get? name with
    | none => (within f path []).map fun sub => ms.set name (.table true false sub)
    | some (.table i d sub) => (within f path sub).map fun sub => ms.set name (.table i d sub)
    | some (.tables items) =>
      match items.getLast? with
      | some last => (within f path last).map fun sub =>
          ms.set name (.tables (items.dropLast ++ [sub]))
      | none => none
    | some (.value _) => none

def insert (v : Json) (name : String) : List String → Members → Option Members
  | [], ms => if (ms.get? name).isSome then none else some (ms.set name (.value v))
  | first :: path, ms =>
    match ms.get? first with
    | none => (insert v name path []).map fun sub => ms.set first (.table true true sub)
    | some (.table true isDotted sub) =>
      -- A table that dotted names did not make can only be passed through.
      if path.isEmpty && !isDotted then none
      else (insert v name path sub).map fun sub => ms.set first (.table true isDotted sub)
    | some _ => none

def openTable (name : String) (ms : Members) : Option Members :=
  match ms.get? name with
  | none => some (ms.set name (.table false false []))
  | some (.table true false sub) => some (ms.set name (.table false false sub))
  | some _ => none

def openItem (name : String) (ms : Members) : Option Members :=
  match ms.get? name with
  | none => some (ms.set name (.tables [[]]))
  | some (.tables items) => some (ms.set name (.tables (items ++ [[]])))
  | some _ => none

end Members

mutual

def Item.toJson : Item → Json
  | .value v => v
  | .table _ _ members => .object (membersJson members)
  | .tables items => .array (tablesJson items)

def membersJson : List (String × Item) → List (String × Json)
  | [] => []
  | (name, item) :: rest => (name, item.toJson) :: membersJson rest

def tablesJson : List (List (String × Item)) → List Json
  | [] => []
  | t :: ts => .object (membersJson t) :: tablesJson ts

end

end CallAtlas.Toml
