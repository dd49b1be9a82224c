import CallAtlas.Path.Basic

/-!
# Normal form of a path

The points in a path are resolved on the text alone, without looking at any directory: a single point
vanishes, and two points take back the component before them.  Where there is nothing to take back
the two points stay, and are then a component like any other.
-/

namespace CallAtlas.Path

/-- The components behind the root, the last one first. -/
abbrev Stack := List String

def resolveStep (stack : Stack) : Component → Stack
  | .root | .current => stack
  | .parent =>
    match stack with
    | _ :: rest => rest
    | [] => [".."]
  | .name t => t :: stack

def resolved (cs : List Component) : List String := (cs.foldl resolveStep []).reverse

/-- The path without points, as far as the text allows. -/
def normalize (path : String) : String :=
  (if isAbsolute path then "/" else "") ++ "/".intercalate (resolved (components path))

end CallAtlas.Path
