import CallAtlas.Framework.Events
import CallAtlas.Framework.Middleware
import CallAtlas.Framework.Routes
import CallAtlas.Framework.Tasks

/-!
# The frameworks that are known

They are asked in order; the first that knows an entry point decides.
-/

namespace CallAtlas

def frameworks : List Framework :=
  [Routes.framework, Tasks.framework, Events.framework, Middleware.framework]

def entryPointOf (u : CodeUnit) (path : String) : Option EntryPoint :=
  frameworks.findSome? fun f => f.entryPoint u path

def hintsOf (u : CodeUnit) : List (Framework × Hint) :=
  frameworks.flatMap fun f => (f.hints u).map (f, ·)

end CallAtlas
