import CallAtlas.Text.Blank

/-!
# Entry points and kinds of edges

An entry point is where control comes in from outside: a request, an event, a queued task.  Units reach
one another by calls, but also through an entry point by its name; the kind of an edge says how.
-/

namespace CallAtlas

open Text

inductive EdgeKind where
  | directCall
  | conditionalCall
  | asyncDispatch
  | eventEmit
  | httpRequest
  | errorHandler
  | middlewareChain
  deriving DecidableEq, Repr

namespace EdgeKind

def text : EdgeKind → String
  | directCall => "direct-call"
  | conditionalCall => "conditional-call"
  | asyncDispatch => "async-dispatch"
  | eventEmit => "event-emit"
  | httpRequest => "http-request"
  | errorHandler => "error-handler"
  | middlewareChain => "middleware-chain"

def ofText? : String → Option EdgeKind
  | "direct-call" => some directCall
  | "conditional-call" => some conditionalCall
  | "async-dispatch" => some asyncDispatch
  | "event-emit" => some eventEmit
  | "http-request" => some httpRequest
  | "error-handler" => some errorHandler
  | "middleware-chain" => some middlewareChain
  | _ => none

/-- The other side runs later or elsewhere, whatever it is. -/
def isAsyncBoundary : EdgeKind → Bool
  | asyncDispatch | eventEmit | httpRequest => true
  | directCall | conditionalCall | errorHandler | middlewareChain => false

end EdgeKind

inductive EntryPoint where
  | httpRoute (method route : String)
  | eventHandler (event : String)
  | backgroundTask (taskId : String)
  deriving DecidableEq, Repr

def splitAtSpace (s : String) : Option (String × String) :=
  (cutAt (· = ' ') s.toList).map fun (a, b) => (String.ofList a, String.ofList b)

namespace EntryPoint

/-- The texts differ at most in the case of their ASCII letters. -/
def sameIgnoringCase (a b : String) : Bool := a.toList.map Char.toLower == b.toList.map Char.toLower

/-- The entry point is what `target` names for an edge of the given kind.  A request names a method
    and a path, or a path alone. -/
def accepts (e : EntryPoint) (kind : EdgeKind) (target : String) : Bool :=
  match e, kind with
  | httpRoute method route, .httpRequest =>
    match splitAtSpace target with
    | some (wanted, path) => path == route && (method == "ANY" || sameIgnoringCase method wanted)
    | none => target == route
  | eventHandler event, .eventEmit => event == target
  | backgroundTask taskId, .asyncDispatch => taskId == target
  | _, _ => false

def describe : EntryPoint → String
  | httpRoute method route => method ++ " " ++ route
  | eventHandler event => "on " ++ event
  | backgroundTask taskId => "task " ++ taskId

end EntryPoint

end CallAtlas
