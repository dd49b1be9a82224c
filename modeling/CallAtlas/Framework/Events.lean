import CallAtlas.Framework.Hint
import CallAtlas.Framework.Scan
import CallAtlas.Framework.SourcePath

/-!
# Events

A unit listens to an event if its doc comment says so, or if it is exported from a file in a directory
for listeners.  Events are emitted by name; which listener an event reaches is found by the entry points
of the graph.
-/

namespace CallAtlas.Events

open Text Scan SourcePath

def behindListeners : List String → Option (List String)
  | "events" :: "handlers" :: rest =>
    if !rest.isEmpty && areNamed rest then some rest else none
  | pieces => behindOneOf ["listeners", "subscribers"] pieces

def isListenerFile (path : String) : Bool :=
  match behindFirst behindListeners (Path.pieces path) with
  | some behind => (behind.getLast?.bind stem?).any (!·.isEmpty)
  | none => false

def listensTo? (u : CodeUnit) : Option String :=
  ((u.docs.bind (·.tag "listens")).bind fun text => (words text.toList).head?).map String.ofList

def entryPoint (u : CodeUnit) (path : String) : Option EntryPoint :=
  match listensTo? u with
  | some event => some (.eventHandler event)
  | none =>
    if u.exported && isListenerFile path then (Path.fileStem? path).map .eventHandler else none

def emitCall : Matcher String := fun inWord cs =>
  if inWord then none
  else
    match anyOf? ["emit(", "publish("] cs with
    | some (_, rest) =>
      (quotedAll? isNameChar (rest.dropWhile isBlank)).map fun (event, rest) =>
        (String.ofList event, rest)
    | none => none

def hints (u : CodeUnit) : List Hint :=
  (matchesIn emitCall u.body).map fun event =>
    { kind := .eventEmit, target := .literal event, label := some ("emit " ++ event), order := none }

def framework : Framework := { name := "event", entryPoint, hints, resolve := fun _ _ => none }

end CallAtlas.Events
