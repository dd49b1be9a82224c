import CallAtlas.Framework.Hint
import CallAtlas.Framework.Scan
import CallAtlas.Framework.SourcePath
import CallAtlas.Text.Capital

/-!
# Routes that are files

In one family of web frameworks a route is a file.  A file `route.ts` below a directory `app` serves
the path that the directories in between spell out, with one exported function for each method.  A file
below `pages/api` serves its own path with its default export.  Requests are made with `fetch` or
`axios`, and reach the handler whose route fits their path.
-/

namespace CallAtlas.Routes

open Text Scan SourcePath

/-! ## Routes -/

def verbs : List String := ["GET", "POST", "PUT", "PATCH", "DELETE", "HEAD", "OPTIONS"]

/-- A directory that only groups routes: `(name)`. -/
def isGroup (segment : String) : Bool :=
  segment.toList.head? == some '(' && segment.toList.getLast? == some ')'

/-- A directory that names a slot of the page: `@name`. -/
def isSlot (segment : String) : Bool := segment.toList.head? == some '@'

def isVisible (segment : String) : Bool := !segment.isEmpty && !isGroup segment && !isSlot segment

def routeOf (segments : List String) : String := "/" ++ "/".intercalate (segments.filter isVisible)

/-- The directories between `app` and a file `route.ts`. -/
def appSegments? (path : String) : Option (List String) :=
  match behindFirst (behindOneOf ["app"]) (Path.pieces path) with
  | some behind =>
    if behind.getLast?.bind stem? == some "route" then some behind.dropLast else none
  | none => none

/-- The segments behind `pages`, if the first is `api`; of the last, the ending is dropped. -/
def apiSegments : List String → Option (List String)
  | ["pages", file] => if stem? file == some "api" then some ["api"] else none
  | "pages" :: "api" :: rest =>
    match rest.getLast?.bind stem? with
    | some stem =>
      if !stem.isEmpty && areNamed rest then some ("api" :: rest.dropLast ++ [stem]) else none
    | none => none
  | _ => none

def dropIndex (segments : List String) : List String :=
  if segments.length > 1 && segments.getLast? == some "index" then segments.dropLast else segments

def pageSegments? (path : String) : Option (List String) :=
  (behindFirst apiSegments (Path.pieces path)).map dropIndex

def entryPoint (u : CodeUnit) (path : String) : Option EntryPoint :=
  match appSegments? path with
  | some segments =>
    if u.exported && verbs.contains u.name then some (.httpRoute u.name (routeOf segments)) else none
  | none =>
    match pageSegments? path with
    | some segments =>
      if u.defaultExport || u.name == "handler" then some (.httpRoute "ANY" (routeOf segments))
      else none
    | none => none

/-! ## Requests -/

/-- Without `http://` or `https://` and the host behind it. -/
def withoutOrigin (url : List Char) : List Char :=
  match (stripPrefix? "https://".toList url).or (stripPrefix? "http://".toList url) with
  | some (c :: rest) => if c = '/' then url else rest.dropWhile (· ≠ '/')
  | _ => url

/-- The path of a request, without origin, query, fragment and slashes at the end. -/
def requestPath? (url : List Char) : Option (List Char) :=
  let path := (withoutOrigin url).takeWhile fun c => c ≠ '?' && c ≠ '#'
  if path.head? == some '/' then
    match dropEndWhile (· = '/') path with
    | [] => some ['/']
    | trimmed => some trimmed
  else none

def methodHere? (inWord : Bool) (cs : List Char) : Option (List Char × List Char) :=
  if inWord then none
  else
    match stripPrefix? "method".toList cs with
    | some rest =>
      match rest.dropWhile isBlank with
      | ':' :: rest => quotedAll? isWord (rest.dropWhile isBlank)
      | _ => none
    | none => none

def firstMethod? (inWord : Bool) : List Char → Option (List Char × List Char)
  | [] => none
  | c :: cs =>
    match methodHere? inWord (c :: cs) with
    | some found => some found
    | none => if c = '\x7d' then none else firstMethod? (isWord c) cs

def optionsMethod? (cs : List Char) : Option (List Char × List Char) :=
  match cs with
  | ',' :: rest =>
    match rest.dropWhile isBlank with
    | c :: rest => if c = '\x7b' then firstMethod? false rest else none
    | [] => none
  | _ => none

structure Request where
  method : List Char
  url : List Char
  deriving DecidableEq, Repr

/-- `fetch("…", { method: "…" })`; without a method it is `GET`. -/
def fetchCall : Matcher Request := fun inWord cs =>
  if inWord then none
  else
    match stripPrefix? "fetch(".toList cs with
    | some rest =>
      match quoted? (rest.dropWhile isBlank) with
      | some (url, rest) =>
        let rest := rest.dropWhile isBlank
        match optionsMethod? rest with
        | some (method, rest) => some (⟨capitals method, url⟩, rest)
        | none => some (⟨"GET".toList, url⟩, rest)
      | none => none
    | none => none

def clientVerbs : List String := ["get", "post", "put", "patch", "delete", "head", "options"]

def axiosCall : Matcher Request := fun inWord cs =>
  if inWord then none
  else
    match stripPrefix? "axios.".toList cs with
    | some rest =>
      match anyOf? (clientVerbs.map (· ++ "(")) rest with
      | some (verb, rest) =>
        (quoted? (rest.dropWhile isBlank)).map fun (url, rest) =>
          (⟨capitals verb.toList.dropLast, url⟩, rest)
      | none => none
    | none => none

def hintOf (r : Request) : Option Hint :=
  (requestPath? r.url).map fun path =>
    let target := String.ofList (r.method ++ ' ' :: path)
    { kind := .httpRequest, target := .literal target, label := some target, order := none }

def hints (u : CodeUnit) : List Hint :=
  (matchesIn fetchCall u.body ++ matchesIn axiosCall u.body).filterMap hintOf

/-! ## Where a request leads -/

/-- The segments of a pattern fit those of a path.  `[x]` fits any segment, `[...x]` at least one, and
    `[[...x]]` any number. -/
def segmentsFit : List String → List String → Bool
  | [], actual => actual.isEmpty
  | p :: ps, actual =>
    if startsWith "[[..." p.toList then true
    else if startsWith "[..." p.toList then !actual.isEmpty
    else
      match actual with
      | a :: as => (startsWith "[" p.toList || p == a) && segmentsFit ps as
      | [] => false

def segmentsOf (route : String) : List String := (Path.pieces route).filter (!·.isEmpty)

def fits (route path : String) : Bool := segmentsFit (segmentsOf route) (segmentsOf path)

def handlerIn? (known : KnownFiles) (method path file : String) : Option String :=
  match appSegments? file with
  | some segments => if fits (routeOf segments) path then known.find file method else none
  | none => none

/-- The handler that a request leads to: the first in the order of the files. -/
def resolve (hint : Hint) (known : KnownFiles) : Option String :=
  match hint.kind, hint.target with
  | .httpRequest, .literal target =>
    match splitAtSpace target with
    | some (method, path) => known.paths.findSome? (handlerIn? known method path)
    | none => none
  | _, _ => none

def framework : Framework := { name := "next-route", entryPoint, hints, resolve }

end CallAtlas.Routes
