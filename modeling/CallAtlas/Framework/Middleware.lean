import CallAtlas.Framework.Hint
import CallAtlas.Framework.Scan
import CallAtlas.Text.Capital

/-!
# Chains of middleware

A server is given its handlers in a call such as `app.use(a, b)` or `router.get("/x", auth, list)`.
Every handler that is given by name is connected, in the order of the arguments.
-/

namespace CallAtlas.Middleware

open Text Scan

def registrars : List String := ["app", "router", "server"]

def methods : List String := ["use", "get", "post", "put", "patch", "delete", "all"]

structure Registration where
  method : String
  /-- The arguments, without blanks around them. -/
  arguments : List (List Char)
  deriving DecidableEq, Repr

/-- `app.use(…)` and its kin, without brackets among the arguments. -/
def registration : Matcher Registration := fun inWord cs =>
  if inWord then none
  else
    match anyOf? (registrars.map (· ++ ".")) cs with
    | some (_, rest) =>
      match anyOf? (methods.map (· ++ "(")) rest with
      | some (method, rest) =>
        let isBracket (c : Char) : Bool := c = '(' || c = ')'
        match rest.dropWhile (!isBracket ·) with
        | ')' :: after =>
          let arguments := (splitAt (· = ',') (rest.takeWhile (!isBracket ·))).map trim
          some (⟨String.ofList method.toList.dropLast, arguments⟩, after)
        | _ => none
      | none => none
    | none => none

def isIdentifier : List Char → Bool
  | [] => false
  | c :: cs => (c.isAlpha || c = '_' || c = '$') && cs.all fun c => isWord c || c = '$'

def isWordEnd (p : Char → Bool) : List Char → Bool
  | [] => true
  | c :: _ => c.isDigit || c = '_' || c = '$' || p c

/-- One of the words stands at the start of the text and ends there. -/
def startsWithWord (words : List String) (p : Char → Bool) (cs : List Char) : Bool :=
  words.any fun w => ((stripPrefix? w.toList cs).map (isWordEnd p)).getD false

/-- A word for errors starts here; `atStart` says that a word of the name starts here. -/
def errorWordHere (atStart : Bool) (cs : List Char) : Bool :=
  (atStart && startsWithWord ["err", "error", "errors"] Char.isUpper cs) ||
    startsWithWord ["Err", "Error", "Errors"] Char.isUpper cs ||
    (atStart && startsWithWord ["ERR", "ERROR", "ERRORS"] (fun _ => false) cs)

def hasErrorWord (atStart : Bool) : List Char → Bool
  | [] => false
  | c :: cs => errorWordHere atStart (c :: cs) || hasErrorWord (c = '_') cs

/-- The name of a handler for errors: `onError`, `errorHandler`, `ERROR_PAGE`, but not `deferred`. -/
def isErrorName (name : List Char) : Bool := hasErrorWord true name

/-- What a registration is called: its method, and its path if it has one. -/
def labelOf (r : Registration) : String :=
  let method := String.ofList (capitals r.method.toList)
  match r.arguments.head?.bind stringLiteral? with
  | some path => method ++ " " ++ String.ofList path
  | none => method

def hintsOf (r : Registration) : List Hint :=
  (r.arguments.filter isIdentifier).zipIdx.map fun (name, position) =>
    { kind := if r.method == "use" && isErrorName name then .errorHandler else .middlewareChain
      target := .symbol (String.ofList name)
      label := some (labelOf r)
      order := some position }

def hints (u : CodeUnit) : List Hint := (matchesIn registration u.body).flatMap hintsOf

def framework : Framework :=
  { name := "express", entryPoint := fun _ _ => none, hints, resolve := fun _ _ => none }

end CallAtlas.Middleware
