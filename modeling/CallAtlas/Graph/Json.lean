import CallAtlas.Graph.Basic
import CallAtlas.Json.Basic

/-!
# Snapshots as JSON

A record is written as an object with its fields in order; an optional field without a value is left
out.  A record is read from an object, whose other members are ignored, or from an array of its fields
in order.  A field that occurs twice is refused.
-/

namespace CallAtlas

namespace Json

/-- The fields of a record called `names`.  A field that is missing is `none`. -/
def fields? (names : List String) : Json → Option (List (Option Json))
  | object members =>
    if names.all fun name => (members.filter (·.1 == name)).length ≤ 1 then
      some (names.map fun name => lookup name members)
    else none
  | array items =>
    if items.length ≤ names.length then
      some (items.map some ++ List.replicate (names.length - items.length) none)
    else none
  | _ => none

/-- The name of a value without contents: a string, or an object with that name and nothing else. -/
def constant? : Json → Option String
  | string s => some s
  | object [(name, null)] => some name
  | _ => none

def optionally? {α : Type} (read : Json → Option α) : Option Json → Option (Option α)
  | none | some null => some none
  | some v => (read v).map some

end Json

open Json (fields? constant? optionally?)

/-! ## Writing -/

def EntryPoint.toJson : EntryPoint → Json
  | httpRoute method route => .object [("type", .string "http-route"),
      ("method", .string method), ("route", .string route)]
  | eventHandler event => .object [("type", .string "event-handler"), ("event", .string event)]
  | backgroundTask taskId =>
    .object [("type", .string "background-task"), ("taskId", .string taskId)]

def optionalMember (name : String) (v : Option Json) : List (String × Json) :=
  (v.map fun v => (name, v)).toList

def Node.toJson (n : Node) : Json :=
  .object ([("id", .string n.id), ("name", .string n.name), ("kind", .string n.kind.text),
    ("filePath", .string n.filePath), ("isAsync", .bool n.isAsync),
    ("contentHash", .string n.contentHash), ("lineStart", .natural n.lineStart),
    ("lineEnd", .natural n.lineEnd)] ++
    optionalMember "entryPoint" (n.entryPoint.map EntryPoint.toJson))

def Edge.toJson (e : Edge) : Json :=
  .object ([("id", .string e.id), ("source", .string e.source), ("target", .string e.target),
    ("kind", .string e.kind.text)] ++
    optionalMember "label" (e.label.map .string) ++
    [("isAsync", .bool e.isAsync)] ++
    optionalMember "order" (e.order.map .natural))

def Snapshot.toJson (s : Snapshot) : Json :=
  .object [("version", .string s.version), ("generatedAt", .string s.generatedAt.text),
    ("nodes", .array (s.nodes.map Node.toJson)), ("edges", .array (s.edges.map Edge.toJson))]

/-! ## Reading -/

def EntryPoint.ofFields? : String → Json → Option EntryPoint
  | "http-route", v => do
    let [method, route] ← fields? ["method", "route"] v | none
    return httpRoute (← method.bind Json.string?) (← route.bind Json.string?)
  | "event-handler", v => do
    let [event] ← fields? ["event"] v | none
    return eventHandler (← event.bind Json.string?)
  | "background-task", v => do
    let [taskId] ← fields? ["taskId"] v | none
    return backgroundTask (← taskId.bind Json.string?)
  | _, _ => none

def EntryPoint.ofJson? : Json → Option EntryPoint
  | .object members => do
    let [type] ← fields? ["type"] (.object members) | none
    ofFields? (← type.bind Json.string?) (.object members)
  | .array (type :: rest) => do ofFields? (← type.string?) (.array rest)
  | _ => none

def Node.ofJson? (v : Json) : Option Node := do
  let [id, name, kind, filePath, isAsync, contentHash, lineStart, lineEnd, entryPoint] ← fields?
    ["id", "name", "kind", "filePath", "isAsync", "contentHash", "lineStart", "lineEnd",
      "entryPoint"] v | none
  return {
    id := ← id.bind Json.string?
    name := ← name.bind Json.string?
    kind := ← (kind.bind constant?).bind UnitKind.ofText?
    filePath := ← filePath.bind Json.string?
    isAsync := ← isAsync.bind Json.bool?
    contentHash := ← contentHash.bind Json.string?
    lineStart := ← lineStart.bind Json.word?
    lineEnd := ← lineEnd.bind Json.word?
    entryPoint := ← optionally? EntryPoint.ofJson? entryPoint }

def Edge.ofJson? (v : Json) : Option Edge := do
  let [id, source, target, kind, label, isAsync, order] ← fields?
    ["id", "source", "target", "kind", "label", "isAsync", "order"] v | none
  return {
    id := ← id.bind Json.string?
    source := ← source.bind Json.string?
    target := ← target.bind Json.string?
    kind := ← (kind.bind constant?).bind EdgeKind.ofText?
    label := ← optionally? Json.string? label
    isAsync := ← isAsync.bind Json.bool?
    order := ← optionally? Json.word? order }

def Json.listOf? {α : Type} (read : Json → Option α) (v : Json) : Option (List α) :=
  v.items?.bind fun items => items.mapM read

def Snapshot.ofJson? (v : Json) : Option Snapshot := do
  let [version, generatedAt, nodes, edges] ← fields?
    ["version", "generatedAt", "nodes", "edges"] v | none
  return {
    version := ← version.bind Json.string?
    generatedAt := ← (generatedAt.bind Json.string?).bind Instant.parse?
    nodes := ← nodes.bind (Json.listOf? Node.ofJson?)
    edges := ← edges.bind (Json.listOf? Edge.ofJson?) }

end CallAtlas
