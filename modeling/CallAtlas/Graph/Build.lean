import CallAtlas.Graph.Search
import CallAtlas.Text.Quoted

/-!
# Building the graph

First every unit becomes a node, then every call and every hint that reaches a unit becomes an edge,
and at last only the first edge between two units is kept.
-/

namespace CallAtlas

open Text

structure BuildOutcome where
  nodes : List Node
  edges : List Edge
  issues : List BuildIssue
  deriving Repr

/-! ## Nodes -/

def nodeOf (file : String) (u : CodeUnit) : Node :=
  { id := nodeId file u.name
    name := u.name
    kind := u.kind
    filePath := file
    isAsync := u.isAsync
    contentHash := u.hash
    lineStart := u.firstLine
    lineEnd := u.lastLine
    entryPoint := entryPointOf u file }

/-- The nodes, which are in the order of their ids, with one more; it replaces a node of the same
    id. -/
def insertNode (n : Node) : List Node → List Node
  | [] => [n]
  | m :: ms =>
    if n.id == m.id then n :: ms
    else if n.id < m.id then n :: m :: ms
    else m :: insertNode n ms

/-- All units with the paths of their files within the project, in the order of the files. -/
def allUnits (facts : List FileFacts) : List (String × CodeUnit) :=
  facts.flatMap fun f => f.units.map fun u => (f.relative, u.1)

def nodesOf (facts : List FileFacts) : List Node :=
  (allUnits facts).foldl (fun nodes u => insertNode (nodeOf u.1 u.2) nodes) []

def knownFilesOf (facts : List FileFacts) : KnownFiles :=
  KnownFiles.ofPairs ((allUnits facts).map fun u => (u.1, u.2.name))

/-! ## Edges -/

def Scope.isAsync (s : Scope) (id : String) : Bool :=
  ((s.nodes.find? (·.id == id)).map (·.isAsync)).getD false

/-- The edge that a call makes.  A call under conditions is labelled with them. -/
def callEdge (s : Scope) (source target : String) (call : CallSite) (order : Nat) : Edge :=
  { id := edgeId source target
    source
    target
    kind := if call.guards.isEmpty then .directCall else .conditionalCall
    label := if call.guards.isEmpty then none else some (" && ".intercalate call.guards)
    isAsync := s.isAsync target
    order := some order }

/-- The edges of the calls of a unit, numbered from `order` on.  A call of the unit itself makes no
    edge. -/
def callEdges (s : Scope) (f : FileFacts) (u : CodeUnit) (source : String) (order : Nat) :
    List CallSite → Traced (List Edge)
  | [] => pure []
  | call :: calls => do
    match ← s.resolveCall f u call.callee call.expression with
    | none => callEdges s f u source order calls
    | some target =>
      if target == source then callEdges s f u source order calls
      else
        let edges ← callEdges s f u source (order + 1) calls
        return callEdge s source target call order :: edges

def hintTarget (s : Scope) (known : KnownFiles) (f : FileFacts) (u : CodeUnit) (framework : Framework)
    (hint : Hint) : Traced (Option String) :=
  match hint.target with
  | .symbol name => s.resolveCall f u name name
  | .literal text =>
    pure (((framework.resolve hint known).filter s.hasNode).or (s.entryPointNamed hint.kind text))

def hintEdge (s : Scope) (source target : String) (hint : Hint) : Edge :=
  { id := edgeId source target
    source
    target
    kind := hint.kind
    label := hint.label
    isAsync := hint.kind.isAsyncBoundary || s.isAsync target
    order := hint.order }

def HintTarget.shown : HintTarget → String
  | literal text => "Literal(" ++ quote text ++ ")"
  | symbol name => "Symbol(" ++ quote name ++ ")"

def hintEdges (s : Scope) (known : KnownFiles) (f : FileFacts) (u : CodeUnit) (source : String) :
    List (Framework × Hint) → Traced (List Edge)
  | [] => pure []
  | (framework, hint) :: hints => do
    match ← hintTarget s known f u framework hint with
    | none =>
      Traced.debug (source ++ ": dropping unresolved " ++ framework.name ++ " hint " ++
        hint.target.shown)
      hintEdges s known f u source hints
    | some target =>
      let edges ← hintEdges s known f u source hints
      return if target == source then edges else hintEdge s source target hint :: edges

/-- The edges that start at a unit: those of its calls, then those of its hints. -/
def edgesFrom (s : Scope) (known : KnownFiles) (f : FileFacts) (u : CodeUnit)
    (calls : List CallSite) : Traced (List Edge) := do
  let source := nodeId f.relative u.name
  let called ← callEdges s f u source 0 calls
  let hinted ← hintEdges s known f u source (hintsOf u)
  return called ++ hinted

def gather {α β : Type} (f : α → Traced (List β)) : List α → Traced (List β)
  | [] => pure []
  | a :: as => do
    let here ← f a
    let there ← gather f as
    return here ++ there

/-- All edges, also several between the same units. -/
def rawEdges (s : Scope) (known : KnownFiles) : Traced (List Edge) :=
  gather (fun f => gather (fun (u, calls) => edgesFrom s known f u calls) f.units) s.facts

/-! ## The whole graph -/

def link (facts : List FileFacts) (resolve : String → String → Option String) :
    Traced (List Node × List Edge) := do
  let nodes := nodesOf facts
  let raw ← rawEdges ⟨facts, nodes, resolve⟩ (knownFilesOf facts)
  let edges := dedupEdges raw
  Traced.info ("Graph built: " ++ toString nodes.length ++ " nodes, " ++ toString edges.length ++
    " edges (" ++ toString raw.length ++ " before dedup)")
  return (nodes, edges)

def build (tree : FileTree) (root : String) (config : Config) (cache : AliasCache)
    (files : List String) : Traced BuildOutcome := do
  Traced.debug ("Classifiers: " ++ ", ".intercalate (frameworks.map (·.name)))
  let (facts, issues) ← loadFiles tree root config.parsing.maxFileSize files
  Traced.info ("Parsed " ++ toString facts.length ++ " of " ++ toString files.length ++ " files")
  let (nodes, edges) ← link facts (Specifier.resolve tree config.resolution cache)
  return { nodes, edges, issues }

def version : String := "0.1.0"

def BuildOutcome.snapshot (outcome : BuildOutcome) (now : Instant) : Snapshot :=
  { version, generatedAt := now, nodes := outcome.nodes, edges := outcome.edges }

end CallAtlas
