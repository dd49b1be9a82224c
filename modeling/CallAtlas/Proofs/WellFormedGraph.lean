import CallAtlas.Proofs.ByteOrder
import CallAtlas.Proofs.Connections

/-!
# Built graphs are well formed

The targets of edges come from calls in the same file, from imports and the re-exports behind them, from
the frameworks, and from entry points.  Wherever a target comes from, the graph that is built is closed:
edges go from one node to another (`build_wellFormed`).
-/

namespace CallAtlas

/-- A snapshot of a closed graph. -/
structure Snapshot.WellFormed (s : Snapshot) : Prop where
  idsRise : s.nodes.Pairwise fun a b => bytesOf a.id < bytesOf b.id
  idOfNode : ∀ n ∈ s.nodes, n.id = n.filePath ++ ":" ++ n.name
  sourceIsNode : ∀ e ∈ s.edges, ∃ n ∈ s.nodes, n.id = e.source
  targetIsNode : ∀ e ∈ s.edges, ∃ n ∈ s.nodes, n.id = e.target
  noLoop : ∀ e ∈ s.edges, e.source ≠ e.target
  /-- At most one edge goes from one node to another. -/
  endsApart : s.edges.Pairwise fun a b => (a.source, a.target) ≠ (b.source, b.target)
  idOfEdge : ∀ e ∈ s.edges, e.id = e.source ++ "->" ++ e.target
  asyncAsTarget : ∀ e ∈ s.edges,
    e.kind ∈ [.directCall, .conditionalCall, .middlewareChain, .errorHandler] →
      ∀ n ∈ s.nodes, n.id = e.target → e.isAsync = n.isAsync
  asyncBoundary : ∀ e ∈ s.edges,
    e.kind ∈ [.asyncDispatch, .eventEmit, .httpRequest] → e.isAsync = true
  label : ∀ e ∈ s.edges, e.label = none ↔ e.kind = .directCall

theorem EdgeKind.isAsyncBoundary_iff (kind : EdgeKind) :
    kind.isAsyncBoundary = true ↔ kind ∈ [.asyncDispatch, .eventEmit, .httpRequest] := by
  cases kind <;> decide

theorem EdgeKind.not_isAsyncBoundary_iff (kind : EdgeKind) :
    kind.isAsyncBoundary = false ↔
      kind ∈ [.directCall, .conditionalCall, .middlewareChain, .errorHandler] := by
  cases kind <;> decide

section

variable {tree : FileTree} {root : String} {config : Config} {cache : AliasCache} {files : List String}

theorem exists_connection_of_mem_edges {e : Edge}
    (member : e ∈ (build tree root config cache files).value.edges) :
    ∃ f ∈ builtFacts tree root config files, ∃ u ∈ f.units, ∃ c ∈
      (builtScope tree root config cache files).connections
        (knownFilesOf (builtFacts tree root config files)) f u.1 u.2,
      c.target ≠ nodeId f.relative u.1.name ∧
        e = (builtScope tree root config cache files).edgeOf (nodeId f.relative u.1.name) c := by
  rw [build_edges] at member
  exact mem_rawEdges (mem_of_mem_dedupEdges member)

/-- The node under an id is the one that decides whether it runs later. -/
theorem isAsync_eq {n : Node} (member : n ∈ (build tree root config cache files).value.nodes) :
    (builtScope tree root config cache files).isAsync n.id = n.isAsync := by
  rw [build_nodes] at member
  have found : (builtScope tree root config cache files).nodes.find? (·.id == n.id) = some n :=
    find_of_ascending (nodesOf_ascending _) member
  rw [Scope.isAsync, found]
  rfl

end

theorem build_wellFormed (tree : FileTree) (root : String) (config : Config) (cache : AliasCache)
    (files : List String) (now : Instant) :
    ((build tree root config cache files).value.snapshot now).WellFormed where
  idsRise := (nodesOf_ascending _).bytes
  idOfNode := by
    intro n member
    obtain ⟨f, -, u, -, rfl⟩ := exists_unit_of_mem_nodesOf member
    rfl
  sourceIsNode := by
    intro e member
    obtain ⟨f, loaded, u, inFile, c, -, -, rfl⟩ := exists_connection_of_mem_edges member
    exact (exists_id_nodesOf_iff _ _).mpr ⟨f, loaded, u, inFile, rfl⟩
  targetIsNode := by
    intro e member
    obtain ⟨f, -, u, -, c, connected, -, rfl⟩ := exists_connection_of_mem_edges member
    exact connection_target_isNode connected
  noLoop := by
    intro e member
    obtain ⟨f, -, u, -, c, -, outward, rfl⟩ := exists_connection_of_mem_edges member
    exact outward.symm
  endsApart := dedupEdges_apart _
  idOfEdge := by
    intro e member
    obtain ⟨f, -, u, -, c, -, -, rfl⟩ := exists_connection_of_mem_edges member
    rfl
  asyncAsTarget := by
    intro e member kinds n isNode atTarget
    obtain ⟨f, -, u, -, c, -, -, rfl⟩ := exists_connection_of_mem_edges member
    have here : c.kind.isAsyncBoundary = false := c.kind.not_isAsyncBoundary_iff.mpr kinds
    have target : c.target = n.id := atTarget.symm
    rw [Scope.edgeOf, here, Bool.false_or, target, isAsync_eq isNode]
  asyncBoundary := by
    intro e member kinds
    obtain ⟨f, -, u, -, c, -, -, rfl⟩ := exists_connection_of_mem_edges member
    have elsewhere : c.kind.isAsyncBoundary = true := c.kind.isAsyncBoundary_iff.mpr kinds
    rw [Scope.edgeOf, elsewhere, Bool.true_or]
  label := by
    intro e member
    obtain ⟨f, -, u, -, c, connected, -, rfl⟩ := exists_connection_of_mem_edges member
    exact connection_label connected

end CallAtlas
