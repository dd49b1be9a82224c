import CallAtlas.Proofs.Loading
import CallAtlas.Proofs.Targets

/-!
# Connections

What a unit reaches is a list of connections: first those of its calls, then those of its hints.  The
edges that start at the unit are its connections to other units, in the same order (`edgesFrom_value`).
A call is numbered by the calls before it that reach another unit.
-/

namespace CallAtlas

/-- What a call or a hint of a unit reaches, and in which way. -/
structure Connection where
  target : String
  kind : EdgeKind
  label : Option String
  order : Option Nat
  deriving DecidableEq, Repr

/-- The connection that a call makes. -/
def CallSite.connection (call : CallSite) (target : String) (order : Nat) : Connection :=
  { target
    kind := if call.guards.isEmpty then .directCall else .conditionalCall
    label := if call.guards.isEmpty then none else some (" && ".intercalate call.guards)
    order := some order }

/-- The connection that a hint makes. -/
def Hint.connection (hint : Hint) (target : String) : Connection :=
  { target, kind := hint.kind, label := hint.label, order := hint.order }

namespace Scope

/-- The unit that a call reaches. -/
def callTarget (s : Scope) (f : FileFacts) (u : CodeUnit) (call : CallSite) : Option String :=
  (s.resolveCall f u call.callee call.expression).value

/-- The unit that a hint leads to: a name in the scope of the unit is resolved like a call; otherwise
    the framework decides, and then the entry points. -/
def hintLeadsTo (s : Scope) (known : KnownFiles) (f : FileFacts) (u : CodeUnit)
    (framework : Framework) (hint : Hint) : Option String :=
  match hint.target with
  | .symbol name => (s.resolveCall f u name name).value
  | .literal text => (framework.resolve hint known).or (s.entryPointNamed hint.kind text)

/-- How many of the calls reach another unit than `source`. -/
def outwardCalls (s : Scope) (f : FileFacts) (u : CodeUnit) (source : String)
    (calls : List CallSite) : Nat :=
  calls.countP fun call => (s.callTarget f u call).any (· != source)

/-- The connections of the calls at the given places of `calls`. -/
def connectionsAt (s : Scope) (f : FileFacts) (u : CodeUnit) (source : String)
    (calls : List CallSite) (places : List (CallSite × Nat)) : List Connection :=
  places.filterMap fun (call, place) => (s.callTarget f u call).map fun target =>
    call.connection target (s.outwardCalls f u source (calls.take place))

/-- The connections of the calls of a unit. -/
def callConnections (s : Scope) (f : FileFacts) (u : CodeUnit) (source : String)
    (calls : List CallSite) : List Connection :=
  s.connectionsAt f u source calls calls.zipIdx

/-- The connections of hints. -/
def hintConnections (s : Scope) (known : KnownFiles) (f : FileFacts) (u : CodeUnit)
    (hints : List (Framework × Hint)) : List Connection :=
  hints.filterMap fun (framework, hint) =>
    (s.hintLeadsTo known f u framework hint).map hint.connection

/-- All connections of a unit, those of its calls first. -/
def connections (s : Scope) (known : KnownFiles) (f : FileFacts) (u : CodeUnit)
    (calls : List CallSite) : List Connection :=
  s.callConnections f u (nodeId f.relative u.name) calls ++ s.hintConnections known f u (hintsOf u)

/-- The edge that a connection makes. -/
def edgeOf (s : Scope) (source : String) (c : Connection) : Edge :=
  { id := edgeId source c.target
    source
    target := c.target
    kind := c.kind
    label := c.label
    isAsync := c.kind.isAsyncBoundary || s.isAsync c.target
    order := c.order }

/-- The edges from `source` that connections make. -/
def edgesOf (s : Scope) (source : String) (connections : List Connection) : List Edge :=
  (connections.filter (·.target != source)).map (s.edgeOf source)

end Scope

theorem edgeOf_call (s : Scope) (source target : String) (call : CallSite) (order : Nat) :
    s.edgeOf source (call.connection target order) = callEdge s source target call order := by
  unfold Scope.edgeOf CallSite.connection callEdge
  by_cases free : call.guards.isEmpty = true
  · simp only [free, ↓reduceIte, EdgeKind.isAsyncBoundary, Bool.false_or]
  · simp only [free, Bool.false_eq_true, ↓reduceIte, EdgeKind.isAsyncBoundary, Bool.false_or]

/-! ## The edges of a unit -/

/-- The calls of `before` have been numbered already. -/
theorem callEdges_value_from (s : Scope) (f : FileFacts) (u : CodeUnit) (source : String)
    (before calls : List CallSite) :
    (callEdges s f u source (s.outwardCalls f u source before) calls).value =
      s.edgesOf source
        (s.connectionsAt f u source (before ++ calls) (calls.zipIdx before.length)) := by
  induction calls generalizing before with
  | nil => rfl
  | cons call calls inductionHypothesis =>
    have whole : before ++ call :: calls = (before ++ [call]) ++ calls := by simp
    have later := inductionHypothesis (before ++ [call])
    rw [List.length_append, List.length_singleton, ← whole] at later
    have number : s.outwardCalls f u source (before ++ [call]) =
        s.outwardCalls f u source before +
          if (s.callTarget f u call).any (· != source) then 1 else 0 := by
      simp [Scope.outwardCalls, List.countP_append, List.countP_singleton]
    have here : (before ++ call :: calls).take before.length = before := by simp
    rw [callEdges, Traced.value_bind, List.zipIdx_cons]
    have leads : (s.resolveCall f u call.callee call.expression).value = s.callTarget f u call := rfl
    rw [leads]
    -- The next number is one higher exactly if this call makes an edge.
    cases reached : s.callTarget f u call with
    | none =>
      rw [reached] at number
      simp only [Option.any_none, Bool.false_eq_true, ↓reduceIte, Nat.add_zero] at number
      rw [number] at later
      simp only [later, Scope.connectionsAt, List.filterMap_cons, reached, Option.map_none]
    | some target =>
      by_cases itself : target = source
      · simp only [reached, Option.any_some, itself, bne_self_eq_false, Bool.false_eq_true,
          ↓reduceIte, Nat.add_zero] at number
        rw [number] at later
        simp [later, Scope.connectionsAt, reached, itself, Scope.edgesOf,
          CallSite.connection]
      · have other : (target != source) = true := bne_iff_ne.mpr itself
        simp only [reached, Option.any_some, other, ↓reduceIte] at number
        rw [number] at later
        simp only [beq_iff_eq, itself, ↓reduceIte, Traced.value_bind, later, Traced.value_pure,
          Scope.connectionsAt, List.filterMap_cons, reached, Option.map_some, here, Scope.edgesOf]
        rw [List.filter_cons_of_pos (by exact other), List.map_cons, edgeOf_call]

theorem callEdges_value (s : Scope) (f : FileFacts) (u : CodeUnit) (source : String)
    (calls : List CallSite) :
    (callEdges s f u source 0 calls).value = s.edgesOf source (s.callConnections f u source calls) :=
  callEdges_value_from s f u source [] calls

section

variable {facts : List FileFacts} {resolve : String → String → Option String}

variable (facts resolve) in
theorem hintTarget_value (f : FileFacts) (u : CodeUnit) {framework : Framework}
    (member : framework ∈ frameworks) (hint : Hint) :
    (hintTarget (Scope.ofFacts facts resolve) (knownFilesOf facts) f u framework hint).value =
      (Scope.ofFacts facts resolve).hintLeadsTo (knownFilesOf facts) f u framework hint := by
  unfold Scope.hintLeadsTo
  cases target : hint.target with
  | symbol name => simp only [hintTarget, target]
  | literal text => exact hintTarget_literal member target

theorem hintEdges_value (f : FileFacts) (u : CodeUnit) (source : String)
    {hints : List (Framework × Hint)} (listed : ∀ h ∈ hints, h.1 ∈ frameworks) :
    (hintEdges (Scope.ofFacts facts resolve) (knownFilesOf facts) f u source hints).value =
      (Scope.ofFacts facts resolve).edgesOf source
        ((Scope.ofFacts facts resolve).hintConnections (knownFilesOf facts) f u hints) := by
  induction hints with
  | nil => rfl
  | cons h hints inductionHypothesis =>
    obtain ⟨framework, hint⟩ := h
    have later := inductionHypothesis fun h member => listed h (List.mem_cons_of_mem _ member)
    rw [hintEdges, Traced.value_bind,
      hintTarget_value facts resolve f u (listed _ List.mem_cons_self) hint]
    cases leads : (Scope.ofFacts facts resolve).hintLeadsTo (knownFilesOf facts) f u framework hint with
    | none => simp only [Traced.value_bind, later, Scope.hintConnections, List.filterMap_cons, leads,
        Option.map_none]
    | some target =>
      simp only [Traced.value_bind, Traced.value_pure, later, Scope.hintConnections,
        List.filterMap_cons, leads, Option.map_some, Scope.edgesOf]
      by_cases itself : target = source
      · simp [itself, Hint.connection]
      · simp [itself, Hint.connection, Scope.edgeOf, hintEdge]

theorem edgesFrom_value (f : FileFacts) (u : CodeUnit) (calls : List CallSite) :
    (edgesFrom (Scope.ofFacts facts resolve) (knownFilesOf facts) f u calls).value =
      (Scope.ofFacts facts resolve).edgesOf (nodeId f.relative u.name)
        ((Scope.ofFacts facts resolve).connections (knownFilesOf facts) f u calls) := by
  have listed : ∀ h ∈ hintsOf u, h.1 ∈ frameworks := fun h member => (mem_hintsOf member).1
  rw [edgesFrom, Traced.value_bind, Traced.value_bind, Traced.value_pure, callEdges_value,
    hintEdges_value f u _ listed, Scope.connections]
  simp only [Scope.edgesOf, List.filter_append, List.map_append]

/-! ## What connections are like -/

/-- A connection comes from a call or from a hint. -/
theorem mem_connections {s : Scope} {known : KnownFiles} {f : FileFacts} {u : CodeUnit}
    {calls : List CallSite} {c : Connection} (member : c ∈ s.connections known f u calls) :
    (∃ call ∈ calls, ∃ target order, s.callTarget f u call = some target ∧
      c = call.connection target order) ∨
    (∃ framework hint target, (framework, hint) ∈ hintsOf u ∧
      s.hintLeadsTo known f u framework hint = some target ∧ c = hint.connection target) := by
  rcases List.mem_append.mp member with called | hinted
  · obtain ⟨⟨call, place⟩, listed, made⟩ := List.mem_filterMap.mp called
    obtain ⟨target, reached, rfl⟩ := Option.map_eq_some_iff.mp made
    exact .inl ⟨call, List.fst_mem_of_mem_zipIdx listed, target, _, reached, rfl⟩
  · obtain ⟨⟨framework, hint⟩, listed, made⟩ := List.mem_filterMap.mp hinted
    obtain ⟨target, leads, rfl⟩ := Option.map_eq_some_iff.mp made
    exact .inr ⟨framework, hint, target, listed, leads, rfl⟩

theorem connection_target_isNode {f : FileFacts} {u : CodeUnit} {calls : List CallSite}
    {c : Connection}
    (member : c ∈ (Scope.ofFacts facts resolve).connections (knownFilesOf facts) f u calls) :
    (Scope.ofFacts facts resolve).IsNode c.target := by
  rcases mem_connections member with
    ⟨call, -, target, order, reached, rfl⟩ | ⟨framework, hint, target, listed, leads, rfl⟩
  · exact resolveCall_isNode reached
  · have known := (mem_hintsOf listed).1
    rw [← hintTarget_value facts resolve f u known hint] at leads
    exact hintTarget_isNode known leads

/-- An edge of the kind is made by a call. -/
def EdgeKind.IsCall (kind : EdgeKind) : Prop := kind = .directCall ∨ kind = .conditionalCall

instance (kind : EdgeKind) : Decidable kind.IsCall :=
  inferInstanceAs (Decidable (kind = .directCall ∨ kind = .conditionalCall))

/-- Every hint has a label, and none is a call. -/
theorem hint_labelled {u : CodeUnit} {framework : Framework} {hint : Hint}
    (member : (framework, hint) ∈ hintsOf u) : hint.label ≠ none ∧ ¬ hint.kind.IsCall := by
  rcases hint_shape member with ⟨-, text, rfl⟩ | ⟨-, task, rfl⟩ | ⟨-, event, rfl⟩ |
    ⟨-, kind, name, label, position, kinds, rfl⟩
  · simp [EdgeKind.IsCall]
  · simp [EdgeKind.IsCall]
  · simp [EdgeKind.IsCall]
  · rcases kinds with rfl | rfl <;> simp [EdgeKind.IsCall]

theorem connection_label {s : Scope} {known : KnownFiles} {f : FileFacts} {u : CodeUnit}
    {calls : List CallSite} {c : Connection} (member : c ∈ s.connections known f u calls) :
    c.label = none ↔ c.kind = .directCall := by
  rcases mem_connections member with
    ⟨call, -, target, order, -, rfl⟩ | ⟨framework, hint, target, listed, -, rfl⟩
  · unfold CallSite.connection
    by_cases free : call.guards.isEmpty = true <;> simp [free]
  · obtain ⟨labelled, notCall⟩ := hint_labelled listed
    exact ⟨fun missing => absurd missing labelled, fun direct => absurd (.inl direct) notCall⟩

/-! ## All edges -/

theorem rawEdges_value :
    (rawEdges (Scope.ofFacts facts resolve) (knownFilesOf facts)).value =
      facts.flatMap fun f => f.units.flatMap fun u =>
        (Scope.ofFacts facts resolve).edgesOf (nodeId f.relative u.1.name)
          ((Scope.ofFacts facts resolve).connections (knownFilesOf facts) f u.1 u.2) := by
  simp only [rawEdges, gather_value, edgesFrom_value]
  rfl

theorem mem_rawEdges {e : Edge}
    (member : e ∈ (rawEdges (Scope.ofFacts facts resolve) (knownFilesOf facts)).value) :
    ∃ f ∈ facts, ∃ u ∈ f.units, ∃ c ∈
      (Scope.ofFacts facts resolve).connections (knownFilesOf facts) f u.1 u.2,
      c.target ≠ nodeId f.relative u.1.name ∧
        e = (Scope.ofFacts facts resolve).edgeOf (nodeId f.relative u.1.name) c := by
  rw [rawEdges_value] at member
  obtain ⟨f, loaded, member⟩ := List.mem_flatMap.mp member
  obtain ⟨u, inFile, member⟩ := List.mem_flatMap.mp member
  obtain ⟨c, kept, rfl⟩ := List.mem_map.mp member
  obtain ⟨connected, outward⟩ := List.mem_filter.mp kept
  exact ⟨f, loaded, u, inFile, c, connected, bne_iff_ne.mp outward, rfl⟩

end

/-! ## The first edge for each pair of ends -/

theorem dedupFrom_sublist (seen : List (String × String)) (edges : List Edge) :
    (dedupFrom seen edges).Sublist edges := by
  induction edges generalizing seen with
  | nil => exact List.Sublist.refl []
  | cons e edges inductionHypothesis =>
    unfold dedupFrom
    split
    · exact (inductionHypothesis seen).cons e
    · exact (inductionHypothesis (e.ends :: seen)).cons_cons e

theorem ends_not_mem_of_mem_dedupFrom {seen : List (String × String)} {edges : List Edge} {e : Edge}
    (member : e ∈ dedupFrom seen edges) : e.ends ∉ seen := by
  induction edges generalizing seen with
  | nil => cases member
  | cons first edges inductionHypothesis =>
    unfold dedupFrom at member
    split at member
    · exact inductionHypothesis member
    · rename_i new
      rcases List.mem_cons.mp member with rfl | later
      · simpa using new
      · exact fun old => inductionHypothesis later (List.mem_cons_of_mem _ old)

theorem dedupFrom_apart (seen : List (String × String)) (edges : List Edge) :
    (dedupFrom seen edges).Pairwise fun a b => a.ends ≠ b.ends := by
  induction edges generalizing seen with
  | nil => exact List.Pairwise.nil
  | cons e edges inductionHypothesis =>
    unfold dedupFrom
    split
    · exact inductionHypothesis seen
    · refine List.Pairwise.cons ?_ (inductionHypothesis (e.ends :: seen))
      intro later member same
      exact ends_not_mem_of_mem_dedupFrom member (same ▸ List.mem_cons_self)

/-- For each pair of ends that was not seen before, the first edge is kept. -/
theorem find_dedupFrom {seen : List (String × String)} {ends : String × String} (new : ends ∉ seen)
    (edges : List Edge) :
    (dedupFrom seen edges).find? (·.ends == ends) = edges.find? (·.ends == ends) := by
  induction edges generalizing seen with
  | nil => rfl
  | cons e edges inductionHypothesis =>
    unfold dedupFrom
    by_cases here : e.ends = ends
    · have kept : seen.contains e.ends = false := by simpa [here] using new
      rw [kept]
      simp [here]
    · split
      · rw [inductionHypothesis new, List.find?_cons_of_neg (by simp [here])]
      · rw [List.find?_cons_of_neg (by simp [here]), List.find?_cons_of_neg (by simp [here])]
        refine inductionHypothesis fun old => ?_
        rcases List.mem_cons.mp old with same | older
        · exact here same.symm
        · exact new older

theorem dedupEdges_apart (edges : List Edge) :
    (dedupEdges edges).Pairwise fun a b => a.ends ≠ b.ends :=
  dedupFrom_apart [] edges

theorem mem_of_mem_dedupEdges {edges : List Edge} {e : Edge} (member : e ∈ dedupEdges edges) :
    e ∈ edges :=
  (dedupFrom_sublist [] edges).subset member

/-! ## The graph in terms of its facts -/

section

variable (tree : FileTree) (root : String) (config : Config) (cache : AliasCache) (files : List String)

/-- The facts that a build goes by. -/
def builtFacts : List FileFacts := loadedFacts tree root config.parsing.maxFileSize files

/-- The scope in which a build resolves what is called. -/
def builtScope : Scope :=
  Scope.ofFacts (builtFacts tree root config files) (Specifier.resolve tree config.resolution cache)

theorem build_nodes :
    (build tree root config cache files).value.nodes = nodesOf (builtFacts tree root config files) := by
  rfl

theorem build_edges :
    (build tree root config cache files).value.edges =
      dedupEdges (rawEdges (builtScope tree root config cache files)
        (knownFilesOf (builtFacts tree root config files))).value := by
  rfl

end

end CallAtlas
