import CallAtlas.Proofs.Connections

/-!
# The edges of one unit

Where ids tell units apart, the edges that start at a unit are what its last declaration connects it
with: an edge leads to another unit if and only if a call or a hint does, and it is that of the first
connection.  Two edges of calls that start at the same unit have rising numbers.  Edges of different
units do not mix, since they differ in their source (`find_rawEdges`).
-/

namespace CallAtlas

/-- Two units with the same id have the same name and are in the same file. -/
def IdsDetermineUnits (facts : List FileFacts) : Prop :=
  ∀ f ∈ facts, ∀ g ∈ facts, ∀ u ∈ f.units, ∀ v ∈ g.units,
    nodeId f.relative u.1.name = nodeId g.relative v.1.name →
      f.path = g.path ∧ u.1.name = v.1.name

instance (facts : List FileFacts) : Decidable (IdsDetermineUnits facts) :=
  inferInstanceAs (Decidable (∀ f ∈ facts, ∀ g ∈ facts, ∀ u ∈ f.units, ∀ v ∈ g.units,
    nodeId f.relative u.1.name = nodeId g.relative v.1.name →
      f.path = g.path ∧ u.1.name = v.1.name))

/-- The file of `f` is listed and can be read, and the last unit called `name` in it is `u`, with the
    given calls. -/
def IsLastDeclaration (tree : FileTree) (root : String) (config : Config) (files : List String)
    (f : FileFacts) (name : String) (u : CodeUnit) (calls : List CallSite) : Prop :=
  ∃ file ∈ files, ∃ e, Extraction.ofFile tree config.parsing.maxFileSize (wholePath root file) = .ok e ∧
    f = .ofExtraction root (wholePath root file) e ∧ e.lastNamed name = some (u, calls)

/-- Both edges are numbered, and the number of the first is smaller. -/
def OrderBelow (a b : Edge) : Prop := ∃ m n, a.order = some m ∧ b.order = some n ∧ m < n

/-! ## Units and their edges -/

/-- In a list whose members are apart, members that are not apart are the same. -/
theorem eq_of_not_apart {α : Type} {Apart : α → α → Prop} {items : List α}
    (symmetric : ∀ a b, Apart a b → Apart b a) (apart : items.Pairwise Apart) {a b : α}
    (aMember : a ∈ items) (bMember : b ∈ items) (together : ¬ Apart a b) : a = b := by
  have all := List.Pairwise.forall_of_forall_of_flip (R := fun a b => a = b ∨ Apart a b)
    (fun _ _ => .inl rfl) (apart.imp .inr) (apart.imp fun related => .inr (symmetric _ _ related))
  exact (all aMember bMember).resolve_right together

theorem samePath_symm {a b : String} (apart : samePath a b = false) : samePath b a = false := by
  unfold samePath at apart ⊢
  rw [beq_eq_false_iff_ne] at apart ⊢
  exact apart.symm

section

variable {tree : FileTree} {root : String} {config : Config} {cache : AliasCache} {files : List String}

theorem IsLastDeclaration.member {f : FileFacts} {name : String} {u : CodeUnit}
    {calls : List CallSite} (last : IsLastDeclaration tree root config files f name u calls) :
    f ∈ builtFacts tree root config files ∧ (u, calls) ∈ f.units ∧ u.name = name := by
  obtain ⟨file, listed, e, read, rfl, found⟩ := last
  obtain ⟨kept, named⟩ := (lastNamed_eq_some_iff e name (u, calls)).mp found
  exact ⟨(mem_loadedFacts_iff ..).mpr ⟨file, listed, e, read, rfl⟩, kept, named⟩

theorem unit_of_id (distinct : IdsDetermineUnits (builtFacts tree root config files))
    {f g : FileFacts} (fLoaded : f ∈ builtFacts tree root config files)
    (gLoaded : g ∈ builtFacts tree root config files) {u v : CodeUnit × List CallSite}
    (uMember : u ∈ f.units) (vMember : v ∈ g.units)
    (sameId : nodeId f.relative u.1.name = nodeId g.relative v.1.name) : f = g ∧ u = v := by
  obtain ⟨samePaths, sameName⟩ := distinct f fLoaded g gLoaded u uMember v vMember sameId
  have sameFacts : f = g := by
    refine eq_of_not_apart (fun _ _ => samePath_symm) (loadedFacts_apart ..) fLoaded gLoaded ?_
    simp [samePath, samePaths]
  subst sameFacts
  have names := ((mem_loadedFacts_iff ..).mp fLoaded).names
  exact ⟨rfl, eq_of_not_apart (fun _ _ => Ne.symm) names uMember vMember (not_not_intro sameName)⟩

/-- Where ids tell units apart, no unit loses its node to another. -/
theorem mem_nodesOf_builtFacts_iff (distinct : IdsDetermineUnits (builtFacts tree root config files))
    (n : Node) :
    n ∈ nodesOf (builtFacts tree root config files) ↔
      ∃ f ∈ builtFacts tree root config files, ∃ u ∈ f.units, n = nodeOf f.relative u.1 := by
  constructor
  · exact exists_unit_of_mem_nodesOf
  · rintro ⟨f, loaded, u, inFile, rfl⟩
    obtain ⟨m, member, sameId⟩ :=
      (exists_id_nodesOf_iff _ (nodeId f.relative u.1.name)).mpr ⟨f, loaded, u, inFile, rfl⟩
    obtain ⟨g, gLoaded, v, inG, rfl⟩ := exists_unit_of_mem_nodesOf member
    obtain ⟨rfl, rfl⟩ := unit_of_id distinct gLoaded loaded inG inFile sameId
    exact member

end

/-! ## The first edge between two units -/

theorem find_edgesOf (s : Scope) {source target : String} (outward : target ≠ source)
    (connections : List Connection) :
    (s.edgesOf source connections).find? (·.ends == (source, target)) =
      (connections.find? (·.target == target)).map (s.edgeOf source) := by
  unfold Scope.edgesOf
  rw [List.find?_map, List.find?_filter]
  congr 2
  funext c
  by_cases here : c.target = target
  · simp [here, outward, Scope.edgeOf, Edge.ends]
  · simp [here, Scope.edgeOf, Edge.ends]

theorem source_of_mem_edgesOf {s : Scope} {source : String} {connections : List Connection} {e : Edge}
    (member : e ∈ s.edgesOf source connections) : e.source = source := by
  obtain ⟨c, -, rfl⟩ := List.mem_map.mp member
  rfl

theorem exists_source_of_find {edges : List Edge} {source target : String}
    (found : edges.find? (·.ends == (source, target)) ≠ none) : ∃ e ∈ edges, e.source = source := by
  obtain ⟨e, hit⟩ := Option.ne_none_iff_exists'.mp found
  have ends := List.find?_some hit
  simp only [Edge.ends, beq_iff_eq, Prod.mk.injEq] at ends
  exact ⟨e, List.mem_of_find?_eq_some hit, ends.1⟩

theorem findSome_eq_of_only {α β : Type} {items : List α} {find : α → Option β} {a : α}
    (member : a ∈ items) (only : ∀ b ∈ items, find b ≠ none → b = a) :
    items.findSome? find = find a := by
  induction items with
  | nil => cases member
  | cons first rest inductionHypothesis =>
    rw [List.findSome?_cons]
    cases found : find first with
    | some b =>
      obtain rfl := only first List.mem_cons_self (by simp [found])
      exact found.symm
    | none =>
      rcases List.mem_cons.mp member with rfl | later
      · rw [found]
        refine List.findSome?_eq_none_iff.mpr fun b inRest => ?_
        cases foundLater : find b with
        | none => rfl
        | some _ =>
          obtain rfl := only b (List.mem_cons_of_mem _ inRest) (by simp [foundLater])
          exact foundLater.symm.trans found
      · exact inductionHypothesis later fun b inRest => only b (List.mem_cons_of_mem _ inRest)

section

variable {tree : FileTree} {root : String} {config : Config} {cache : AliasCache} {files : List String}

/-- The first edge between two units comes from the first connection of the one with the other. -/
theorem find_rawEdges (distinct : IdsDetermineUnits (builtFacts tree root config files))
    {f : FileFacts} (loaded : f ∈ builtFacts tree root config files) {u : CodeUnit × List CallSite}
    (inFile : u ∈ f.units) {target : String} (outward : target ≠ nodeId f.relative u.1.name) :
    (rawEdges (builtScope tree root config cache files)
        (knownFilesOf (builtFacts tree root config files))).value.find?
          (·.ends == (nodeId f.relative u.1.name, target)) =
      (((builtScope tree root config cache files).connections
        (knownFilesOf (builtFacts tree root config files)) f u.1 u.2).find?
          (·.target == target)).map
            ((builtScope tree root config cache files).edgeOf (nodeId f.relative u.1.name)) := by
  -- An edge from the unit can only come from its own file, and there from the unit itself.
  rw [builtScope, rawEdges_value, List.find?_flatMap, findSome_eq_of_only loaded,
    List.find?_flatMap, findSome_eq_of_only inFile, find_edgesOf _ outward]
  · intro v vMember found
    obtain ⟨e, made, atSource⟩ := exists_source_of_find found
    rw [source_of_mem_edgesOf made] at atSource
    exact (unit_of_id distinct loaded loaded vMember inFile atSource).2
  · intro g gLoaded found
    obtain ⟨e, member, atSource⟩ := exists_source_of_find found
    obtain ⟨v, vMember, made⟩ := List.mem_flatMap.mp member
    rw [source_of_mem_edgesOf made] at atSource
    exact (unit_of_id distinct gLoaded loaded vMember inFile atSource).1

variable (cache) in
theorem find_build_edges (distinct : IdsDetermineUnits (builtFacts tree root config files))
    {f : FileFacts} (loaded : f ∈ builtFacts tree root config files) {u : CodeUnit × List CallSite}
    (inFile : u ∈ f.units) {target : String} (outward : target ≠ nodeId f.relative u.1.name) :
    (build tree root config cache files).value.edges.find?
        (·.ends == (nodeId f.relative u.1.name, target)) =
      (((builtScope tree root config cache files).connections
        (knownFilesOf (builtFacts tree root config files)) f u.1 u.2).find?
          (·.target == target)).map
            ((builtScope tree root config cache files).edgeOf (nodeId f.relative u.1.name)) := by
  rw [build_edges, dedupEdges, find_dedupFrom List.not_mem_nil]
  exact find_rawEdges distinct loaded inFile outward

end

theorem filter_ends_of_find {edges : List Edge} (apart : edges.Pairwise fun a b => a.ends ≠ b.ends)
    {ends : String × String} {e : Edge} (found : edges.find? (·.ends == ends) = some e) :
    edges.filter (·.ends == ends) = [e] := by
  induction edges with
  | nil => cases found
  | cons first rest inductionHypothesis =>
    obtain ⟨firstApart, restApart⟩ := List.pairwise_cons.mp apart
    by_cases here : first.ends = ends
    · subst here
      rw [List.find?_cons_of_pos (by simp), Option.some.injEq] at found
      subst found
      rw [List.filter_cons_of_pos (by simp), List.cons.injEq, List.filter_eq_nil_iff]
      exact ⟨rfl, fun later inRest same => firstApart later inRest (beq_iff_eq.mp same).symm⟩
    · rw [List.find?_cons_of_neg (by simp [here])] at found
      rw [List.filter_cons_of_neg (by simp [here]), inductionHypothesis restApart found]

theorem exists_connection_iff {s : Scope} {known : KnownFiles} {f : FileFacts} {u : CodeUnit}
    {calls : List CallSite} {target : String} :
    (∃ c ∈ s.connections known f u calls, c.target = target) ↔
      (∃ call ∈ calls, s.callTarget f u call = some target) ∨
        ∃ h ∈ hintsOf u, s.hintLeadsTo known f u h.1 h.2 = some target := by
  constructor
  · rintro ⟨c, member, rfl⟩
    rcases mem_connections member with
      ⟨call, made, _, _, reached, rfl⟩ | ⟨framework, hint, _, listed, leads, rfl⟩
    · exact .inl ⟨call, made, reached⟩
    · exact .inr ⟨(framework, hint), listed, leads⟩
  · rintro (⟨call, made, reached⟩ | ⟨⟨framework, hint⟩, listed, leads⟩)
    · obtain ⟨place, atPlace⟩ := List.mem_iff_getElem?.mp made
      let number := s.outwardCalls f u (nodeId f.relative u.name) (calls.take place)
      refine ⟨call.connection target number, List.mem_append_left _
        (List.mem_filterMap.mpr ⟨(call, place), List.mk_mem_zipIdx_iff_getElem?.mpr atPlace, ?_⟩), rfl⟩
      simp only [reached, Option.map_some, number]
    · refine ⟨hint.connection target, List.mem_append_right _
        (List.mem_filterMap.mpr ⟨(framework, hint), listed, ?_⟩), rfl⟩
      simp only [leads, Option.map_some]

/-! ## Numbers of calls -/

theorem callEdges_numbered {s : Scope} {f : FileFacts} {u : CodeUnit} {source : String} {order : Nat}
    {calls : List CallSite} {e : Edge}
    (member : e ∈ (callEdges s f u source order calls).value) : ∃ n, e.order = some n ∧ order ≤ n := by
  induction calls generalizing order with
  | nil => cases member
  | cons call calls inductionHypothesis =>
    rw [callEdges, Traced.value_bind] at member
    split at member
    · exact inductionHypothesis member
    · split at member
      · exact inductionHypothesis member
      · rcases List.mem_cons.mp member with rfl | later
        · exact ⟨order, rfl, Nat.le_refl order⟩
        · obtain ⟨n, numbered, above⟩ := inductionHypothesis later
          exact ⟨n, numbered, Nat.le_of_succ_le above⟩

theorem callEdges_rising (s : Scope) (f : FileFacts) (u : CodeUnit) (source : String) (order : Nat)
    (calls : List CallSite) :
    (callEdges s f u source order calls).value.Pairwise OrderBelow := by
  induction calls generalizing order with
  | nil => exact List.Pairwise.nil
  | cons call calls inductionHypothesis =>
    rw [callEdges, Traced.value_bind]
    split
    · exact inductionHypothesis order
    · split
      · exact inductionHypothesis order
      · refine List.Pairwise.cons ?_ (inductionHypothesis (order + 1))
        intro later member
        obtain ⟨n, numbered, above⟩ := callEdges_numbered member
        exact ⟨order, n, rfl, numbered, above⟩

section

variable {facts : List FileFacts} {resolve : String → String → Option String}

/-- The second edge, if it starts at the same unit and both are calls, has the higher number. -/
def RisesAmongCalls (a b : Edge) : Prop :=
  a.source = b.source → a.kind.IsCall → b.kind.IsCall → OrderBelow a b

/-- Hints make no edges of calls, so the calls decide. -/
theorem edgesOf_connections_rise (f : FileFacts) (u : CodeUnit × List CallSite) :
    ((Scope.ofFacts facts resolve).edgesOf (nodeId f.relative u.1.name)
      ((Scope.ofFacts facts resolve).connections (knownFilesOf facts) f u.1 u.2)).Pairwise
        RisesAmongCalls := by
  have hintIsNoCall : ∀ e ∈ (Scope.ofFacts facts resolve).edgesOf (nodeId f.relative u.1.name)
      ((Scope.ofFacts facts resolve).hintConnections (knownFilesOf facts) f u.1 (hintsOf u.1)),
      ¬ e.kind.IsCall := by
    intro e member
    obtain ⟨c, kept, rfl⟩ := List.mem_map.mp member
    obtain ⟨⟨framework, hint⟩, listed, made⟩ := List.mem_filterMap.mp (List.mem_filter.mp kept).1
    obtain ⟨target, -, rfl⟩ := Option.map_eq_some_iff.mp made
    exact (hint_labelled listed).2
  rw [Scope.connections, Scope.edgesOf, List.filter_append, List.map_append, List.pairwise_append]
  refine ⟨?_, ?_, ?_⟩
  · rw [← Scope.edgesOf, ← callEdges_value]
    exact (callEdges_rising ..).imp fun below _ _ _ => below
  · refine List.Pairwise.imp_of_mem (R := fun _ _ => True) ?_ (List.pairwise_of_forall fun _ _ => trivial)
    exact fun _ member _ _ _ isCall => absurd isCall (hintIsNoCall _ member)
  · exact fun _ _ b member _ _ isCall => absurd isCall (hintIsNoCall b member)

end

theorem rawEdges_rise {tree : FileTree} {root : String} {config : Config} {cache : AliasCache}
    {files : List String} (distinct : IdsDetermineUnits (builtFacts tree root config files)) :
    (rawEdges (builtScope tree root config cache files)
      (knownFilesOf (builtFacts tree root config files))).value.Pairwise RisesAmongCalls := by
  rw [builtScope, rawEdges_value, List.pairwise_flatMap]
  constructor
  -- Two units of one file differ in their names, and so do the sources of their edges.
  · intro f loaded
    rw [List.pairwise_flatMap]
    refine ⟨fun u _ => edgesOf_connections_rise f u, ?_⟩
    have names := ((mem_loadedFacts_iff ..).mp loaded).names
    refine names.imp fun {u v} differ a aMember b bMember same => ?_
    rw [source_of_mem_edgesOf aMember, source_of_mem_edgesOf bMember] at same
    exact absurd (String.append_right_inj _ |>.mp same) differ
  -- Units of two files differ in their ids, since no file is loaded twice.
  · refine List.Pairwise.imp_of_mem ?_ (loadedFacts_apart ..)
    intro f g fLoaded gLoaded apart a aMember b bMember same
    obtain ⟨u, uMember, aMember⟩ := List.mem_flatMap.mp aMember
    obtain ⟨v, vMember, bMember⟩ := List.mem_flatMap.mp bMember
    rw [source_of_mem_edgesOf aMember, source_of_mem_edgesOf bMember] at same
    have samePaths := (distinct f fLoaded g gLoaded u uMember v vMember same).1
    simp [samePath, samePaths] at apart

/-- Where ids tell units apart: an edge leads from a unit to another if and only if a call or a hint of
    its last declaration does, there is one such edge, and it is that of the first of them; and edges
    of calls that start at one unit have rising numbers. -/
theorem build_edges_exact (tree : FileTree) (root : String) (config : Config) (cache : AliasCache)
    (files : List String) (now : Instant)
    (distinct : IdsDetermineUnits (builtFacts tree root config files)) :
    let scope := builtScope tree root config cache files
    let known := knownFilesOf (builtFacts tree root config files)
    let edges := ((build tree root config cache files).value.snapshot now).edges
    (∀ f name u calls, IsLastDeclaration tree root config files f name u calls →
      ∀ target, target ≠ nodeId f.relative name →
        ((∃ e ∈ edges, e.source = nodeId f.relative name ∧ e.target = target) ↔
          (∃ call ∈ calls, scope.callTarget f u call = some target) ∨
            ∃ h ∈ hintsOf u, scope.hintLeadsTo known f u h.1 h.2 = some target) ∧
        ((∃ e ∈ edges, e.source = nodeId f.relative name ∧ e.target = target) →
          ∃ c e, (scope.connections known f u calls).find? (·.target == target) = some c ∧
            edges.filter (·.ends == (nodeId f.relative name, target)) = [e] ∧
            e.kind = c.kind ∧ e.label = c.label ∧ e.order = c.order)) ∧
    edges.Pairwise RisesAmongCalls := by
  refine ⟨?_, ?_⟩
  · intro f name u calls last target outward
    obtain ⟨loaded, inFile, rfl⟩ := last.member
    have first := find_build_edges cache distinct loaded inFile outward
    have either := congrArg Option.isSome first
    rw [Option.isSome_map, Bool.eq_iff_iff, List.find?_isSome] at either
    simp only [Edge.ends, beq_iff_eq, Prod.mk.injEq] at either
    refine ⟨?_, ?_⟩
    · simp only [List.find?_isSome, beq_iff_eq] at either
      rw [← exists_connection_iff]
      exact either
    · intro present
      obtain ⟨c, found⟩ := Option.isSome_iff_exists.mp (either.mp present)
      rw [found, Option.map_some] at first
      exact ⟨c, _, found, filter_ends_of_find (dedupEdges_apart _) first, rfl, rfl, rfl⟩
  · exact (rawEdges_rise distinct).sublist (dedupFrom_sublist [] _)

/-- A file with a function that calls another twice, the first time under a condition. -/
def repeatedCallTree : FileTree :=
  ⟨[(["p"], .directory),
    (["p", "a.ts"], .file "function f()\x7bif(x)g();g()\x7dfunction g()\x7b\x7d".toUTF8)]⟩

/-- The first connection of the last unit called `name` in a file with `target`. -/
def firstConnection (tree : FileTree) (root : String) (config : Config) (file name target : String) :
    Option Connection :=
  match Extraction.ofFile tree config.parsing.maxFileSize (wholePath root file) with
  | .error _ => none
  | .ok e => (e.lastNamed name).bind fun unit =>
    ((builtScope tree root config .empty [file]).connections
      (knownFilesOf (builtFacts tree root config [file]))
      (.ofExtraction root (wholePath root file) e) unit.1 unit.2).find? (·.target == target)

/-- Of two calls the first counts: the edge has its condition and its number. -/
theorem build_edges_exact_repeatedCall :
    IdsDetermineUnits (builtFacts repeatedCallTree "/p" Config.standard ["a.ts"]) ∧
    ∃ e, ((build repeatedCallTree "/p" Config.standard .empty ["a.ts"]).value.snapshot
        ⟨⟨2024, 1, 2, rfl⟩, 11045, 0, rfl⟩).edges.filter (·.ends == ("a.ts:f", "a.ts:g")) = [e] ∧
      e.kind = .conditionalCall ∧ e.label = some "x" ∧ e.order = some 0 := by
  have distinct : IdsDetermineUnits (builtFacts repeatedCallTree "/p" Config.standard ["a.ts"]) := by
    decide +kernel
  have first : firstConnection repeatedCallTree "/p" Config.standard "a.ts" "f" "a.ts:g" =
      some ⟨"a.ts:g", .conditionalCall, some "x", some 0⟩ := by
    decide +kernel
  unfold firstConnection at first
  split at first
  · cases first
  · rename_i e read
    obtain ⟨⟨u, calls⟩, last, first⟩ := Option.bind_eq_some_iff.mp first
    have declared : IsLastDeclaration repeatedCallTree "/p" Config.standard ["a.ts"]
        (.ofExtraction "/p" (wholePath "/p" "a.ts") e) "f" u calls :=
      ⟨"a.ts", List.mem_singleton_self _, e, read, rfl, last⟩
    have source : nodeId (FileFacts.ofExtraction "/p" (wholePath "/p" "a.ts") e).relative "f" =
        "a.ts:f" := by
      change nodeId (relativePath "/p" (wholePath "/p" "a.ts")) "f" = "a.ts:f"
      decide +kernel
    obtain ⟨present, exactly⟩ := (build_edges_exact repeatedCallTree "/p" Config.standard .empty
      ["a.ts"] ⟨⟨2024, 1, 2, rfl⟩, 11045, 0, rfl⟩ distinct).1 _ "f" u calls declared "a.ts:g"
        (by rw [source]; decide)
    rw [← exists_connection_iff] at present
    have connected := List.mem_of_find?_eq_some first
    obtain ⟨c, edge, same, alone, kind, label, order⟩ := exactly (present.mpr ⟨_, connected, rfl⟩)
    obtain rfl := Option.some.inj (first.symm.trans same)
    rw [source] at alone
    exact ⟨distinct, edge, alone, kind, label, order⟩

end CallAtlas
