import CallAtlas.Proofs.KnownUnits
import CallAtlas.Proofs.Nodes

/-!
# What a search finds

The values of the searches, without their traces: `firstOf` is a `findSome?`, and from it the values of
`lookupExport` and `resolveCall` follow.  Whatever a search finds is the id of a node
(`resolveCall_isNode`, `hintTarget_isNode`), although the targets come from five different places.
-/

namespace CallAtlas

/-! ## Values of traced computations -/

theorem firstOf_value {α β : Type} (f : α → Traced (Option β)) (items : List α) :
    (Scope.firstOf f items).value = items.findSome? fun a => (f a).value := by
  induction items with
  | nil => rfl
  | cons a items inductionHypothesis =>
    rw [Scope.firstOf, Traced.value_bind, List.findSome?_cons]
    cases (f a).value with
    | none => exact inductionHypothesis
    | some b => rfl

theorem gather_value {α β : Type} (f : α → Traced (List β)) (items : List α) :
    (gather f items).value = items.flatMap fun a => (f a).value := by
  induction items with
  | nil => rfl
  | cons a items inductionHypothesis =>
    rw [gather, Traced.value_bind, Traced.value_bind, List.flatMap_cons, ← inductionHypothesis]
    rfl

namespace Scope

/-- The scope of a search in the graph over `facts`. -/
def ofFacts (facts : List FileFacts) (resolve : String → String → Option String) : Scope :=
  ⟨facts, nodesOf facts, resolve⟩

/-- The id is that of a node. -/
def IsNode (s : Scope) (id : String) : Prop := ∃ n ∈ s.nodes, n.id = id

theorem hasNode_iff (s : Scope) (id : String) : s.hasNode id = true ↔ s.IsNode id := by
  simp [hasNode, IsNode]

/-! ## Exports -/

/-- What the re-exports of a file lead to, where `follow` looks a name up in another module. -/
def throughReExports (s : Scope) (f : FileFacts) (name : String)
    (follow : String → String → Option String) : Option String :=
  f.reExports.findSome? fun r =>
    (passedOn r name).bind fun inner =>
      (s.resolve f.path r.specifier).bind fun target => follow target inner

theorem lookupExport_zero (s : Scope) (path name : String) :
    (s.lookupExport 0 path name).value = (s.factsAt path).bind fun f => s.providedBy f name := by
  rw [lookupExport]
  cases s.factsAt path with
  | none => rfl
  | some f => cases provided : s.providedBy f name <;> simp [provided]

theorem lookupExport_succ (s : Scope) (hops : Nat) (path name : String) :
    (s.lookupExport (hops + 1) path name).value =
      (s.factsAt path).bind fun f => (s.providedBy f name).or
        (s.throughReExports f name fun target inner => (s.lookupExport hops target inner).value) := by
  rw [lookupExport]
  cases s.factsAt path with
  | none => rfl
  | some f =>
    cases provided : s.providedBy f name with
    | some id => simp [provided]
    | none =>
      simp only [provided, Option.bind_some, Option.none_or, throughReExports, firstOf_value]
      congr 1
      funext r
      cases passedOn r name with
      | none => rfl
      | some inner =>
        rw [Option.bind_some, Traced.value_bind]
        have leads : (s.resolved f.path r.specifier).value = s.resolve f.path r.specifier := rfl
        rw [leads]
        cases s.resolve f.path r.specifier <;> rfl

theorem definedIn_eq_some_iff (s : Scope) (f : FileFacts) (name id : String) :
    s.definedIn f name = some id ↔ id = nodeId f.relative name ∧ s.IsNode id := by
  unfold definedIn
  rw [Option.ite_none_right_eq_some, hasNode_iff, Option.some.injEq]
  constructor
  · rintro ⟨isNode, rfl⟩
    exact ⟨rfl, isNode⟩
  · rintro ⟨rfl, isNode⟩
    exact ⟨isNode, rfl⟩

end Scope

section

variable {facts : List FileFacts} {resolve : String → String → Option String}

theorem isNode_ofFacts_iff (id : String) :
    (Scope.ofFacts facts resolve).IsNode id ↔
      ∃ f ∈ facts, ∃ u ∈ f.units, nodeId f.relative u.1.name = id :=
  exists_id_nodesOf_iff facts id

/-- The unit that a file exports by default is found in the file, so it is a node without a look at
    the nodes. -/
theorem providedBy_isNode {f : FileFacts} (loaded : f ∈ facts) {name id : String}
    (provided : (Scope.ofFacts facts resolve).providedBy f name = some id) :
    (Scope.ofFacts facts resolve).IsNode id := by
  unfold Scope.providedBy at provided
  split at provided
  · obtain ⟨u, found, rfl⟩ := Option.map_eq_some_iff.mp provided
    exact (isNode_ofFacts_iff _).mpr ⟨f, loaded, u, List.mem_of_find?_eq_some found, rfl⟩
  · exact ((Scope.definedIn_eq_some_iff _ f name id).mp provided).2

theorem lookupExport_isNode (hops : Nat) {path name id : String}
    (found : ((Scope.ofFacts facts resolve).lookupExport hops path name).value = some id) :
    (Scope.ofFacts facts resolve).IsNode id := by
  induction hops generalizing path name with
  | zero =>
    rw [Scope.lookupExport_zero, Option.bind_eq_some_iff] at found
    obtain ⟨f, atPath, provided⟩ := found
    exact providedBy_isNode (List.mem_of_find?_eq_some atPath) provided
  | succ hops inductionHypothesis =>
    rw [Scope.lookupExport_succ, Option.bind_eq_some_iff] at found
    obtain ⟨f, atPath, found⟩ := found
    rcases Option.or_eq_some_iff.mp found with provided | ⟨-, passed⟩
    · exact providedBy_isNode (List.mem_of_find?_eq_some atPath) provided
    · obtain ⟨r, -, followed⟩ := List.exists_of_findSome?_eq_some passed
      obtain ⟨inner, -, followed⟩ := Option.bind_eq_some_iff.mp followed
      obtain ⟨target, -, followed⟩ := Option.bind_eq_some_iff.mp followed
      exact inductionHypothesis followed

theorem resolveCall_isNode {f : FileFacts} {caller : CodeUnit} {name expression id : String}
    (found : ((Scope.ofFacts facts resolve).resolveCall f caller name expression).value = some id) :
    (Scope.ofFacts facts resolve).IsNode id := by
  unfold Scope.resolveCall at found
  cases here : (Scope.ofFacts facts resolve).localTarget f caller name expression with
  | some target =>
    simp only [here, Traced.value_pure, Option.some.injEq] at found
    subst found
    -- The unit is in the same file, by its own name or as another method of the class.
    unfold Scope.localTarget at here
    split at here
    · exact ((Scope.definedIn_eq_some_iff _ f _ _).mp here).2
    · split at here
      · obtain ⟨_, -, defined⟩ := Option.bind_eq_some_iff.mp here
        exact ((Scope.definedIn_eq_some_iff _ f _ _).mp defined).2
      · cases here
  | none =>
    -- The unit is behind an import of the file.
    simp only [here, firstOf_value] at found
    obtain ⟨i, -, found⟩ := List.exists_of_findSome?_eq_some found
    unfold Scope.importTarget at found
    cases imported : Scope.importedName i name expression with
    | none => simp [imported] at found
    | some inner =>
      simp only [imported, Traced.value_bind] at found
      cases target : ((Scope.ofFacts facts resolve).resolved f.path i.specifier).value with
      | none => simp [target] at found
      | some path =>
        simp only [target] at found
        exact lookupExport_isNode maxHops found

theorem entryPointNamed_isNode (s : Scope) {kind : EdgeKind} {text id : String}
    (found : s.entryPointNamed kind text = some id) : s.IsNode id := by
  obtain ⟨n, hit, rfl⟩ := Option.map_eq_some_iff.mp found
  exact ⟨n, List.mem_of_find?_eq_some hit, rfl⟩

end

/-! ## Hints -/

theorem exists_unit_of_find {facts : List FileFacts} {file name id : String}
    (found : (knownFilesOf facts).find file name = some id) :
    ∃ f ∈ facts, ∃ u ∈ f.units, f.relative = file ∧ u.1.name = name ∧ nodeId f.relative u.1.name = id := by
  rw [knownFilesOf, KnownFiles.find_ofPairs_eq, Option.ite_none_right_eq_some, Option.some.injEq] at found
  obtain ⟨pair, rfl⟩ := found
  obtain ⟨⟨path, u⟩, member, same⟩ := List.mem_map.mp pair
  obtain ⟨rfl, rfl⟩ := Prod.mk.inj same
  obtain ⟨f, loaded, unit, within, atFile⟩ := (mem_allUnits_iff facts _).mp member
  obtain ⟨rfl, rfl⟩ := Prod.mk.inj atFile
  exact ⟨f, loaded, unit, within, rfl, rfl, rfl⟩

/-- A request leads to a unit of a file of routes. -/
theorem Routes.exists_file_of_resolve {hint : Hint} {known : KnownFiles} {id : String}
    (found : Routes.resolve hint known = some id) :
    ∃ file name, (Routes.appSegments? file).isSome = true ∧ known.find file name = some id := by
  unfold Routes.resolve at found
  split at found
  · split at found
    · obtain ⟨file, -, handler⟩ := List.exists_of_findSome?_eq_some found
      unfold Routes.handlerIn? at handler
      split at handler
      · rename_i segments isRoute
        rw [Option.ite_none_right_eq_some] at handler
        exact ⟨file, _, by rw [isRoute]; rfl, handler.2⟩
      · cases handler
    · cases found
  · cases found

/-- A task leads to a unit that is named like a handler, in a file for that task. -/
theorem Tasks.exists_file_of_resolve {hint : Hint} {known : KnownFiles} {id : String}
    (found : Tasks.resolve hint known = some id) :
    ∃ file, ∃ name ∈ Tasks.handlerNames, ∃ task, hint.target = .literal task ∧
      Tasks.isTaskFile file = true ∧ Tasks.taskId? file = some task ∧ known.find file name = some id := by
  unfold Tasks.resolve at found
  split at found
  · rename_i task _ isTask
    obtain ⟨file, listed, handler⟩ := List.exists_of_findSome?_eq_some found
    obtain ⟨name, isHandler, handler⟩ := List.exists_of_findSome?_eq_some handler
    have fits := (List.mem_filter.mp listed).2
    rw [Bool.and_eq_true, beq_iff_eq] at fits
    exact ⟨file, name, isHandler, task, isTask, fits.1, fits.2, handler⟩
  · cases found

/-- A framework leads a hint by name only to a unit that is known. -/
def Framework.LeadsToKnown (framework : Framework) : Prop :=
  ∀ hint known id, framework.resolve hint known = some id → ∃ file name, known.find file name = some id

theorem leadsToKnown_of_mem {framework : Framework} (member : framework ∈ frameworks) :
    framework.LeadsToKnown := by
  simp only [frameworks, List.mem_cons, List.not_mem_nil, or_false] at member
  rcases member with rfl | rfl | rfl | rfl
  · intro hint known id found
    obtain ⟨file, name, -, handler⟩ := Routes.exists_file_of_resolve found
    exact ⟨file, name, handler⟩
  · intro hint known id found
    obtain ⟨file, name, -, -, -, -, -, handler⟩ := Tasks.exists_file_of_resolve found
    exact ⟨file, name, handler⟩
  · intro hint known id found
    cases found
  · intro hint known id found
    cases found

theorem mem_hintsOf {u : CodeUnit} {framework : Framework} {hint : Hint}
    (member : (framework, hint) ∈ hintsOf u) : framework ∈ frameworks ∧ hint ∈ framework.hints u := by
  obtain ⟨fw, listed, made⟩ := List.mem_flatMap.mp member
  obtain ⟨h, hinted, same⟩ := List.mem_map.mp made
  obtain ⟨rfl, rfl⟩ := Prod.mk.inj same
  exact ⟨listed, hinted⟩

/-- What each framework has to say: the first three name what they lead to, the last gives handlers. -/
theorem hint_shape {u : CodeUnit} {framework : Framework} {hint : Hint}
    (member : (framework, hint) ∈ hintsOf u) :
    (framework = Routes.framework ∧ ∃ text, hint = ⟨.httpRequest, .literal text, some text, none⟩) ∨
    (framework = Tasks.framework ∧
      ∃ task, hint = ⟨.asyncDispatch, .literal task, some ("dispatch " ++ task), none⟩) ∨
    (framework = Events.framework ∧
      ∃ event, hint = ⟨.eventEmit, .literal event, some ("emit " ++ event), none⟩) ∨
    (framework = Middleware.framework ∧ ∃ kind name label position,
      (kind = .errorHandler ∨ kind = .middlewareChain) ∧
        hint = ⟨kind, .symbol name, some label, some position⟩) := by
  obtain ⟨listed, made⟩ := mem_hintsOf member
  simp only [frameworks, List.mem_cons, List.not_mem_nil, or_false] at listed
  rcases listed with rfl | rfl | rfl | rfl
  · obtain ⟨request, -, made⟩ := List.mem_filterMap.mp made
    obtain ⟨path, -, rfl⟩ := Option.map_eq_some_iff.mp made
    exact .inl ⟨rfl, _, rfl⟩
  · obtain ⟨task, -, rfl⟩ := List.mem_map.mp made
    exact .inr (.inl ⟨rfl, task, rfl⟩)
  · obtain ⟨event, -, rfl⟩ := List.mem_map.mp made
    exact .inr (.inr (.inl ⟨rfl, event, rfl⟩))
  · obtain ⟨registration, -, made⟩ := List.mem_flatMap.mp made
    obtain ⟨⟨name, position⟩, -, rfl⟩ := List.mem_map.mp made
    refine .inr (.inr (.inr ⟨rfl, _, _, _, _, ?_, rfl⟩))
    split
    · exact .inl rfl
    · exact .inr rfl

section

variable {facts : List FileFacts} {resolve : String → String → Option String}

theorem framework_resolve_isNode {framework : Framework} (member : framework ∈ frameworks)
    {hint : Hint} {id : String} (found : framework.resolve hint (knownFilesOf facts) = some id) :
    (Scope.ofFacts facts resolve).IsNode id := by
  obtain ⟨file, name, found⟩ := leadsToKnown_of_mem member hint (knownFilesOf facts) id found
  obtain ⟨f, loaded, u, inFile, -, -, same⟩ := exists_unit_of_find found
  exact (isNode_ofFacts_iff id).mpr ⟨f, loaded, u, inFile, same⟩

/-- The check that a hint by name leads to a node leaves nothing out. -/
theorem hintTarget_literal {f : FileFacts} {u : CodeUnit} {framework : Framework}
    (member : framework ∈ frameworks) {hint : Hint} {text : String}
    (literal : hint.target = .literal text) :
    (hintTarget (Scope.ofFacts facts resolve) (knownFilesOf facts) f u framework hint).value =
      (framework.resolve hint (knownFilesOf facts)).or
        ((Scope.ofFacts facts resolve).entryPointNamed hint.kind text) := by
  simp only [hintTarget, literal, Traced.value_pure]
  congr 1
  cases found : framework.resolve hint (knownFilesOf facts) with
  | none => rfl
  | some id =>
    have isNode : (Scope.ofFacts facts resolve).hasNode id = true :=
      (Scope.hasNode_iff _ id).mpr (framework_resolve_isNode member found)
    rw [Option.filter_some, if_pos isNode]

theorem hintTarget_isNode {f : FileFacts} {u : CodeUnit} {framework : Framework}
    (member : framework ∈ frameworks) {hint : Hint} {id : String}
    (found : (hintTarget (Scope.ofFacts facts resolve) (knownFilesOf facts) f u framework hint).value =
      some id) :
    (Scope.ofFacts facts resolve).IsNode id := by
  cases target : hint.target with
  | symbol name =>
    simp only [hintTarget, target] at found
    exact resolveCall_isNode found
  | literal text =>
    rw [hintTarget_literal member target] at found
    rcases Option.or_eq_some_iff.mp found with led | ⟨-, named⟩
    · exact framework_resolve_isNode member led
    · exact entryPointNamed_isNode _ named

end

end CallAtlas
