import CallAtlas.Proofs.EdgesPerSource
import CallAtlas.Proofs.WellFormedGraph

/-!
# Edges to entry points

A request, a task or an event is named in one unit and handled by another.  Where the name leads is found
in two ways: by the paths of the files and the names of their units, or by the entry points of the graph.
The second finds entry points only.  The first does not ask whether the unit is one: a handler that its
file does not export, or that another framework has claimed, is found as well.  `build_edges_land` says
for every edge of this sort exactly when it ends at the entry point that it names.
-/

namespace CallAtlas

/-- An edge of the kind that names `text` ends at the entry point that it should. -/
def EdgeKind.LandsOn (kind : EdgeKind) (text : String) (entry : Option EntryPoint) : Prop :=
  match kind with
  | httpRequest => ∃ method route, entry = some (.httpRoute method route)
  | asyncDispatch => entry = some (.backgroundTask text)
  | eventEmit => entry = some (.eventHandler text)
  | _ => False

/-- Nothing keeps a unit of the file from being an entry point for edges of the kind: in a file of routes
    it is exported and named after a method; in a file for a task it is exported and serves no route. -/
def EdgeKind.IsOpen (kind : EdgeKind) (u : CodeUnit) (path : String) : Prop :=
  match kind with
  | httpRequest => (Routes.appSegments? path).isSome = true → u.exported = true ∧ u.name ∈ Routes.verbs
  | asyncDispatch => u.exported = true ∧ Routes.entryPoint u path = none
  | _ => True

/-- The label of an edge of the kind that names `text`. -/
def EdgeKind.labelFor (kind : EdgeKind) (text : String) : String :=
  match kind with
  | asyncDispatch => "dispatch " ++ text
  | eventEmit => "emit " ++ text
  | _ => text

/-- The unit makes a request, puts a task into a queue or emits an event, by the name `text`. -/
def CodeUnit.Names (u : CodeUnit) (kind : EdgeKind) (text : String) : Prop :=
  ∃ framework hint, (framework, hint) ∈ hintsOf u ∧ hint.kind = kind ∧ hint.target = .literal text

/-! ## What the frameworks take for an entry point -/

section

variable (u : CodeUnit) (path : String)

theorem entryPointOf_eq :
    entryPointOf u path =
      (Routes.entryPoint u path).or ((Tasks.entryPoint u path).or (Events.entryPoint u path)) := by
  simp only [entryPointOf, frameworks, List.findSome?_cons, List.findSome?_nil, Routes.framework,
    Tasks.framework, Events.framework, Middleware.framework]
  cases Routes.entryPoint u path with
  | some e => rfl
  | none =>
    cases Tasks.entryPoint u path with
    | some e => rfl
    | none => cases Events.entryPoint u path <;> rfl

variable {u path}

theorem routes_entryPoint_shape {e : EntryPoint} (found : Routes.entryPoint u path = some e) :
    ∃ method route, e = .httpRoute method route := by
  unfold Routes.entryPoint at found
  split at found
  · rw [Option.ite_none_right_eq_some, Option.some.injEq] at found
    exact ⟨_, _, found.2.symm⟩
  · split at found
    · rw [Option.ite_none_right_eq_some, Option.some.injEq] at found
      exact ⟨_, _, found.2.symm⟩
    · cases found

theorem tasks_entryPoint_eq_some_iff {e : EntryPoint} :
    Tasks.entryPoint u path = some e ↔
      (Tasks.isTaskFile path = true ∧ u.exported = true ∧
        (u.defaultExport = true ∨ u.name ∈ Tasks.handlerNames)) ∧
      ∃ task, Tasks.taskId? path = some task ∧ e = .backgroundTask task := by
  unfold Tasks.entryPoint
  simp only [Option.ite_none_right_eq_some, Bool.and_eq_true, Bool.or_eq_true,
    List.contains_iff_mem, Option.map_eq_some_iff, and_assoc]
  simp only [eq_comm (a := e)]

theorem events_entryPoint_shape {e : EntryPoint} (found : Events.entryPoint u path = some e) :
    ∃ event, e = .eventHandler event := by
  unfold Events.entryPoint at found
  split at found
  · exact ⟨_, (Option.some.inj found).symm⟩
  · rw [Option.ite_none_right_eq_some, Option.map_eq_some_iff] at found
    obtain ⟨-, event, -, rfl⟩ := found
    exact ⟨event, rfl⟩

/-- Only files of routes and files below `pages/api` serve requests. -/
theorem entryPointOf_httpRoute_iff :
    (∃ method route, entryPointOf u path = some (.httpRoute method route)) ↔
      (Routes.entryPoint u path).isSome = true := by
  rw [entryPointOf_eq]
  cases inRoutes : Routes.entryPoint u path with
  | some e =>
    obtain ⟨method, route, rfl⟩ := routes_entryPoint_shape inRoutes
    simp
  | none =>
    simp only [Option.none_or, Option.isSome_none, Bool.false_eq_true, iff_false]
    rintro ⟨method, route, found⟩
    rcases Option.or_eq_some_iff.mp found with inTasks | ⟨-, inEvents⟩
    · obtain ⟨-, task, -, same⟩ := tasks_entryPoint_eq_some_iff.mp inTasks
      cases same
    · obtain ⟨event, same⟩ := events_entryPoint_shape inEvents
      cases same

theorem entryPointOf_backgroundTask_iff (task : String) :
    entryPointOf u path = some (.backgroundTask task) ↔
      Routes.entryPoint u path = none ∧ Tasks.entryPoint u path = some (.backgroundTask task) := by
  rw [entryPointOf_eq]
  constructor
  · intro found
    rcases Option.or_eq_some_iff.mp found with inRoutes | ⟨notInRoutes, found⟩
    · obtain ⟨method, route, same⟩ := routes_entryPoint_shape inRoutes
      cases same
    · rcases Option.or_eq_some_iff.mp found with inTasks | ⟨-, inEvents⟩
      · exact ⟨notInRoutes, inTasks⟩
      · obtain ⟨event, same⟩ := events_entryPoint_shape inEvents
        cases same
  · rintro ⟨notInRoutes, inTasks⟩
    rw [notInRoutes, inTasks]
    rfl

theorem routes_entryPoint_isSome_iff (isRoute : (Routes.appSegments? path).isSome = true) :
    (Routes.entryPoint u path).isSome = true ↔ u.exported = true ∧ u.name ∈ Routes.verbs := by
  obtain ⟨segments, isRoute⟩ := Option.isSome_iff_exists.mp isRoute
  simp only [Routes.entryPoint, isRoute, Option.isSome_ite, Bool.and_eq_true, List.contains_iff_mem]

/-- An edge ends at the entry point that it should only if nothing keeps the unit from being one. -/
theorem isOpen_of_landsOn {kind : EdgeKind} {text : String}
    (lands : kind.LandsOn text (entryPointOf u path)) : kind.IsOpen u path := by
  cases kind with
  | httpRequest =>
    intro isRoute
    exact (routes_entryPoint_isSome_iff isRoute).mp (entryPointOf_httpRoute_iff.mp lands)
  | asyncDispatch =>
    obtain ⟨notInRoutes, inTasks⟩ := (entryPointOf_backgroundTask_iff text).mp lands
    exact ⟨(tasks_entryPoint_eq_some_iff.mp inTasks).1.2.1, notInRoutes⟩
  | directCall => trivial
  | conditionalCall => trivial
  | eventEmit => trivial
  | errorHandler => trivial
  | middlewareChain => trivial

end

/-! ## Where a name leads -/

theorem landsOn_of_accepts {entry : EntryPoint} {kind : EdgeKind} {text : String}
    (accepts : entry.accepts kind text = true) : kind.LandsOn text (some entry) := by
  unfold EntryPoint.accepts at accepts
  split at accepts
  · exact ⟨_, _, rfl⟩
  · rw [beq_iff_eq.mp accepts]
    rfl
  · rw [beq_iff_eq.mp accepts]
    rfl
  · cases accepts

/-- A unit that a name leads to: it is an entry point for the name exactly if it is open. -/
def Landing (facts : List FileFacts) (kind : EdgeKind) (text id : String) : Prop :=
  ∃ f ∈ facts, ∃ u ∈ f.units, nodeId f.relative u.1.name = id ∧
    (kind.LandsOn text (entryPointOf u.1 f.relative) ↔ kind.IsOpen u.1 f.relative)

section

variable {facts : List FileFacts} {resolve : String → String → Option String}

theorem landing_of_entryPointNamed {kind : EdgeKind} {text id : String}
    (found : (Scope.ofFacts facts resolve).entryPointNamed kind text = some id) :
    Landing facts kind text id := by
  obtain ⟨n, hit, rfl⟩ := Option.map_eq_some_iff.mp found
  obtain ⟨f, loaded, u, inFile, rfl⟩ := exists_unit_of_mem_nodesOf (List.mem_of_find?_eq_some hit)
  have accepted := List.find?_some hit
  have lands : kind.LandsOn text (entryPointOf u.1 f.relative) := by
    cases entry : entryPointOf u.1 f.relative with
    | none => simp [nodeOf, entry] at accepted
    | some e => exact landsOn_of_accepts (by simpa [nodeOf, entry] using accepted)
  exact ⟨f, loaded, u, inFile, rfl, isOpen_of_landsOn, fun _ => lands⟩

theorem landing_of_routes {hint : Hint} {text id : String}
    (found : Routes.framework.resolve hint (knownFilesOf facts) = some id) :
    Landing facts .httpRequest text id := by
  obtain ⟨file, name, isRoute, found⟩ := Routes.exists_file_of_resolve found
  obtain ⟨f, loaded, u, inFile, rfl, -, same⟩ := exists_unit_of_find found
  refine ⟨f, loaded, u, inFile, same, isOpen_of_landsOn, ?_⟩
  intro isOpen
  exact entryPointOf_httpRoute_iff.mpr ((routes_entryPoint_isSome_iff isRoute).mpr (isOpen isRoute))

theorem landing_of_tasks {hint : Hint} {text id : String} (names : hint.target = .literal text)
    (found : Tasks.framework.resolve hint (knownFilesOf facts) = some id) :
    Landing facts .asyncDispatch text id := by
  obtain ⟨file, name, isHandler, task, isTask, isFile, isId, found⟩ := Tasks.exists_file_of_resolve found
  obtain rfl := HintTarget.literal.inj (names.symm.trans isTask)
  obtain ⟨f, loaded, u, inFile, rfl, rfl, same⟩ := exists_unit_of_find found
  refine ⟨f, loaded, u, inFile, same, isOpen_of_landsOn, ?_⟩
  rintro ⟨exported, notInRoutes⟩
  refine (entryPointOf_backgroundTask_iff text).mpr ⟨notInRoutes, ?_⟩
  exact tasks_entryPoint_eq_some_iff.mpr ⟨⟨isFile, exported, .inr isHandler⟩, text, isId, rfl⟩

end

theorem landing_of_resolve (facts : List FileFacts) {u : CodeUnit} {framework : Framework} {hint : Hint}
    (listed : (framework, hint) ∈ hintsOf u) (runtime : hint.kind.isAsyncBoundary = true) :
    ∃ text, hint.target = .literal text ∧ hint.label = some (hint.kind.labelFor text) ∧ ∀ id,
      framework.resolve hint (knownFilesOf facts) = some id → Landing facts hint.kind text id := by
  rcases hint_shape listed with ⟨rfl, text, rfl⟩ | ⟨rfl, task, rfl⟩ | ⟨rfl, event, rfl⟩ |
    ⟨-, kind, name, label, position, kinds, rfl⟩
  · exact ⟨text, rfl, rfl, fun id found => landing_of_routes found⟩
  · exact ⟨task, rfl, rfl, fun id found => landing_of_tasks rfl found⟩
  · exact ⟨event, rfl, rfl, fun id found => nomatch found⟩
  · rcases kinds with rfl | rfl <;> cases runtime

theorem landing_of_hint {facts : List FileFacts} {resolve : String → String → Option String}
    {f : FileFacts} {u : CodeUnit} {framework : Framework} {hint : Hint} {id : String}
    (listed : (framework, hint) ∈ hintsOf u) (runtime : hint.kind.isAsyncBoundary = true)
    (leads : (Scope.ofFacts facts resolve).hintLeadsTo (knownFilesOf facts) f u framework hint = some id) :
    ∃ text, u.Names hint.kind text ∧ hint.label = some (hint.kind.labelFor text) ∧
      Landing facts hint.kind text id := by
  obtain ⟨text, literal, label, landing⟩ := landing_of_resolve facts listed runtime
  refine ⟨text, ⟨framework, hint, listed, rfl, literal⟩, label, ?_⟩
  simp only [Scope.hintLeadsTo, literal] at leads
  rcases Option.or_eq_some_iff.mp leads with resolved | ⟨-, named⟩
  · exact landing id resolved
  · exact landing_of_entryPointNamed named

/-! ## Edges of a build -/

/-- A request, a task or an event is named in the source of its edge and on its label, and leads to a unit
    that is the entry point of that name exactly if its file exports it as the framework demands and no
    other framework has claimed it.  Where ids tell units apart, the target of the edge is the node of that
    unit. -/
theorem build_edges_land (tree : FileTree) (root : String) (config : Config) (cache : AliasCache)
    (files : List String) (e : Edge) (member : e ∈ (build tree root config cache files).value.edges)
    (runtime : e.kind.isAsyncBoundary = true) :
    ∃ g ∈ builtFacts tree root config files, ∃ v ∈ g.units, nodeId g.relative v.1.name = e.source ∧
    ∃ text, v.1.Names e.kind text ∧ e.label = some (e.kind.labelFor text) ∧
    ∃ f ∈ builtFacts tree root config files, ∃ u ∈ f.units, nodeId f.relative u.1.name = e.target ∧
      (e.kind.LandsOn text (entryPointOf u.1 f.relative) ↔ e.kind.IsOpen u.1 f.relative) ∧
      (IdsDetermineUnits (builtFacts tree root config files) →
        ∀ n ∈ (build tree root config cache files).value.nodes, n.id = e.target →
          n.entryPoint = entryPointOf u.1 f.relative) := by
  obtain ⟨g, gLoaded, v, vMember, c, connected, -, rfl⟩ := exists_connection_of_mem_edges member
  refine ⟨g, gLoaded, v, vMember, rfl, ?_⟩
  rcases mem_connections connected with
    ⟨call, -, target, order, -, rfl⟩ | ⟨framework, hint, target, listed, leads, rfl⟩
  · -- A call is no edge by name.
    simp only [Scope.edgeOf, CallSite.connection] at runtime
    split at runtime <;> cases runtime
  · obtain ⟨text, names, label, f, loaded, u, inFile, same, lands⟩ := landing_of_hint listed runtime leads
    refine ⟨text, names, label, f, loaded, u, inFile, same, lands, ?_⟩
    intro distinct n isNode atTarget
    rw [build_nodes] at isNode
    obtain ⟨h, hLoaded, w, wMember, rfl⟩ := exists_unit_of_mem_nodesOf isNode
    obtain ⟨rfl, rfl⟩ := unit_of_id distinct hLoaded loaded wMember inFile (atTarget.trans same.symm)
    rfl

/-- A task that two functions of its file could handle; `run` is exported, and `handler` may be. -/
def queueTree (exported : Bool) : FileTree :=
  ⟨[(["p"], .directory),
    (["p", "jobs"], .directory),
    (["p", "jobs", "cleanup.ts"], .file ((if exported then "export " else "") ++
      "function handler()\x7b\x7dexport function run()\x7b\x7d").toUTF8),
    (["p", "main.ts"], .file "export function m()\x7benqueue('cleanup')\x7d".toUTF8)]⟩

def queueFiles : List String := ["jobs/cleanup.ts", "main.ts"]

def queueFacts (exported : Bool) : List FileFacts :=
  builtFacts (queueTree exported) "/p" Config.standard queueFiles

def queueGraph (exported : Bool) : BuildOutcome :=
  (build (queueTree exported) "/p" Config.standard .empty queueFiles).value

/-- The task leads to `handler`, exported or not. -/
theorem queueGraph_edge (exported : Bool) :
    (∃ e ∈ (queueGraph exported).edges, e.kind = .asyncDispatch ∧ e.label = some "dispatch cleanup" ∧
      e.target = "jobs/cleanup.ts:handler") ∧
    if exported then ∀ f ∈ queueFacts exported, ∀ u ∈ f.units,
      u.1.exported = true ∧ Routes.entryPoint u.1 f.relative = none
    else (queueGraph exported).nodes.map (fun n => (n.id, n.entryPoint)) =
      [("jobs/cleanup.ts:handler", none), ("jobs/cleanup.ts:run", some (.backgroundTask "cleanup")),
        ("main.ts:m", none)] := by
  revert exported
  decide +kernel

theorem build_edges_land_queued :
    (∃ e ∈ (queueGraph true).edges, e.kind.isAsyncBoundary = true) ∧
    ∃ f ∈ queueFacts true, ∃ u ∈ f.units, entryPointOf u.1 f.relative = some (.backgroundTask "cleanup") := by
  obtain ⟨⟨e, member, kind, label, -⟩, allOpen⟩ := queueGraph_edge true
  have runtime : e.kind.isAsyncBoundary = true := by
    rw [kind]
    rfl
  refine ⟨⟨e, member, runtime⟩, ?_⟩
  -- Without the name of the graph, the edges are not evaluated.
  unfold queueGraph at member
  obtain ⟨-, -, -, -, -, text, -, shows, f, loaded, u, inFile, -, lands, -⟩ :=
    build_edges_land (queueTree true) "/p" Config.standard .empty queueFiles e member runtime
  rw [kind] at lands shows
  -- The label tells which task it is.
  have isTask : "dispatch " ++ "cleanup" = "dispatch " ++ text := Option.some.inj (label.symm.trans shows)
  obtain rfl := (String.append_right_inj "dispatch ").mp isTask
  exact ⟨f, loaded, u, inFile, lands.mpr (allOpen f loaded u inFile)⟩

/-- A task ends at a function that its file does not export, and that is no entry point, although the file
    exports a handler for the task. -/
theorem build_edges_miss :
    (∃ e ∈ (queueGraph false).edges, e.kind = .asyncDispatch ∧ e.label = some "dispatch cleanup" ∧
      e.target = "jobs/cleanup.ts:handler") ∧
    (queueGraph false).nodes.map (fun n => (n.id, n.entryPoint)) =
      [("jobs/cleanup.ts:handler", none), ("jobs/cleanup.ts:run", some (.backgroundTask "cleanup")),
        ("main.ts:m", none)] :=
  queueGraph_edge false

end CallAtlas
