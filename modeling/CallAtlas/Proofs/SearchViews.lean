import CallAtlas.Proofs.Connections
import Mathlib.Data.List.Basic

/-!
# What a search looks at

A search sees little of a graph: which ids are nodes, which of them run later, which node an entry point
is named after, what the names of modules mean, and of other files only what they export.  Two graphs that
look alike in these respects connect a unit with the same units in the same way
(`Scope.SameView.connections`), and so the unit has the same edges (`Scope.SameView.edgesOf`).
-/

namespace CallAtlas

/-- Two files export the same from the same place. -/
structure FileFacts.SameExports (f g : FileFacts) : Prop where
  path : f.path = g.path
  relative : f.relative = g.relative
  reExports : f.reExports = g.reExports
  byDefault : (f.units.find? (·.1.defaultExport)).map (·.1.name) =
    (g.units.find? (·.1.defaultExport)).map (·.1.name)

theorem FileFacts.SameExports.refl (f : FileFacts) : f.SameExports f := ⟨rfl, rfl, rfl, rfl⟩

/-- Two scopes look alike to every search. -/
structure Scope.SameView (s t : Scope) : Prop where
  factsAt : ∀ path, Option.Rel FileFacts.SameExports (s.factsAt path) (t.factsAt path)
  hasNode : ∀ id, s.hasNode id = t.hasNode id
  isAsync : ∀ id, s.isAsync id = t.isAsync id
  entryPointNamed : ∀ kind text, s.entryPointNamed kind text = t.entryPointNamed kind text
  resolve : s.resolve = t.resolve

/-- Two lists of known units look alike to every framework. -/
structure KnownFiles.SameView (known other : KnownFiles) : Prop where
  paths : known.paths = other.paths
  find : ∀ file name, known.find file name = other.find file name

/-! ## Values of searches -/

namespace Scope

theorem importTarget_value (s : Scope) (f : FileFacts) (name expression : String) (i : Import) :
    (s.importTarget f name expression i).value =
      (importedName i name expression).bind fun inner =>
        (s.resolve f.path i.specifier).bind fun target => (s.lookupExport maxHops target inner).value := by
  unfold importTarget
  cases importedName i name expression with
  | none => rfl
  | some inner =>
    rw [Option.bind_some, Traced.value_bind]
    have leads : (s.resolved f.path i.specifier).value = s.resolve f.path i.specifier := rfl
    rw [leads]
    cases s.resolve f.path i.specifier <;> rfl

theorem resolveCall_value (s : Scope) (f : FileFacts) (caller : CodeUnit) (name expression : String) :
    (s.resolveCall f caller name expression).value =
      (s.localTarget f caller name expression).or
        (f.imports.findSome? fun i => (s.importTarget f name expression i).value) := by
  unfold resolveCall
  cases s.localTarget f caller name expression with
  | some id => rfl
  | none => rw [firstOf_value, Option.none_or]

end Scope

/-! ## Searches in scopes that look alike -/

namespace Scope.SameView

variable {s t : Scope}

theorem definedIn (view : s.SameView t) {f g : FileFacts} (same : f.relative = g.relative)
    (name : String) : s.definedIn f name = t.definedIn g name := by
  simp only [Scope.definedIn, same, view.hasNode]

theorem providedBy (view : s.SameView t) {f g : FileFacts} (same : f.SameExports g) (name : String) :
    s.providedBy f name = t.providedBy g name := by
  have byDefault : ∀ h : FileFacts, (h.units.find? (·.1.defaultExport)).map
      (fun u => nodeId h.relative u.1.name) =
        ((h.units.find? (·.1.defaultExport)).map (·.1.name)).map (nodeId h.relative) := by
    intro h
    rw [Option.map_map]
    rfl
  unfold Scope.providedBy
  split
  · rw [byDefault f, byDefault g, same.relative, same.byDefault]
  · exact view.definedIn same.relative name

theorem lookupExport (view : s.SameView t) (hops : Nat) (path name : String) :
    (s.lookupExport hops path name).value = (t.lookupExport hops path name).value := by
  induction hops generalizing path name with
  | zero =>
    rw [lookupExport_zero, lookupExport_zero]
    have related := view.factsAt path
    generalize s.factsAt path = atS, t.factsAt path = atT at related ⊢
    cases related with
    | none => rfl
    | some same => exact view.providedBy same name
  | succ hops inductionHypothesis =>
    rw [lookupExport_succ, lookupExport_succ]
    have related := view.factsAt path
    generalize s.factsAt path = atS, t.factsAt path = atT at related ⊢
    cases related with
    | none => rfl
    | some same =>
      simp only [Option.bind_some, view.providedBy same name, throughReExports, view.resolve, same.path,
        same.reExports, inductionHypothesis]

theorem resolveCall (view : s.SameView t) (f : FileFacts) (caller : CodeUnit)
    (name expression : String) :
    (s.resolveCall f caller name expression).value = (t.resolveCall f caller name expression).value := by
  have inFile : s.localTarget f caller name expression = t.localTarget f caller name expression := by
    simp only [localTarget, view.definedIn (Eq.refl f.relative)]
  simp only [resolveCall_value, inFile, importTarget_value, view.resolve, view.lookupExport]

end Scope.SameView

/-- The frameworks see of the known units only the paths of the files, and whether a file has a unit. -/
theorem KnownFiles.SameView.resolve {known other : KnownFiles} (view : known.SameView other)
    {framework : Framework} (member : framework ∈ frameworks) (hint : Hint) :
    framework.resolve hint known = framework.resolve hint other := by
  have find : known.find = other.find := by
    funext file name
    exact view.find file name
  simp only [frameworks, List.mem_cons, List.not_mem_nil, or_false] at member
  rcases member with rfl | rfl | rfl | rfl
  · have handlers : Routes.handlerIn? known = Routes.handlerIn? other := by
      funext method path file
      simp only [Routes.handlerIn?, find]
    simp only [Routes.framework, Routes.resolve, view.paths, handlers]
  · simp only [Tasks.framework, Tasks.resolve, view.paths, find]
  · rfl
  · rfl

namespace Scope.SameView

variable {s t : Scope} {known other : KnownFiles}

theorem hintLeadsTo (view : s.SameView t) (knownView : known.SameView other) (f : FileFacts)
    (u : CodeUnit) {framework : Framework} (member : framework ∈ frameworks) (hint : Hint) :
    s.hintLeadsTo known f u framework hint = t.hintLeadsTo other f u framework hint := by
  unfold Scope.hintLeadsTo
  cases hint.target with
  | symbol name => exact view.resolveCall f u name name
  | literal text => simp only [knownView.resolve member, view.entryPointNamed]

theorem connections (view : s.SameView t) (knownView : known.SameView other) (f : FileFacts)
    (u : CodeUnit) (calls : List CallSite) :
    s.connections known f u calls = t.connections other f u calls := by
  have callTarget : s.callTarget f u = t.callTarget f u := by
    funext call
    exact view.resolveCall f u call.callee call.expression
  have hinted : s.hintConnections known f u (hintsOf u) = t.hintConnections other f u (hintsOf u) := by
    apply List.filterMap_congr
    rintro ⟨framework, hint⟩ listed
    simp only [view.hintLeadsTo knownView f u (mem_hintsOf listed).1 hint]
  simp only [Scope.connections, callConnections, connectionsAt, outwardCalls, callTarget, hinted]

theorem edgesOf (view : s.SameView t) (source : String) (connections : List Connection) :
    s.edgesOf source connections = t.edgesOf source connections := by
  have edgeOf : s.edgeOf source = t.edgeOf source := by
    funext c
    simp only [Scope.edgeOf, view.isAsync]
  rw [Scope.edgesOf, Scope.edgesOf, edgeOf]

end Scope.SameView

end CallAtlas
