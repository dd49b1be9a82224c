import CallAtlas.Proofs.RequestHandlers

/-!
# Routes by the components of a path

The route that a unit serves is told by the directories on the way to its file.  Here it is read off the
components of a path: the directories between the first `app` and a file `route`, or those behind the first
`pages` that `api` follows, together with the name of the file.

The search for the directory that counts is the same for both families.  It goes from left to right and takes the
first place from which the rest of the path is as it should be (`behindFirst_eq_some_iff_first`).
-/

namespace CallAtlas.SourcePath

open Text

/-! ## The first place that counts -/

theorem behindFirst_eq_some_iff_first (p : List String → Option (List String)) (pieces found : List String) :
    behindFirst p pieces = some found ↔
      ∃ front here, pieces = front ++ here ∧ here ≠ [] ∧ p here = some found ∧
        ∀ outer inner, front = outer ++ inner → inner ≠ [] → p (inner ++ here) = none := by
  induction pieces with
  | nil =>
    simp only [behindFirst, reduceCtorEq, false_iff]
    rintro ⟨front, here, cut, nonempty, -⟩
    exact nonempty (List.append_eq_nil_iff.mp cut.symm).2
  | cons piece rest inductionHypothesis =>
    rw [behindFirst, Option.or_eq_some_iff, inductionHypothesis]
    constructor
    · rintro (here | ⟨notHere, front, here, rfl, nonempty, hit, earliest⟩)
      · refine ⟨[], piece :: rest, rfl, by simp, here, fun outer inner cut nonempty => ?_⟩
        exact absurd (List.append_eq_nil_iff.mp cut.symm).2 nonempty
      · refine ⟨piece :: front, here, rfl, nonempty, hit, fun outer inner cut innerNonempty => ?_⟩
        rcases List.cons_eq_append_iff.mp cut with ⟨rfl, rfl⟩ | ⟨outer, rfl, within⟩
        · exact notHere
        · exact earliest outer inner within innerNonempty
    · rintro ⟨front, here, cut, nonempty, hit, earliest⟩
      cases front with
      | nil =>
        rw [List.nil_append] at cut
        exact .inl (cut ▸ hit)
      | cons first front =>
        rw [List.cons_append, List.cons.injEq] at cut
        obtain ⟨rfl, rfl⟩ := cut
        refine .inr ⟨earliest [] (piece :: front) rfl (by simp), front, here, rfl, nonempty, hit, ?_⟩
        intro outer inner within innerNonempty
        exact earliest (piece :: outer) inner (by rw [within]; rfl) innerNonempty

/-! ## Endings -/

theorem point_not_mem_of_mem_extensions {ending : String} (listed : ending ∈ extensions) :
    '.' ∉ ending.toList := by
  simp only [extensions, List.mem_cons, List.not_mem_nil, or_false] at listed
  rcases listed with rfl | rfl | rfl | rfl | rfl | rfl | rfl | rfl <;> decide

/-- A name is cut at its last point in one way only. -/
theorem stem_eq_of_endings {stem other ending otherEnding : String} (listed : ending ∈ extensions)
    (otherListed : otherEnding ∈ extensions) (same : stem ++ "." ++ ending = other ++ "." ++ otherEnding) :
    stem = other := by
  have cut {s e : String} (free : '.' ∉ e.toList) :
      cutAt (· = '.') (s ++ "." ++ e).toList.reverse = some (e.toList.reverse, s.toList.reverse) := by
    refine (cutAt_eq_some_iff _ _ _ _).mpr ⟨'.', by simp, by simp, fun c member => ?_⟩
    exact decide_eq_false fun isPoint => free (isPoint ▸ List.mem_reverse.mp member)
  have first := cut (s := stem) (point_not_mem_of_mem_extensions listed)
  rw [same, cut (point_not_mem_of_mem_extensions otherListed), Option.some.injEq, Prod.mk.injEq] at first
  exact String.toList_inj.mp (List.reverse_inj.mp first.2.symm)

theorem stem?_eq_some_iff (name stem : String) :
    stem? name = some stem ↔ ∃ ending ∈ extensions, name = stem ++ "." ++ ending := by
  constructor
  · exact stem?_eq_some
  · rintro ⟨ending, listed, rfl⟩
    -- Some ending is found, and then it is this one.
    have isFound : (stem? (stem ++ "." ++ ending)).isSome = true := by
      refine List.findSome?_isSome_iff.mpr ⟨ending, listed, ?_⟩
      rw [Option.isSome_map, stripPrefix?_isSome_iff]
      exact ⟨stem.toList.reverse, by simp⟩
    obtain ⟨other, found⟩ := Option.isSome_iff_exists.mp isFound
    obtain ⟨otherEnding, otherListed, same⟩ := stem?_eq_some found
    rw [found, stem_eq_of_endings listed otherListed same]

end CallAtlas.SourcePath

namespace CallAtlas.Routes

open Text SourcePath

/-! ## Components -/

/-- A path within a project: the names of the directories on the way, and that of the file. -/
structure NamedPath where
  directories : List String
  file : String
  named : ∀ component ∈ directories ++ [file], component ≠ "" ∧ '/' ∉ component.toList

def NamedPath.text (path : NamedPath) : String := "/".intercalate (path.directories ++ [path.file])

/-- A directory `(x)` or `@x`, which is not part of the route. -/
def IsHidden (component : String) : Prop :=
  (∃ name, component = "(" ++ name ++ ")") ∨ ∃ name, component = "@" ++ name

theorem isGroup_iff (component : String) :
    isGroup component = true ↔ ∃ name, component = "(" ++ name ++ ")" := by
  simp only [isGroup, Bool.and_eq_true, beq_iff_eq]
  constructor
  · rintro ⟨opens, closes⟩
    obtain ⟨rest, spelled⟩ := List.head?_eq_some_iff.mp opens
    rcases List.eq_nil_or_concat rest with rfl | ⟨name, last, rfl⟩
    · simp [spelled] at closes
    · rw [List.concat_eq_append, ← List.cons_append] at spelled
      rw [spelled, List.getLast?_concat, Option.some.injEq] at closes
      exact ⟨String.ofList name, String.toList_inj.mp (by simp [spelled, closes])⟩
  · rintro ⟨name, rfl⟩
    have spelled : ("(" ++ name ++ ")").toList = '(' :: name.toList ++ [')'] := by simp
    rw [spelled, List.getLast?_concat]
    exact ⟨rfl, rfl⟩

theorem isSlot_iff (component : String) : isSlot component = true ↔ ∃ name, component = "@" ++ name := by
  simp only [isSlot, beq_iff_eq]
  constructor
  · intro opens
    obtain ⟨rest, spelled⟩ := List.head?_eq_some_iff.mp opens
    exact ⟨String.ofList rest, String.toList_inj.mp (by simp [spelled])⟩
  · rintro ⟨name, rfl⟩
    simp

theorem isHidden_iff (component : String) :
    IsHidden component ↔ (isGroup component || isSlot component) = true := by
  rw [IsHidden, Bool.or_eq_true, isGroup_iff, isSlot_iff]

instance decidableIsHidden : DecidablePred IsHidden := fun component =>
  decidable_of_iff _ (isHidden_iff component).symm

/-- The components that are not hidden, with slashes in front. -/
def routeThrough (components : List String) : String :=
  "/" ++ "/".intercalate (components.filter fun component => ¬ IsHidden component)

theorem routeOf_eq_routeThrough {components : List String} (named : "" ∉ components) :
    routeOf components = routeThrough components := by
  have same : components.filter isVisible = components.filter fun component => ¬ IsHidden component := by
    refine List.filter_congr fun component member => ?_
    have nonempty : component.isEmpty = false := by
      rw [String.isEmpty_eq_false_iff]
      rintro rfl
      exact named member
    simp [isVisible, nonempty, isHidden_iff]
  rw [routeOf, routeThrough, same]

/-- A file `route` with the ending of a source, somewhere below a directory `app`. -/
def NamedPath.IsAppRoute (path : NamedPath) : Prop :=
  (∃ ending ∈ extensions, path.file = "route." ++ ending) ∧ "app" ∈ path.directories

def NamedPath.BehindApp (path : NamedPath) (between : List String) : Prop :=
  ∃ outer, path.directories = outer ++ "app" :: between ∧ "app" ∉ outer

/-- What comes next is a directory `api`, or a file `api` with the ending of a source. -/
inductive ApiNext (file : String) : List String → Prop where
  | directory (more : List String) : ApiNext file ("api" :: more)
  | file {ending : String} : ending ∈ extensions → file = "api." ++ ending → ApiNext file []

/-- The components behind the first `pages` that `api` follows.  The file has the ending of a source, which is
    taken off, and so is the whole name if it is `index`. -/
inductive NamedPath.BehindPages (path : NamedPath) : List String → Prop where
  | intro {outer behind : List String} {stem ending : String} : ending ∈ extensions → stem ≠ "" →
      path.file = stem ++ "." ++ ending → path.directories = outer ++ "pages" :: behind →
      ApiNext path.file behind →
      (∀ before inner, outer = before ++ "pages" :: inner → ¬ ApiNext path.file (inner ++ "pages" :: behind)) →
      BehindPages path (if stem = "index" then behind else behind ++ [stem])

section

variable (path : NamedPath)

theorem NamedPath.pieces_text : Path.pieces path.text = path.directories ++ [path.file] :=
  Path.pieces_intercalate (fun component member => (path.named component member).2) (by simp)

theorem NamedPath.empty_not_mem : "" ∉ path.directories ++ [path.file] := fun member =>
  (path.named "" member).1 rfl

/-! ## Files `route` below `app` -/

theorem NamedPath.isRouteFile_iff (between : List String) :
    IsRouteFile path.text between ↔
      (∃ ending ∈ extensions, path.file = "route." ++ ending) ∧ path.BehindApp between := by
  have named := path.empty_not_mem
  unfold IsRouteFile BehindApp
  rw [path.pieces_text]
  constructor
  · rintro ⟨outer, ending, listed, cut, -, earliest⟩
    rw [← List.cons_append, ← List.append_assoc] at cut
    obtain ⟨directories, file⟩ := List.append_inj' cut rfl
    refine ⟨⟨ending, listed, (List.cons.inj file).1⟩, outer, directories, fun earlier => ?_⟩
    obtain ⟨before, inner, rfl⟩ := List.append_of_mem earlier
    rw [directories] at named
    exact named (by simp [earliest before inner rfl])
  · rintro ⟨⟨ending, listed, file⟩, outer, directories, notEarlier⟩
    rw [directories] at named
    refine ⟨outer, ending, listed, by simp [directories, file], ?_, ?_⟩
    · exact fun member => named (by simp [member])
    · rintro before inner rfl
      simp at notEarlier

theorem NamedPath.exists_behindApp (below : "app" ∈ path.directories) : ∃ between, path.BehindApp between := by
  obtain ⟨outer, between, cut, notEarlier⟩ := List.eq_append_cons_of_mem below
  exact ⟨between, outer, cut, notEarlier⟩

/-! ## Files below `pages/api` -/

theorem apiSegments_api {rest : List String} (nonempty : rest ≠ []) :
    apiSegments ("pages" :: "api" :: rest) = (rest.getLast?.bind stem?).bind fun stem =>
      if !stem.isEmpty && areNamed rest then some ("api" :: rest.dropLast ++ [stem]) else none := by
  cases rest with
  | nil => contradiction
  | cons first rest =>
    simp only [apiSegments]
    cases (first :: rest).getLast?.bind stem? <;> rfl

theorem apiSegments_eq_some_iff (here found : List String) :
    apiSegments here = some found ↔
      ∃ behind file stem, here = "pages" :: (behind ++ [file]) ∧ "" ∉ behind ∧ stem? file = some stem ∧
        stem ≠ "" ∧ ApiNext file behind ∧ found = behind ++ [stem] := by
  constructor
  · intro isFound
    unfold apiSegments at isFound
    split at isFound
    · rename_i file
      rw [Option.ite_none_right_eq_some, beq_iff_eq, Option.some.injEq] at isFound
      obtain ⟨isApi, rfl⟩ := isFound
      obtain ⟨ending, listed, spelled⟩ := (stem?_eq_some_iff file "api").mp isApi
      exact ⟨[], file, "api", rfl, by simp, isApi, by decide, .file listed spelled, rfl⟩
    · rename_i rest _
      split at isFound
      · rename_i stem isStem
        rw [Option.ite_none_right_eq_some, Bool.and_eq_true, areNamed_iff, Option.some.injEq] at isFound
        obtain ⟨⟨nonempty, named⟩, rfl⟩ := isFound
        obtain ⟨file, last, fileStem⟩ := Option.bind_eq_some_iff.mp isStem
        obtain ⟨more, rfl⟩ := List.getLast?_eq_some_iff.mp last
        rw [List.dropLast_concat] at named ⊢
        refine ⟨"api" :: more, file, stem, rfl, by simpa using named, fileStem, ?_, .directory more, rfl⟩
        simpa using nonempty
      · cases isFound
    · cases isFound
  · rintro ⟨behind, file, stem, rfl, named, isStem, nonempty, next, rfl⟩
    cases next with
    | file listed spelled =>
      have isApi : stem? file = some "api" := (stem?_eq_some_iff file "api").mpr ⟨_, listed, spelled⟩
      rw [isApi, Option.some.injEq] at isStem
      simp [apiSegments, isApi, isStem]
    | directory more =>
      have moreNamed : areNamed (more ++ [file]) = true := by
        rw [areNamed_iff, List.dropLast_concat]
        exact fun member => named (List.mem_cons_of_mem _ member)
      have stemNonempty : stem.isEmpty = false := String.isEmpty_eq_false_iff.mpr nonempty
      rw [List.cons_append, apiSegments_api (by simp), List.getLast?_concat, Option.bind_some, isStem,
        Option.bind_some, moreNamed, stemNonempty, List.dropLast_concat]
      rfl

theorem dropIndex_append {file stem : String} {behind : List String} (isStem : stem? file = some stem)
    (next : ApiNext file behind) :
    dropIndex (behind ++ [stem]) = if stem = "index" then behind else behind ++ [stem] := by
  cases next with
  | file listed spelled =>
    have isApi : stem? file = some "api" := (stem?_eq_some_iff file "api").mpr ⟨_, listed, spelled⟩
    rw [isApi, Option.some.injEq] at isStem
    simp [dropIndex, ← isStem]
  | directory more =>
    rw [dropIndex, List.getLast?_concat, List.dropLast_concat]
    simp

theorem NamedPath.pageSegments?_eq_some_iff (segments : List String) :
    pageSegments? path.text = some segments ↔ path.BehindPages segments := by
  have named := path.empty_not_mem
  rw [pageSegments?, Option.map_eq_some_iff, path.pieces_text]
  simp only [behindFirst_eq_some_iff_first]
  constructor
  · rintro ⟨_, ⟨outer, _, cut, -, hit, earliest⟩, rfl⟩
    obtain ⟨behind, file, stem, rfl, -, isStem, nonempty, next, rfl⟩ := (apiSegments_eq_some_iff ..).mp hit
    rw [← List.cons_append, ← List.append_assoc] at cut
    obtain ⟨directories, file⟩ := List.append_inj' cut rfl
    obtain rfl := (List.cons.inj file).1
    obtain ⟨ending, listed, spelled⟩ := stem?_eq_some isStem
    rw [dropIndex_append isStem next]
    refine .intro listed nonempty spelled directories next ?_
    rintro before inner rfl earlier
    -- There too the rest of the path is as it should be, so the search would have ended.
    have within : inner ++ "pages" :: (behind ++ [path.file]) =
        inner ++ "pages" :: behind ++ [path.file] := by simp
    have missed := earliest before ("pages" :: inner) rfl (by simp)
    have innerNamed : "" ∉ inner ++ "pages" :: behind := by
      rw [directories] at named
      exact fun member => named (by simp_all)
    rw [List.cons_append, within,
      (apiSegments_eq_some_iff ..).mpr ⟨_, _, _, rfl, innerNamed, isStem, nonempty, earlier, rfl⟩] at missed
    cases missed
  · rintro ⟨listed, nonempty, spelled, directories, next, earliest⟩
    rename_i outer behind stem ending
    have isStem : stem? path.file = some stem := (stem?_eq_some_iff ..).mpr ⟨ending, listed, spelled⟩
    rw [directories] at named
    refine ⟨behind ++ [stem], ⟨outer, "pages" :: (behind ++ [path.file]), by simp [directories], by simp, ?_, ?_⟩,
      dropIndex_append isStem next⟩
    · refine (apiSegments_eq_some_iff ..).mpr ⟨behind, path.file, stem, rfl, ?_, isStem, nonempty, next, rfl⟩
      exact fun member => named (by simp [member])
    · rintro before inner rfl innerNonempty
      rw [Option.eq_none_iff_forall_ne_some]
      intro found hit
      obtain ⟨others, file, otherStem, cut, -, -, -, otherNext, -⟩ := (apiSegments_eq_some_iff ..).mp hit
      obtain ⟨first, inner, rfl⟩ := List.exists_cons_of_ne_nil innerNonempty
      rw [List.cons_append, List.cons.injEq, ← List.cons_append, ← List.append_assoc] at cut
      obtain ⟨rfl, cut⟩ := cut
      obtain ⟨rfl, sameFile⟩ := List.append_inj' cut rfl
      obtain rfl := (List.cons.inj sameFile).1
      exact earliest before inner rfl otherNext

/-! ## What a unit serves -/

theorem NamedPath.appSegments?_eq_none (notRoute : ¬ path.IsAppRoute) : appSegments? path.text = none := by
  rw [Option.eq_none_iff_forall_ne_some]
  intro between found
  obtain ⟨isRoute, outer, cut, -⟩ := (path.isRouteFile_iff between).mp ((appSegments?_eq_some_iff ..).mp found)
  exact notRoute ⟨isRoute, by simp [cut]⟩

theorem NamedPath.entryPoint_app {between : List String} (isRoute : path.IsAppRoute)
    (behind : path.BehindApp between) (u : CodeUnit) :
    entryPoint u path.text =
      if u.exported && verbs.contains u.name then some (.httpRoute u.name (routeThrough between)) else none := by
  have between_named : "" ∉ between := by
    obtain ⟨outer, cut, -⟩ := behind
    have named := path.empty_not_mem
    rw [cut] at named
    exact fun member => named (by simp [member])
  rw [entryPoint_of_isRouteFile ((path.isRouteFile_iff between).mpr ⟨isRoute.1, behind⟩),
    routeOf_eq_routeThrough between_named]

theorem NamedPath.BehindPages.named {segments : List String} (behindPages : path.BehindPages segments) :
    "" ∉ segments := by
  obtain ⟨listed, nonempty, spelled, directories, next, -⟩ := behindPages
  have named := path.empty_not_mem
  rw [directories] at named
  split
  · exact fun member => named (by simp [member])
  · rw [List.mem_append, List.mem_singleton]
    rintro (member | empty)
    · exact named (by simp [member])
    · exact nonempty empty.symm

theorem NamedPath.entryPoint_pages (notRoute : ¬ path.IsAppRoute) (u : CodeUnit) (e : EntryPoint) :
    entryPoint u path.text = some e ↔
      (u.defaultExport = true ∨ u.name = "handler") ∧
        ∃ segments, path.BehindPages segments ∧ e = .httpRoute "ANY" (routeThrough segments) := by
  simp only [entryPoint, path.appSegments?_eq_none notRoute, ← path.pageSegments?_eq_some_iff]
  cases found : pageSegments? path.text with
  | none => simp
  | some segments =>
    have named := NamedPath.BehindPages.named path ((path.pageSegments?_eq_some_iff segments).mp found)
    simp only [Option.some.injEq, exists_eq_left', routeOf_eq_routeThrough named]
    rw [Option.ite_none_right_eq_some, Bool.or_eq_true, beq_iff_eq, Option.some.injEq]
    exact and_congr_right fun _ => eq_comm

end

/-- A unit serves a route of the one family if and only if its file is a `route` below `app`, and it is exported
    and named after a method.  The route leads through the directories behind the first `app`.  No other unit
    of such a file serves anything.  In all other files, the default export and `handler` serve, under any
    method, the route through the components behind the first `pages` that `api` follows. -/
theorem entryPoint_components (path : NamedPath) (u : CodeUnit) :
    ((∃ verb ∈ verbs, ∃ route, entryPoint u path.text = some (.httpRoute verb route)) ↔
      path.IsAppRoute ∧ u.exported = true ∧ u.name ∈ verbs) ∧
    (path.IsAppRoute → u.exported = true → u.name ∈ verbs →
      ∃ between, path.BehindApp between ∧
        entryPoint u path.text = some (.httpRoute u.name (routeThrough between))) ∧
    (path.IsAppRoute → ¬ (u.exported = true ∧ u.name ∈ verbs) → entryPoint u path.text = none) ∧
    (¬ path.IsAppRoute → ∀ e, entryPoint u path.text = some e ↔
      (u.defaultExport = true ∨ u.name = "handler") ∧
        ∃ segments, path.BehindPages segments ∧ e = .httpRoute "ANY" (routeThrough segments)) := by
  have serves (isRoute : path.IsAppRoute) : ∃ between, path.BehindApp between ∧ entryPoint u path.text =
      if u.exported && verbs.contains u.name then some (.httpRoute u.name (routeThrough between)) else none := by
    obtain ⟨between, behind⟩ := path.exists_behindApp isRoute.2
    exact ⟨between, behind, path.entryPoint_app isRoute behind u⟩
  refine ⟨⟨?_, ?_⟩, ?_, ?_, fun notRoute => path.entryPoint_pages notRoute u⟩
  · rintro ⟨verb, isVerb, route, served⟩
    by_cases isRoute : path.IsAppRoute
    · obtain ⟨between, -, here⟩ := serves isRoute
      rw [served, eq_comm, Option.ite_none_right_eq_some] at here
      exact ⟨isRoute, by simpa using here.1⟩
    · obtain ⟨-, segments, -, same⟩ := (path.entryPoint_pages isRoute u _).mp served
      obtain ⟨rfl, -⟩ := EntryPoint.httpRoute.inj same
      exact absurd isVerb (by decide)
  · rintro ⟨isRoute, exported, isVerb⟩
    obtain ⟨between, -, here⟩ := serves isRoute
    exact ⟨u.name, isVerb, routeThrough between, by simpa [exported, isVerb] using here⟩
  · intro isRoute exported isVerb
    obtain ⟨between, behind, here⟩ := serves isRoute
    exact ⟨between, behind, by simpa [exported, isVerb] using here⟩
  · intro isRoute notServed
    obtain ⟨between, -, here⟩ := serves isRoute
    rw [here, if_neg]
    simpa using notServed

/-- A path with two directories `app`. -/
def shopPath : NamedPath := ⟨["src", "app", "(shop)", "app", "[id]", "@modal"], "route.ts", by decide⟩

/-- A path with two directories `pages`, of which only the second is followed by `api`. -/
def ordersPath : NamedPath := ⟨["pages", "docs", "pages", "api", "(v1)", "orders"], "index.mjs", by decide⟩

/-- The first `app` counts, and the second `pages`. -/
theorem entryPoint_components_nested :
    (shopPath.IsAppRoute ∧ entryPoint orderHandler shopPath.text = some (.httpRoute "GET" "/app/[id]") ∧
      ∃ between, shopPath.BehindApp between ∧
        entryPoint orderHandler shopPath.text = some (.httpRoute "GET" (routeThrough between))) ∧
    entryPoint { orderHandler with name := "load" } shopPath.text = none ∧
    ¬ ordersPath.IsAppRoute ∧
    ∃ segments, ordersPath.BehindPages segments ∧
      EntryPoint.httpRoute "ANY" "/api/orders" = .httpRoute "ANY" (routeThrough segments) := by
  have isRoute : shopPath.IsAppRoute := ⟨⟨"ts", by decide, by decide⟩, by decide⟩
  have notRoute : ¬ ordersPath.IsAppRoute := fun isRoute => absurd isRoute.2 (by decide)
  obtain ⟨-, serves, -, -⟩ := entryPoint_components shopPath orderHandler
  obtain ⟨-, -, others, -⟩ := entryPoint_components shopPath { orderHandler with name := "load" }
  obtain ⟨-, -, -, pages⟩ := entryPoint_components ordersPath { orderHandler with name := "handler" }
  refine ⟨⟨isRoute, by decide, serves isRoute rfl (by decide)⟩, others isRoute (by decide), notRoute, ?_⟩
  exact ((pages notRoute _).mp (by decide)).2

end CallAtlas.Routes
