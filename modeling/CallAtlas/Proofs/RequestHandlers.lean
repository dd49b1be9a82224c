import CallAtlas.Proofs.ByteOrder
import CallAtlas.Proofs.KnownUnits
import CallAtlas.Proofs.RouteFiles

/-!
# Where a request leads

A request for a method and a path can be handled by every unit that is named after the method and stands
in a file of routes whose route fits the path.  It leads to the one whose file comes first in the order of
the bytes of its path (`resolve_firstHandler_iff`).

That order knows nothing of routes.  A route without dynamic segments fits one path only, and still a
dynamic route that fits it too may come first; `resolve_static_iff` says when it does not.
-/

namespace CallAtlas.Routes

open Text SourcePath

/-- A unit that is named after the method stands in a file of routes whose route fits the path. -/
structure Handles (units : List (String × String)) (method path file : String) : Prop where
  known : (file, method) ∈ units
  serves : ∃ segments, IsRouteFile file segments ∧ Fits (segments.filter isVisible) (segmentsOf path)

/-- The first file, in the order of bytes, with a handler. -/
structure IsFirstHandler (units : List (String × String)) (method path file : String) : Prop where
  handles : Handles units method path file
  least : ∀ other, Handles units method path other → other ≠ file → bytesOf file < bytesOf other

/-- The request for a method and a path. -/
def requestFor (method path : String) (label : Option String) (order : Option Nat) : Hint :=
  { kind := .httpRequest, target := .literal (method ++ " " ++ path), label, order }

/-! ## The first file -/

theorem splitAtSpace_append {method : String} (noSpace : ' ' ∉ method.toList) (path : String) :
    splitAtSpace (method ++ " " ++ path) = some (method, path) := by
  have cut : cutAt (· = ' ') (method ++ " " ++ path).toList = some (method.toList, path.toList) := by
    refine (cutAt_eq_some_iff _ _ _ _).mpr ⟨' ', by simp, by simp, fun c member => ?_⟩
    exact decide_eq_false fun same => noSpace (same ▸ member)
  rw [splitAtSpace, cut]
  simp

/-- In a rising list the first hit is the least. -/
theorem findSome?_eq_some_iff_of_rise {α : Type} {files : List String} (rise : files.Pairwise (· < ·))
    (f : String → Option α) (a : α) :
    files.findSome? f = some a ↔
      ∃ file ∈ files, f file = some a ∧ ∀ other ∈ files, other < file → f other = none := by
  rw [List.findSome?_eq_some_iff]
  constructor
  · rintro ⟨before, file, after, rfl, hit, misses⟩
    refine ⟨file, by simp, hit, fun other member below => ?_⟩
    obtain ⟨-, laterRise, -⟩ := List.pairwise_append.mp rise
    rcases List.mem_append.mp member with early | late
    · exact misses other early
    · rcases List.mem_cons.mp late with rfl | late
      · exact absurd below (String.lt_irrefl other)
      · exact absurd (String.lt_trans below ((List.pairwise_cons.mp laterRise).1 other late))
          (String.lt_irrefl other)
  · rintro ⟨file, member, hit, misses⟩
    obtain ⟨before, after, rfl⟩ := List.append_of_mem member
    obtain ⟨-, -, below⟩ := List.pairwise_append.mp rise
    exact ⟨before, file, after, rfl, hit, fun other early =>
      misses other (List.mem_append_left _ early) (below other early file List.mem_cons_self)⟩

section

variable (units : List (String × String)) (method path : String)

theorem handlerIn?_eq_some_iff (file id : String) :
    handlerIn? (.ofPairs units) method path file = some id ↔
      Handles units method path file ∧ id = nodeId file method := by
  have found : (KnownFiles.ofPairs units).find file method = some id ↔
      (file, method) ∈ units ∧ id = nodeId file method := by
    rw [KnownFiles.find_ofPairs_eq, Option.ite_none_right_eq_some, Option.some.injEq, eq_comm (a := id)]
  unfold handlerIn?
  constructor
  · intro hit
    split at hit
    · rename_i segments isRoute
      rw [appSegments?_eq_some_iff] at isRoute
      rw [Option.ite_none_right_eq_some, fits_routeOf_iff isRoute.noSlash, found] at hit
      obtain ⟨fits, known, same⟩ := hit
      exact ⟨⟨known, segments, isRoute, fits⟩, same⟩
    · cases hit
  · rintro ⟨⟨known, segments, isRoute, fits⟩, same⟩
    have cut := (appSegments?_eq_some_iff file segments).mpr isRoute
    simp only [cut]
    rw [Option.ite_none_right_eq_some, fits_routeOf_iff isRoute.noSlash, found]
    exact ⟨fits, known, same⟩

theorem handlerIn?_eq_none_iff (file : String) :
    handlerIn? (.ofPairs units) method path file = none ↔ ¬ Handles units method path file := by
  rw [Option.eq_none_iff_forall_ne_some]
  refine ⟨fun misses handles => ?_, fun notHandles id hit => ?_⟩
  · exact misses _ ((handlerIn?_eq_some_iff ..).mpr ⟨handles, rfl⟩)
  · exact notHandles ((handlerIn?_eq_some_iff ..).mp hit).1

variable {method}

theorem resolve_requestFor (noSpace : ' ' ∉ method.toList) (label : Option String) (order : Option Nat) :
    resolve (requestFor method path label order) (.ofPairs units) =
      (KnownFiles.ofPairs units).paths.findSome? (handlerIn? (.ofPairs units) method path) := by
  simp only [resolve, requestFor, splitAtSpace_append noSpace]

/-- A request leads to the first file with a handler. -/
theorem resolve_eq_some_iff (noSpace : ' ' ∉ method.toList) (label : Option String) (order : Option Nat)
    (id : String) :
    resolve (requestFor method path label order) (.ofPairs units) = some id ↔
      ∃ file, IsFirstHandler units method path file ∧ id = nodeId file method := by
  have isPath {file : String} (handles : Handles units method path file) :
      file ∈ (KnownFiles.ofPairs units).paths :=
    (KnownFiles.mem_paths_ofPairs_iff units file).mpr ⟨method, handles.known⟩
  rw [resolve_requestFor units path noSpace,
    findSome?_eq_some_iff_of_rise (KnownFiles.paths_ofPairs_rise units)]
  simp only [handlerIn?_eq_some_iff, handlerIn?_eq_none_iff]
  constructor
  · rintro ⟨file, -, ⟨handles, rfl⟩, misses⟩
    refine ⟨file, ⟨handles, fun other otherHandles differ => ?_⟩, rfl⟩
    have notBelow : ¬ other < file := fun below => misses other (isPath otherHandles) below otherHandles
    exact bytesOf_lt (Std.lt_of_le_of_ne (String.not_lt.mp notBelow) (Ne.symm differ))
  · rintro ⟨file, first, rfl⟩
    refine ⟨file, isPath first.handles, ⟨first.handles, rfl⟩, fun other _ below otherHandles => ?_⟩
    have differ : other ≠ file := String.ne_of_lt below
    exact absurd (bytesOf_lt below) (List.lt_asymm (first.least other otherHandles differ))

/-- A request is resolved as soon as there is a handler. -/
theorem resolve_isSome_iff (noSpace : ' ' ∉ method.toList) (label : Option String) (order : Option Nat) :
    (resolve (requestFor method path label order) (.ofPairs units)).isSome = true ↔
      ∃ file, Handles units method path file := by
  rw [resolve_requestFor units path noSpace, List.findSome?_isSome_iff]
  constructor
  · rintro ⟨file, -, hit⟩
    obtain ⟨id, hit⟩ := Option.isSome_iff_exists.mp hit
    exact ⟨file, ((handlerIn?_eq_some_iff ..).mp hit).1⟩
  · rintro ⟨file, handles⟩
    refine ⟨file, (KnownFiles.mem_paths_ofPairs_iff units file).mpr ⟨method, handles.known⟩, ?_⟩
    rw [(handlerIn?_eq_some_iff ..).mpr ⟨handles, rfl⟩]
    rfl

end

theorem space_not_mem_of_mem_verbs {method : String} (isVerb : method ∈ verbs) : ' ' ∉ method.toList := by
  simp only [verbs, List.mem_cons, List.not_mem_nil, or_false] at isVerb
  rcases isVerb with rfl | rfl | rfl | rfl | rfl | rfl | rfl <;> decide

theorem entryPoint_of_isRouteFile {u : CodeUnit} {file : String} {segments : List String}
    (isRoute : IsRouteFile file segments) :
    entryPoint u file =
      if u.exported && verbs.contains u.name then some (.httpRoute u.name (routeOf segments))
      else none := by
  have cut := (appSegments?_eq_some_iff file segments).mpr isRoute
  simp only [entryPoint, cut]

/-- What a file of routes serves is handled in that very file. -/
theorem handles_of_entryPoint {units : List (String × String)} {u : CodeUnit} {file method route : String}
    {segments : List String} (isRoute : IsRouteFile file segments) (known : (file, u.name) ∈ units)
    (served : entryPoint u file = some (.httpRoute method route)) :
    method ∈ verbs ∧ Handles units method route file := by
  rw [entryPoint_of_isRouteFile isRoute, Option.ite_none_right_eq_some, Bool.and_eq_true,
    List.contains_iff_mem, Option.some.injEq, EntryPoint.httpRoute.injEq] at served
  obtain ⟨⟨-, isVerb⟩, rfl, rfl⟩ := served
  refine ⟨isVerb, known, segments, isRoute, ?_⟩
  rw [segmentsOf_routeOf isRoute.noSlash]
  exact Fits.refl _

/-- A request is resolved if and only if some known file of routes fits its path and has a unit named
    after its method, and it leads to the first such file in the order of bytes.  So a request for the very
    method and route that a known unit of a file of routes serves is always resolved. -/
theorem resolve_firstHandler_iff (units : List (String × String)) {method : String}
    (noSpace : ' ' ∉ method.toList) (path : String) (label : Option String) (order : Option Nat) :
    ((resolve (requestFor method path label order) (.ofPairs units)).isSome = true ↔
      ∃ file, Handles units method path file) ∧
    (∀ id, resolve (requestFor method path label order) (.ofPairs units) = some id ↔
      ∃ file, IsFirstHandler units method path file ∧ id = nodeId file method) ∧
    ∀ u file segments verb route, IsRouteFile file segments → (file, u.name) ∈ units →
      entryPoint u file = some (.httpRoute verb route) →
      (resolve (requestFor verb route label order) (.ofPairs units)).isSome = true := by
  refine ⟨resolve_isSome_iff units path noSpace label order,
    resolve_eq_some_iff units path noSpace label order, ?_⟩
  intro u file segments verb route isRoute known served
  obtain ⟨isVerb, handles⟩ := handles_of_entryPoint isRoute known served
  exact (resolve_isSome_iff units route (space_not_mem_of_mem_verbs isVerb) label order).mpr ⟨file, handles⟩

/-- Three files, of which the first has no handler for the method. -/
def orderUnits : List (String × String) :=
  [("app/orders/[id]/route.ts", "GET"), ("src/app/(shop)/orders/[...rest]/route.js", "DELETE"),
    ("src/app/orders/[id]/route.ts", "DELETE")]

/-- The handler in the first of them. -/
def orderHandler : CodeUnit :=
  { name := "GET", kind := .function, file := "app/orders/[id]/route.ts", params := "()", body := ""
    declaration := "", firstLine := 1, lastLine := 1, isAsync := true, exported := true
    defaultExport := false, docs := none }

/-- The file that fits but lacks the method does not stop the search, and groups are not seen.  The handler
    that is served there is reached by its own route. -/
theorem resolve_firstHandler_orders :
    (resolve (requestFor "DELETE" "/orders/42" none none) (.ofPairs orderUnits) =
      some "src/app/(shop)/orders/[...rest]/route.js:DELETE" ∧
    ∃ file, IsFirstHandler orderUnits "DELETE" "/orders/42" file ∧
      nodeId "src/app/(shop)/orders/[...rest]/route.js" "DELETE" = nodeId file "DELETE") ∧
    entryPoint orderHandler "app/orders/[id]/route.ts" = some (.httpRoute "GET" "/orders/[id]") ∧
    (resolve (requestFor "GET" "/orders/[id]" none none) (.ofPairs orderUnits)).isSome = true := by
  have resolved : resolve (requestFor "DELETE" "/orders/42" none none) (.ofPairs orderUnits) =
      some "src/app/(shop)/orders/[...rest]/route.js:DELETE" := by
    decide +kernel
  have noSpace : ' ' ∉ "DELETE".toList := by decide
  obtain ⟨-, leads, reached⟩ := resolve_firstHandler_iff orderUnits noSpace "/orders/42" none none
  have cut : appSegments? "app/orders/[id]/route.ts" = some ["orders", "[id]"] := by decide
  have served : entryPoint orderHandler "app/orders/[id]/route.ts" =
      some (.httpRoute "GET" "/orders/[id]") := by
    decide
  have known : ("app/orders/[id]/route.ts", orderHandler.name) ∈ orderUnits := by decide
  exact ⟨⟨resolved, (leads _).mp resolved⟩, served,
    reached _ _ _ _ _ ((appSegments?_eq_some_iff ..).mp cut) known served⟩

/-! ## Routes without dynamic segments -/

/-- The file serves the path by a route that has no dynamic segments: the route is the path. -/
def ServesStatically (file path : String) : Prop :=
  ∃ segments, IsRouteFile file segments ∧ (∀ segment ∈ segments.filter isVisible, kindOf segment = .plain) ∧
    routeOf segments = path

/-- The route of the file has a dynamic segment. -/
def IsDynamic (file : String) : Prop :=
  ∃ segments, IsRouteFile file segments ∧ ∃ segment ∈ segments.filter isVisible, kindOf segment ≠ .plain

/-- Up to some place the two paths are the same; there `file` goes on with `c`, and `other` with the
    bracket of a dynamic segment. -/
def PartAt (c : Char) (file other : String) : Prop :=
  ∃ common rest otherRest, file.toList = common ++ c :: rest ∧ other.toList = common ++ '[' :: otherRest

theorem ServesStatically.handles {units : List (String × String)} {method path file : String}
    (static : ServesStatically file path) (known : (file, method) ∈ units) :
    Handles units method path file := by
  obtain ⟨segments, isRoute, -, rfl⟩ := static
  refine ⟨known, segments, isRoute, ?_⟩
  rw [segmentsOf_routeOf isRoute.noSlash]
  exact Fits.refl _

/-- Beside a static route, what handles the path otherwise does so through a dynamic segment. -/
theorem Handles.isDynamic {units : List (String × String)} {method path file other : String}
    (handles : Handles units method path other) (static : ServesStatically file path)
    (notStatic : ¬ ServesStatically other path) : IsDynamic other := by
  obtain ⟨segments, isRoute, fits⟩ := handles.serves
  obtain ⟨plainSegments, plainRoute, -, rfl⟩ := static
  refine ⟨segments, isRoute, Classical.byContradiction fun none => notStatic ⟨segments, isRoute, ?_⟩⟩
  have plain : ∀ segment ∈ segments.filter isVisible, kindOf segment = .plain := fun segment member =>
    Decidable.byContradiction fun dynamic => none ⟨segment, member, dynamic⟩
  have same := fits.eq_of_plain plain
  rw [segmentsOf_routeOf plainRoute.noSlash] at same
  exact ⟨plain, by rw [routeOf, routeOf, same]⟩

/-- Two paths are in the order of the characters where they part. -/
theorem bytesOf_lt_of_branch {file other : String} {common rest otherRest : List Char} {c d : Char}
    (fileText : file.toList = common ++ c :: rest) (otherText : other.toList = common ++ d :: otherRest)
    (below : c < d) : bytesOf file < bytesOf other := by
  refine CallAtlas.bytesOf_lt (String.lt_iff.mpr ?_)
  rw [fileText, otherText]
  exact List.append_left_lt (List.cons_lt_cons_iff.mpr (.inl below))

theorem PartAt.bytesOf_lt {c : Char} {file other : String} (part : PartAt c file other) (below : c < '[') :
    bytesOf file < bytesOf other := by
  obtain ⟨common, rest, otherRest, fileText, otherText⟩ := part
  exact bytesOf_lt_of_branch fileText otherText below

theorem PartAt.lt_bytesOf {c : Char} {file other : String} (part : PartAt c file other) (above : '[' < c) :
    bytesOf other < bytesOf file := by
  obtain ⟨common, rest, otherRest, fileText, otherText⟩ := part
  exact bytesOf_lt_of_branch otherText fileText above

/-- The first handler serves a path statically if and only if every handler that does not comes behind one
    that does. -/
theorem IsFirstHandler.servesStatically_iff {units : List (String × String)} {method path found : String}
    (first : IsFirstHandler units method path found) :
    ServesStatically found path ↔
      ∀ other, Handles units method path other → ¬ ServesStatically other path →
        ∃ file, Handles units method path file ∧ ServesStatically file path ∧
          bytesOf file < bytesOf other := by
  constructor
  · intro static other handles dynamic
    have differ : other ≠ found := fun same => dynamic (same ▸ static)
    exact ⟨found, first.handles, static, first.least other handles differ⟩
  · intro preceded
    refine Classical.byContradiction fun dynamic => ?_
    obtain ⟨file, handles, static, below⟩ := preceded found first.handles dynamic
    have differ : file ≠ found := fun same => dynamic (same ▸ static)
    exact absurd below (List.lt_asymm (first.least file handles differ))

/-- Where some handler serves the path by a route without dynamic segments, the request leads to such a
    handler if and only if every dynamic handler comes behind one of them in the order of bytes.  That is
    so if each goes on with the bracket where the file of the former goes on with a lower character, such as
    a capital letter or a digit; but a dynamic handler whose file goes on with the bracket where that file
    has a small letter is always put before it. -/
theorem resolve_static_iff {units : List (String × String)} {method path file : String}
    (noSpace : ' ' ∉ method.toList) (known : (file, method) ∈ units) (static : ServesStatically file path)
    (label : Option String) (order : Option Nat) :
    ∃ found, resolve (requestFor method path label order) (.ofPairs units) = some (nodeId found method) ∧
      IsFirstHandler units method path found ∧ (¬ ServesStatically found path → IsDynamic found) ∧
      (ServesStatically found path ↔
        ∀ other, Handles units method path other → ¬ ServesStatically other path →
          ∃ first, Handles units method path first ∧ ServesStatically first path ∧
            bytesOf first < bytesOf other) ∧
      ((∀ other, Handles units method path other → ¬ ServesStatically other path →
        ∃ c, PartAt c file other ∧ c < '[') → ServesStatically found path) ∧
      ∀ other c, Handles units method path other → PartAt c file other → '[' < c → found ≠ file := by
  have handles := static.handles known
  have isResolved := (resolve_isSome_iff units path noSpace label order).mpr ⟨file, handles⟩
  obtain ⟨id, resolved⟩ := Option.isSome_iff_exists.mp isResolved
  obtain ⟨found, first, rfl⟩ := (resolve_eq_some_iff units path noSpace label order id).mp resolved
  refine ⟨found, resolved, first, first.handles.isDynamic static, first.servesStatically_iff, ?_, ?_⟩
  · intro behind
    refine first.servesStatically_iff.mpr fun other otherHandles dynamic => ?_
    obtain ⟨c, part, below⟩ := behind other otherHandles dynamic
    exact ⟨file, handles, static, part.bytesOf_lt below⟩
  · rintro other c otherHandles part above rfl
    have below := part.lt_bytesOf above
    have differ : other ≠ found := by
      rintro rfl
      exact List.lt_irrefl _ below
    exact absurd below (List.lt_asymm (first.least other otherHandles differ))

theorem servesStatically_of_appSegments {file path : String} {segments : List String}
    (cut : appSegments? file = some segments)
    (plain : (segments.filter isVisible).all (kindOf · == .plain) = true) (route : routeOf segments = path) :
    ServesStatically file path := by
  refine ⟨segments, (appSegments?_eq_some_iff file segments).mp cut, fun segment member => ?_, route⟩
  exact beq_iff_eq.mp (List.all_eq_true.mp plain segment member)

/-- A static and a dynamic route beside each other. -/
def besideUnits (name : String) : List (String × String) :=
  [("app/" ++ name ++ "/route.ts", "GET"), ("app/[id]/route.ts", "GET")]

/-- A name in capital letters comes before the bracket. -/
theorem resolve_static_capital :
    ServesStatically "app/API/route.ts" "/API" ∧
    ∃ found, resolve (requestFor "GET" "/API" none none) (.ofPairs (besideUnits "API")) =
        some (nodeId found "GET") ∧
      IsFirstHandler (besideUnits "API") "GET" "/API" found ∧ ServesStatically found "/API" := by
  have cut : appSegments? "app/API/route.ts" = some ["API"] := by decide
  have static : ServesStatically "app/API/route.ts" "/API" :=
    servesStatically_of_appSegments cut (by decide) (by decide)
  have noSpace : ' ' ∉ "GET".toList := by decide
  have known : ("app/API/route.ts", "GET") ∈ besideUnits "API" := by decide
  refine ⟨static, ?_⟩
  obtain ⟨found, resolved, first, -, -, isStatic, -⟩ := resolve_static_iff noSpace known static none none
  refine ⟨found, resolved, first, isStatic fun other handles dynamic => ⟨'A', ?_, by decide⟩⟩
  have listed := handles.known
  simp only [besideUnits, List.mem_cons, Prod.mk.injEq, List.not_mem_nil, or_false] at listed
  rcases listed with ⟨rfl, -⟩ | ⟨rfl, -⟩
  · exact absurd static dynamic
  · exact ⟨"app/".toList, "PI/route.ts".toList, "id]/route.ts".toList, by decide, by decide⟩

/-- A name in small letters comes behind it, and the request leads to the dynamic route. -/
theorem resolve_dynamic_first :
    ServesStatically "app/about/route.ts" "/about" ∧ ("app/about/route.ts", "GET") ∈ besideUnits "about" ∧
    ¬ ServesStatically "app/[id]/route.ts" "/about" ∧
    resolve (requestFor "GET" "/about" none none) (.ofPairs (besideUnits "about")) =
      some "app/[id]/route.ts:GET" := by
  have staticCut : appSegments? "app/about/route.ts" = some ["about"] := by decide
  refine ⟨servesStatically_of_appSegments staticCut (by decide) (by decide), by decide, ?_, by decide +kernel⟩
  rintro ⟨segments, isRoute, -, route⟩
  have cut : appSegments? "app/[id]/route.ts" = some ["[id]"] := by decide
  rw [isRoute.unique ((appSegments?_eq_some_iff ..).mp cut)] at route
  exact absurd route (by decide)

end CallAtlas.Routes
