import CallAtlas.Framework.Routes
import CallAtlas.Proofs.NormalPaths

/-!
# Files of routes, and the paths that routes fit

What a file of routes is can be said by the pieces of its path alone (`IsRouteFile`), and which paths a
route fits by how its segments take up those of the path (`Fits`).  The functions that decide the two
follow this to the letter (`appSegments?_eq_some_iff`, `segmentsFit_iff`).  Every route fits itself, read
as a path (`Fits.refl`).
-/

namespace CallAtlas.SourcePath

open Text

/-! ## What stands behind a directory -/

theorem areNamed_iff (pieces : List String) : areNamed pieces = true ↔ "" ∉ pieces.dropLast := by
  simp only [areNamed, List.all_eq_true, Bool.not_eq_true', String.isEmpty_eq_false_iff]
  exact ⟨fun named member => named "" member rfl, fun named piece member empty => named (empty ▸ member)⟩

theorem behindOneOf_eq_some_iff (name : String) (pieces behind : List String) :
    behindOneOf [name] pieces = some behind ↔
      pieces = name :: behind ∧ behind ≠ [] ∧ "" ∉ behind.dropLast := by
  cases pieces with
  | nil => simp [behindOneOf]
  | cons first rest =>
    rw [behindOneOf, Option.ite_none_right_eq_some, Option.some.injEq, List.cons.injEq]
    simp only [Bool.and_eq_true, areNamed_iff, List.contains_iff_mem, List.mem_singleton,
      Bool.not_eq_true', List.isEmpty_eq_false_iff]
    constructor
    · rintro ⟨⟨⟨same, nonempty⟩, named⟩, rfl⟩
      exact ⟨⟨same, rfl⟩, nonempty, named⟩
    · rintro ⟨⟨same, rfl⟩, nonempty, named⟩
      exact ⟨⟨⟨same, nonempty⟩, named⟩, rfl⟩

/-- The directory that counts is the first one of the name behind which all directories have names. -/
theorem behindFirst_eq_some_iff {name : String} (named : name ≠ "") (pieces behind : List String) :
    behindFirst (behindOneOf [name]) pieces = some behind ↔
      ∃ front, pieces = front ++ name :: behind ∧ behind ≠ [] ∧ "" ∉ behind.dropLast ∧
        ∀ outer inner, front = outer ++ name :: inner → "" ∈ inner := by
  induction pieces with
  | nil => simp [behindFirst]
  | cons first rest inductionHypothesis =>
    rw [behindFirst, Option.or_eq_some_iff, behindOneOf_eq_some_iff, inductionHypothesis,
      Option.eq_none_iff_forall_ne_some]
    constructor
    · rintro (⟨here, nonempty, areNamed⟩ | ⟨notHere, front, rfl, nonempty, areNamed, earliest⟩)
      · exact ⟨[], here, nonempty, areNamed, by simp⟩
      · refine ⟨first :: front, rfl, nonempty, areNamed, fun outer inner cut => ?_⟩
        rcases List.cons_eq_append_iff.mp cut with ⟨rfl, same⟩ | ⟨outer, rfl, within⟩
        · obtain ⟨rfl, rfl⟩ := List.cons.inj same
          refine Decidable.byContradiction fun allNamed => ?_
          refine notHere _ ((behindOneOf_eq_some_iff ..).mpr ⟨rfl, by simp, ?_⟩)
          rw [List.dropLast_append_of_ne_nil (by simp), List.dropLast_cons_of_ne_nil nonempty]
          simp [allNamed, areNamed, Ne.symm named]
        · exact earliest outer inner within
    · rintro ⟨front, cut, nonempty, areNamed, earliest⟩
      cases front with
      | nil => exact .inl ⟨cut, nonempty, areNamed⟩
      | cons piece front =>
        rw [List.cons_append, List.cons.injEq] at cut
        obtain ⟨rfl, rfl⟩ := cut
        refine .inr ⟨fun other found => ?_, front, rfl, nonempty, areNamed,
          fun outer inner cut => earliest (first :: outer) inner (by rw [cut]; rfl)⟩
        obtain ⟨same, -, allNamed⟩ := (behindOneOf_eq_some_iff ..).mp found
        obtain ⟨rfl, rfl⟩ := List.cons.inj same
        rw [List.dropLast_append_of_ne_nil (by simp)] at allNamed
        exact allNamed (List.mem_append_left _ (earliest [] front rfl))

/-! ## Endings -/

theorem stem?_eq_some {name stem : String} (found : stem? name = some stem) :
    ∃ ending ∈ extensions, name = stem ++ "." ++ ending := by
  obtain ⟨ending, listed, found⟩ := List.exists_of_findSome?_eq_some found
  obtain ⟨reversed, stripped, rfl⟩ := Option.map_eq_some_iff.mp found
  refine ⟨ending, listed, String.toList_inj.mp ?_⟩
  have spelled := congrArg List.reverse ((stripPrefix?_eq_some_iff _ _ _).mp stripped)
  rw [List.reverse_reverse, List.reverse_append, List.reverse_reverse] at spelled
  simp [spelled]

theorem stem?_eq_route_iff (name : String) :
    stem? name = some "route" ↔ ∃ ending ∈ extensions, name = "route." ++ ending := by
  constructor
  · exact stem?_eq_some
  · rintro ⟨ending, listed, rfl⟩
    simp only [extensions, List.mem_cons, List.not_mem_nil, or_false] at listed
    rcases listed with rfl | rfl | rfl | rfl | rfl | rfl | rfl | rfl <;> decide

end CallAtlas.SourcePath

namespace CallAtlas.Routes

open Text SourcePath

/-! ## Files of routes -/

/-- The path leads through a directory `app` and the directories `segments` to a file `route` with the
    ending of a source.  The directories have names, and `app` is the first directory so called behind
    which that is so. -/
def IsRouteFile (path : String) (segments : List String) : Prop :=
  ∃ front, ∃ ending ∈ extensions,
    Path.pieces path = front ++ "app" :: (segments ++ ["route." ++ ending]) ∧ "" ∉ segments ∧
      ∀ outer inner, front = outer ++ "app" :: inner → "" ∈ inner

theorem appSegments?_eq_some_iff (path : String) (segments : List String) :
    appSegments? path = some segments ↔ IsRouteFile path segments := by
  unfold appSegments? IsRouteFile
  constructor
  · intro found
    split at found
    · rename_i behind isBehind
      rw [Option.ite_none_right_eq_some, beq_iff_eq, Option.some.injEq] at found
      obtain ⟨isRoute, rfl⟩ := found
      obtain ⟨name, last, isRoute⟩ := Option.bind_eq_some_iff.mp isRoute
      obtain ⟨ending, listed, rfl⟩ := (stem?_eq_route_iff name).mp isRoute
      obtain ⟨front, cut, -, named, earliest⟩ := (behindFirst_eq_some_iff (by decide) _ _).mp isBehind
      obtain ⟨segments, rfl⟩ := List.getLast?_eq_some_iff.mp last
      rw [List.dropLast_concat] at named ⊢
      exact ⟨front, ending, listed, cut, named, earliest⟩
    · cases found
  · rintro ⟨front, ending, listed, cut, named, earliest⟩
    have isBehind : behindFirst (behindOneOf ["app"]) (Path.pieces path) =
        some (segments ++ ["route." ++ ending]) :=
      (behindFirst_eq_some_iff (by decide) _ _).mpr ⟨front, cut, by simp, by simpa using named, earliest⟩
    have isRoute : stem? ("route." ++ ending) = some "route" :=
      (stem?_eq_route_iff _).mpr ⟨ending, listed, rfl⟩
    simp [isBehind, isRoute]

theorem IsRouteFile.unique {path : String} {segments others : List String}
    (first : IsRouteFile path segments) (second : IsRouteFile path others) : segments = others := by
  rw [← appSegments?_eq_some_iff] at first second
  exact Option.some.inj (first.symm.trans second)

theorem IsRouteFile.noSlash {path : String} {segments : List String} (isRoute : IsRouteFile path segments) :
    ∀ segment ∈ segments, '/' ∉ segment.toList := by
  obtain ⟨front, ending, -, cut, -⟩ := isRoute
  intro segment member
  have isPiece : segment ∈ Path.pieces path := by simp [cut, member]
  exact Path.slash_not_mem_of_mem_pieces isPiece

/-! ## Routes and paths -/

/-- What a segment of a route stands for. -/
inductive SegmentKind where
  /-- Itself. -/
  | plain
  /-- Any one segment: `[x]`. -/
  | one
  /-- At least one segment, and all behind it: `[...x]`. -/
  | rest
  /-- All segments that are left, if any: `[[...x]]`. -/
  | optionalRest
  deriving DecidableEq, Repr

/-- The kind of a segment, told by how it starts. -/
def kindOf (segment : String) : SegmentKind :=
  if startsWith "[[..." segment.toList then .optionalRest
  else if startsWith "[..." segment.toList then .rest
  else if startsWith "[" segment.toList then .one
  else .plain

/-- The segments of a route take up those of a path from left to right. -/
inductive Fits : List String → List String → Prop where
  | done : Fits [] []
  | plain {segment : String} {route path : List String} : kindOf segment = .plain → Fits route path →
      Fits (segment :: route) (segment :: path)
  | one {segment actual : String} {route path : List String} : kindOf segment = .one → Fits route path →
      Fits (segment :: route) (actual :: path)
  | rest {segment actual : String} {route path : List String} : kindOf segment = .rest →
      Fits (segment :: route) (actual :: path)
  | optionalRest {segment : String} {route path : List String} : kindOf segment = .optionalRest →
      Fits (segment :: route) path

theorem segmentsFit_iff (route path : List String) : segmentsFit route path = true ↔ Fits route path := by
  fun_induction segmentsFit route path with
  | case1 path =>
    rw [List.isEmpty_iff]
    constructor
    · rintro rfl
      exact .done
    · rintro ⟨⟩
      rfl
  | case2 segment route path starts => simp [Fits.optionalRest, kindOf, starts]
  | case3 segment route path notOptional starts =>
    have kind : kindOf segment = .rest := by simp [kindOf, notOptional, starts]
    cases path with
    | nil =>
      simp only [List.isEmpty_nil, Bool.not_true, Bool.false_eq_true, false_iff]
      intro fits
      cases fits with
      | optionalRest other => simp [kind] at other
    | cons actual path => simp [Fits.rest kind]
  | case4 segment route notOptional notRest actual path inductionHypothesis =>
    rw [Bool.and_eq_true, Bool.or_eq_true, beq_iff_eq, inductionHypothesis]
    by_cases bracket : startsWith "[" segment.toList = true
    · have kind : kindOf segment = .one := by simp [kindOf, notOptional, notRest, bracket]
      refine ⟨fun fits => .one kind fits.2, fun fits => ⟨.inl bracket, ?_⟩⟩
      cases fits with
      | one _ fits | plain _ fits => exact fits
      | rest other | optionalRest other => simp [kind] at other
    · have kind : kindOf segment = .plain := by simp [kindOf, notOptional, notRest, bracket]
      constructor
      · rintro ⟨starts | rfl, fits⟩
        · exact absurd starts bracket
        · exact .plain kind fits
      · intro fits
        cases fits with
        | plain _ fits => exact ⟨.inr rfl, fits⟩
        | one other | rest other | optionalRest other => simp [kind] at other
  | case5 segment route notOptional notRest =>
    simp only [Bool.false_eq_true, false_iff]
    intro fits
    cases fits with
    | optionalRest kind =>
      have short : kindOf segment = if startsWith "[" segment.toList then .one else .plain := by
        simp [kindOf, notOptional, notRest]
      rw [short] at kind
      split at kind <;> cases kind

/-- A route fits itself, read as a path. -/
theorem Fits.refl (route : List String) : Fits route route := by
  induction route with
  | nil => exact .done
  | cons segment route inductionHypothesis =>
    cases kind : kindOf segment with
    | plain => exact .plain kind inductionHypothesis
    | one => exact .one kind inductionHypothesis
    | rest => exact .rest kind
    | optionalRest => exact .optionalRest kind

/-- Where all segments are plain, the path has the very same ones. -/
theorem Fits.eq_of_plain {route path : List String} (fits : Fits route path)
    (plain : ∀ segment ∈ route, kindOf segment = .plain) : path = route := by
  induction fits with
  | done => rfl
  | plain _ _ inductionHypothesis =>
    rw [inductionHypothesis fun segment member => plain segment (List.mem_cons_of_mem _ member)]
  | one kind | rest kind | optionalRest kind =>
    rw [plain _ List.mem_cons_self] at kind
    cases kind

theorem segmentsOf_routeOf {segments : List String}
    (noSlash : ∀ segment ∈ segments, '/' ∉ segment.toList) :
    segmentsOf (routeOf segments) = segments.filter isVisible := by
  have visible : ∀ segment ∈ segments.filter isVisible, (!segment.isEmpty) = true := by
    intro segment member
    have seen := (List.mem_filter.mp member).2
    rw [isVisible, Bool.and_eq_true, Bool.and_eq_true] at seen
    exact seen.1.1
  have visibleFree : ∀ segment ∈ segments.filter isVisible, '/' ∉ segment.toList :=
    fun segment member => noSlash segment (List.mem_filter.mp member).1
  have noSlashInFront : '/' ∉ "".toList := by decide
  have rooted : Path.pieces (routeOf segments) =
      "" :: Path.pieces ("/".intercalate (segments.filter isVisible)) :=
    Path.pieces_append_slash noSlashInFront _
  unfold segmentsOf
  rw [rooted, List.filter_cons_of_neg (by decide)]
  by_cases none : segments.filter isVisible = []
  · rw [none]
    decide
  · rw [Path.pieces_intercalate visibleFree none, List.filter_eq_self]
    exact visible

theorem fits_routeOf_iff {segments : List String}
    (noSlash : ∀ segment ∈ segments, '/' ∉ segment.toList) (path : String) :
    fits (routeOf segments) path = true ↔ Fits (segments.filter isVisible) (segmentsOf path) := by
  rw [fits, segmentsFit_iff, segmentsOf_routeOf noSlash]

end CallAtlas.Routes
