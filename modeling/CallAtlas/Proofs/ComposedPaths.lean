import CallAtlas.Proofs.TriedPaths

/-!
# Normal forms of paths that are put together

Resolving reads a path from the left, and what it has found so far is itself a path that can be read again.  So
nothing is lost when a directory is brought into normal form before something is joined to it: a normal form leaves
the same components when it is read again (`resolved_components_normalize`), and reading a join is reading its two
parts one after the other (`foldl_components_join`).  An absolute path that never climbs above the top has the
location it denotes spelled out in its normal form (`normalize_of_denotes`).
-/

namespace CallAtlas.Path

open Text

/-- The path starts at the root and leads to the given location, without ever climbing above the top. -/
structure Denotes (path : String) (place : List String) : Prop where
  absolute : isAbsolute path = true
  leads : walk [] (components path) = some place

/-! ## Normal forms read again -/

theorem isAbsolute_normalize (path : String) : isAbsolute (normalize path) = isAbsolute path := by
  cases form : isAbsolute path with
  | true => rw [normalize_of_isAbsolute form, isAbsolute_rooted]
  | false => rw [normalize_of_relative form, isAbsolute_intercalate fun _ => isPiece_of_mem_resolved]

/-- A normal form is determined by two things that can be seen on the components of a path. -/
theorem normalize_congr {a b : String} (form : isAbsolute a = isAbsolute b)
    (left : resolved (components a) = resolved (components b)) : normalize a = normalize b := by
  simp only [normalize, form, left]

theorem resolved_components_normalize (path : String) :
    resolved (components (normalize path)) = resolved (components path) := by
  have arePieces : ∀ t ∈ resolved (components path), IsPiece t := fun _ => isPiece_of_mem_resolved
  -- Two points are left at most in front, so all that is read again is put on the stack.
  have again := resolved_map_ofText (points_not_mem_tail_resolved path)
  cases form : isAbsolute path with
  | true =>
    rw [normalize_of_isAbsolute form, components_rooted arePieces]
    exact again
  | false =>
    rw [normalize_of_relative form, components_relative arePieces]
    exact again

/-! ## Joins -/

theorem join_empty {path : String} (relative : isAbsolute path = false) : join "" path = path := by
  simp [join, relative]

theorem isAbsolute_join_of_relative {base path : String} (relative : isAbsolute path = false) :
    isAbsolute (join base path) = isAbsolute base := by
  by_cases empty : base = ""
  · subst empty
    rw [join_empty relative, relative]
    rfl
  · have nonempty : base.toList ≠ [] := by simpa using empty
    obtain ⟨c, cs, chars⟩ := List.exists_cons_of_ne_nil nonempty
    unfold join
    split
    · simp_all
    · split <;> simp [isAbsolute, chars]

/-- The root or the point in front of the other components changes nothing on the stack. -/
theorem foldl_components (path : String) (stack : Stack) :
    (components path).foldl resolveStep stack =
      ((splitAt (· = '/') path.toList).filterMap Component.ofPiece).foldl resolveStep stack := by
  unfold components
  dsimp only
  split
  · rfl
  · split <;> rfl

theorem filterMap_splitAt_slash {front tail : List Char} (isTail : tail = [] ∨ tail = ['/']) :
    (splitAt (· = '/') (front ++ tail)).filterMap Component.ofPiece =
      (splitAt (· = '/') front).filterMap Component.ofPiece := by
  rcases isTail with rfl | rfl
  · rw [List.append_nil]
  · -- Behind a slash at the end there is an empty piece, which stands for nothing.
    have cut : splitAt (· = '/') (front ++ ['/']) = splitAt (· = '/') front ++ [[]] :=
      splitFrom_append (by decide) [] front []
    rw [cut, List.filterMap_append]
    simp [Component.ofPiece]

theorem foldl_components_join {path : String} (relative : isAbsolute path = false) (base : String)
    (stack : Stack) :
    (components (join base path)).foldl resolveStep stack =
      (components path).foldl resolveStep ((components base).foldl resolveStep stack) := by
  by_cases empty : base = ""
  · subst empty
    rw [join_empty relative]
    rfl
  · obtain ⟨front, tail, split, isTail, joined⟩ := exists_front_join empty relative
    have cut : splitAt (· = '/') (front ++ '/' :: path.toList) =
        splitAt (· = '/') front ++ splitAt (· = '/') path.toList :=
      splitFrom_append (by decide) [] front path.toList
    rw [foldl_components, foldl_components, foldl_components, joined, cut, split,
      filterMap_splitAt_slash isTail, List.filterMap_append, List.foldl_append]

theorem resolved_components_join {path : String} (relative : isAbsolute path = false) (base : String) :
    resolved (components (join base path)) =
      ((components path).foldl resolveStep (resolved (components base)).reverse).reverse := by
  simp only [resolved, List.reverse_reverse, foldl_components_join relative]

/-! ## Locations -/

section

variable {path : String} {place : List String}

theorem course_of_denotes (denotes : Denotes path place) :
    (course path).climbs = 0 ∧ place = (course path).names.reverse := by
  obtain ⟨absolute, leads⟩ := denotes
  have form : components path =
      .root :: (splitAt (· = '/') path.toList).filterMap Component.ofPiece := by
    simp [components, absolute]
  have noRoot : .root ∉ (splitAt (· = '/') path.toList).filterMap Component.ofPiece := by
    intro member
    obtain ⟨piece, -, read⟩ := List.mem_filterMap.mp member
    unfold Component.ofPiece at read
    split at read <;> simp at read
  have start : course path = .along ((splitAt (· = '/') path.toList).filterMap Component.ofPiece) := by
    rw [course, form]
    rfl
  rw [form] at leads
  change walk [] ((splitAt (· = '/') path.toList).filterMap Component.ofPiece) = some place at leads
  rw [walk_eq_from? noRoot, ← start, Course.from?] at leads
  -- At the top there is no room for a step up.
  split at leads
  · rename_i deep
    refine ⟨by simpa using deep, ?_⟩
    simpa using leads.symm
  · cases leads

theorem resolved_of_denotes (denotes : Denotes path place) :
    resolved (components path) = place := by
  obtain ⟨noClimb, names⟩ := course_of_denotes denotes
  have noPoints : .name ".." ∉ components path := fun member => name_ne_points member rfl
  have left : resolved (components path) = (course path).stack.reverse := resolved_eq_stack noPoints
  rw [left, Course.stack, noClimb, names]
  simp

theorem isPiece_of_denotes (denotes : Denotes path place) :
    ∀ t ∈ place, IsPiece t ∧ t ≠ ".." := by
  intro t member
  have isPiece : IsPiece t := by
    apply isPiece_of_mem_resolved
    rwa [resolved_of_denotes denotes]
  refine ⟨isPiece, ?_⟩
  rintro rfl
  rw [(course_of_denotes denotes).2, List.mem_reverse] at member
  exact points_not_mem_course path member

theorem normalize_of_denotes (denotes : Denotes path place) :
    normalize path = rooted place := by
  rw [normalize_of_isAbsolute denotes.absolute, resolved_of_denotes denotes]

theorem components_normalize_of_denotes (denotes : Denotes path place) :
    components (normalize path) = .root :: place.map .name := by
  have named := isPiece_of_denotes denotes
  rw [normalize_of_denotes denotes, components_rooted fun t member => (named t member).1]
  congr 1
  apply List.map_congr_left
  intro t member
  exact if_neg (named t member).2

end

theorem normalize_eq_iff_of_denotes {a b : String} {place other : List String} (first : Denotes a place)
    (second : Denotes b other) : normalize a = normalize b ↔ place = other := by
  rw [normalize_of_denotes first, normalize_of_denotes second]
  constructor
  · exact rooted_injective (fun t member => (isPiece_of_denotes first t member).1)
      (fun t member => (isPiece_of_denotes second t member).1)
  · rintro rfl
    rfl

/-- A normal form stays as it is, and a directory can be brought into normal form before a relative path is joined
    to it.  The normal form of a path that denotes a location is absolute, spells the location without any points,
    and tells locations apart. -/
theorem normalize_compositional :
    (∀ a, normalize (normalize a) = normalize a) ∧
    (∀ a b, isAbsolute b = false → normalize (join a b) = normalize (join (normalize a) b)) ∧
    (∀ a place, Denotes a place →
      isAbsolute (normalize a) = true ∧ components (normalize a) = .root :: place.map .name ∧
        normalize a = rooted place ∧ ∀ t ∈ place, IsPiece t ∧ t ≠ "..") ∧
    ∀ a b place other, Denotes a place → Denotes b other → (normalize a = normalize b ↔ place = other) := by
  refine ⟨fun a => ?_, fun a b relative => ?_, fun a place denotes => ?_, fun _ _ _ _ => ?_⟩
  · exact normalize_congr (isAbsolute_normalize a) (resolved_components_normalize a)
  · apply normalize_congr
    · rw [isAbsolute_join_of_relative relative, isAbsolute_join_of_relative relative, isAbsolute_normalize]
    · rw [resolved_components_join relative, resolved_components_join relative,
        resolved_components_normalize]
  · refine ⟨?_, components_normalize_of_denotes denotes, normalize_of_denotes denotes,
      isPiece_of_denotes denotes⟩
    rw [isAbsolute_normalize, denotes.absolute]
  · exact normalize_eq_iff_of_denotes

/-- Two spellings of one file. -/
theorem normalize_compositional_spellings :
    (isAbsolute "../lib/./x.ts" = false ∧ Denotes "/p/src/./../lib/x.ts" ["p", "lib", "x.ts"] ∧
      Denotes "/p//lib/x.ts" ["p", "lib", "x.ts"]) ∧
    normalize (join "/p/src/a/.." "../lib/./x.ts") = normalize (join (normalize "/p/src/a/..") "../lib/./x.ts") ∧
    normalize "/p/src/./../lib/x.ts" = normalize "/p//lib/x.ts" := by
  have relative : isAbsolute "../lib/./x.ts" = false := by decide
  have first : Denotes "/p/src/./../lib/x.ts" ["p", "lib", "x.ts"] := ⟨by decide, by decide⟩
  have second : Denotes "/p//lib/x.ts" ["p", "lib", "x.ts"] := ⟨by decide, by decide⟩
  obtain ⟨-, composes, -, tellsApart⟩ := normalize_compositional
  exact ⟨⟨relative, first, second⟩, composes _ _ relative, (tellsApart _ _ _ _ first second).mpr rfl⟩

end CallAtlas.Path
