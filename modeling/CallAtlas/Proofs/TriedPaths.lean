import CallAtlas.Proofs.RelativePaths
import CallAtlas.Proofs.RecordedPaths
import CallAtlas.Resolve.Specifier

/-!
# The paths that are tried for a base

The ending of a compiled file is swapped for those of the sources that it may stand for (`Swaps`), and something
may be put behind a path.  What comes out differs from the path in its last piece at most, or has one more
(`exists_names_of_mem_candidatesAt`), and then nothing is left in it to resolve (`samePath_normalize`).
-/

namespace CallAtlas.Path

open Text

/-! ## Names with an ending -/

theorem cutAt_reverse_iff (name stem ending : String) :
    cutAt (· = '.') name.toList.reverse = some (ending.toList.reverse, stem.toList.reverse) ↔
      name = stem ++ "." ++ ending ∧ '.' ∉ ending.toList := by
  have whole : name = stem ++ "." ++ ending ↔
      name.toList.reverse = ending.toList.reverse ++ '.' :: stem.toList.reverse := by
    rw [← String.toList_inj, ← List.reverse_inj]
    simp
  rw [cutAt_eq_some_iff, whole]
  constructor
  · rintro ⟨c, split, isPoint, free⟩
    obtain rfl : c = '.' := by simpa using isPoint
    exact ⟨split, fun member => by simpa using free '.' (List.mem_reverse.mpr member)⟩
  · rintro ⟨split, free⟩
    refine ⟨'.', split, by simp, fun c member => ?_⟩
    simp only [decide_eq_false_iff_not]
    rintro rfl
    exact free (List.mem_reverse.mp member)

/-- The ending of a name stands behind its last point, which is not its first character. -/
theorem splitName_eq_some_iff (name stem ending : String) :
    splitName name = (stem, some ending) ↔
      name = stem ++ "." ++ ending ∧ '.' ∉ ending.toList ∧ stem ≠ "" := by
  rw [← and_assoc, ← cutAt_reverse_iff]
  unfold splitName
  dsimp only
  generalize cutAt (· = '.') name.toList.reverse = cut
  have nonempty : stem ≠ "" ↔ stem.toList.reverse ≠ [] := by simp
  rw [nonempty]
  match cut with
  | none => simp
  | some (back, []) => simp
  | some (back, c :: front) =>
    simp only [Prod.mk.injEq, Option.some.injEq, ← String.toList_inj, String.toList_ofList,
      List.reverse_eq_iff]
    constructor
    · rintro ⟨stemRead, endingRead⟩
      exact ⟨⟨endingRead, stemRead⟩, by simp [← stemRead]⟩
    · rintro ⟨⟨endingRead, stemRead⟩, -⟩
      exact ⟨stemRead, endingRead⟩

theorem extension?_rooted_nil : extension? (rooted []) = none := by decide

theorem extension?_rooted_concat {front : List String} {last : String}
    (arePieces : ∀ t ∈ front ++ [last], IsPiece t) (plain : last ≠ "..") :
    extension? (rooted (front ++ [last])) = (splitName last).2 := by
  have name : fileName? (rooted (front ++ [last])) = some last := by
    unfold fileName?
    rw [components_rooted arePieces, List.map_append, ← List.cons_append, List.map_singleton,
      List.getLast?_concat, Component.ofText, if_neg plain]
  rw [extension?, name, Option.bind_some]

theorem extension?_rooted_points {front : List String} (arePieces : ∀ t ∈ front ++ [".."], IsPiece t) :
    extension? (rooted (front ++ [".."])) = none := by
  unfold extension? fileName?
  rw [components_rooted arePieces, List.map_append, ← List.cons_append, List.map_singleton,
    List.getLast?_concat]
  rfl

theorem isPiece_of_long {text : String} (long : 2 < text.length) (noSlash : '/' ∉ text.toList) :
    IsPiece text ∧ text ≠ ".." := by
  refine ⟨⟨?_, ?_, noSlash⟩, ?_⟩
  all_goals
    rintro rfl
    exact absurd long (by decide)

/-- More characters make another piece out of a piece. -/
theorem isPiece_append {text more : String} (piece : IsPiece text) (noSlash : '/' ∉ more.toList)
    (nonempty : more ≠ "") : IsPiece (text ++ more) ∧ text ++ more ≠ ".." := by
  have noSlash : '/' ∉ (text ++ more).toList := by
    simp [piece.noSlash, noSlash]
  have moreLength : 0 < more.length := Nat.pos_of_ne_zero fun zero => nonempty (by simpa using zero)
  have textLength : 0 < text.length := Nat.pos_of_ne_zero fun zero => piece.nonempty (by simpa using zero)
  by_cases long : 2 < (text ++ more).length
  · exact isPiece_of_long long noSlash
  · -- Only a single character before another one is left, and it is not a point.
    rw [String.length_append] at long
    have single : text.toList.length = 1 := by
      rw [String.length_toList]
      omega
    obtain ⟨c, chars⟩ := List.length_eq_one_iff.mp single
    have notPoint : c ≠ '.' := by
      rintro rfl
      exact piece.notPoint (by rw [← String.toList_inj, chars]; rfl)
    refine ⟨⟨?_, ?_, noSlash⟩, ?_⟩
    all_goals
      rw [ne_eq, ← String.toList_inj, String.toList_append, chars]
      simp [notPoint]

/-- Resolving leaves two points at most in front. -/
theorem points_not_mem_tail_resolved (path : String) : ".." ∉ (resolved (components path)).tail := by
  have noPoints : .name ".." ∉ components path := fun member => name_ne_points member rfl
  have plain := points_not_mem_course path
  have form : resolved (components path) = (course path).stack.reverse := resolved_eq_stack noPoints
  rw [form, Course.stack]
  split
  · simpa using plain
  · intro member
    exact plain (by simpa using List.mem_of_mem_tail member)

end CallAtlas.Path

namespace CallAtlas.Specifier

open CallAtlas.Path

/-! ## Endings of compiled files -/

/-- The paths in which the ending of a compiled file is swapped for those of its sources, for a path in normal
    form. -/
inductive Swaps : String → List String → Prop where
  | compiled {front : List String} {stem old : String} {news : List String} :
      (∀ t ∈ front ++ [stem ++ "." ++ old], IsPiece t) → stem ≠ "" → (old, news) ∈ extensionSwaps →
      Swaps (rooted (front ++ [stem ++ "." ++ old])) (news.map fun new => rooted (front ++ [stem ++ "." ++ new]))
  | other {names : List String} : (∀ t ∈ names, IsPiece t) →
      (∀ front stem old news, names = front ++ [stem ++ "." ++ old] → stem ≠ "" →
        (old, news) ∉ extensionSwaps) →
      Swaps (rooted names) []

theorem extensionSwaps_plain {old : String} {news : List String} (listed : (old, news) ∈ extensionSwaps) :
    old ≠ "" ∧ '.' ∉ old.toList ∧ extensionSwaps.find? (·.1 == old) = some (old, news) ∧
      ∀ new ∈ news, new ≠ "" ∧ '/' ∉ new.toList := by
  simp only [extensionSwaps, List.mem_cons, Prod.mk.injEq, List.not_mem_nil, or_false] at listed
  rcases listed with ⟨rfl, rfl⟩ | ⟨rfl, rfl⟩ | ⟨rfl, rfl⟩ | ⟨rfl, rfl⟩ <;> decide

theorem withExtension_append (front old new : String) : withExtension (front ++ old) old new = front ++ new := by
  unfold withExtension
  rw [← String.toList_inj]
  simp [← String.length_toList]

theorem length_ending {stem ending : String} (nonempty : stem ≠ "") (endingNonempty : ending ≠ "") :
    2 < (stem ++ "." ++ ending).length := by
  have stemLength : stem.length ≠ 0 := fun zero => nonempty (by simpa using zero)
  have endingLength : ending.length ≠ 0 := fun zero => endingNonempty (by simpa using zero)
  have point : ".".length = 1 := rfl
  rw [String.length_append, String.length_append, point]
  omega

theorem swapped_compiled {front : List String} {stem old : String} {news : List String}
    (arePieces : ∀ t ∈ front ++ [stem ++ "." ++ old], IsPiece t) (nonempty : stem ≠ "")
    (listed : (old, news) ∈ extensionSwaps) :
    swapped (rooted (front ++ [stem ++ "." ++ old])) =
      news.map fun new => rooted (front ++ [stem ++ "." ++ new]) := by
  obtain ⟨oldNonempty, noPoint, found, -⟩ := extensionSwaps_plain listed
  have plain : stem ++ "." ++ old ≠ ".." :=
    (isPiece_of_long (length_ending nonempty oldNonempty) (arePieces _ (by simp)).noSlash).2
  have ending := (splitName_eq_some_iff _ stem old).mpr ⟨rfl, noPoint, nonempty⟩
  obtain ⟨before, split⟩ := rooted_concat front
  unfold swapped
  rw [extension?_rooted_concat arePieces plain, ending]
  dsimp only
  rw [found]
  apply List.map_congr_left
  intro new _
  rw [split, split, ← String.append_assoc, withExtension_append, String.append_assoc]

theorem swapped_other {names : List String} (arePieces : ∀ t ∈ names, IsPiece t)
    (noneListed : ∀ front stem old news, names = front ++ [stem ++ "." ++ old] → stem ≠ "" →
      (old, news) ∉ extensionSwaps) : swapped (rooted names) = [] := by
  unfold swapped
  split
  · rename_i old hasEnding
    split
    · rename_i key news found
      exfalso
      obtain rfl : key = old := by simpa using List.find?_some found
      -- The ending is that of the last name, so that name is one that was excluded.
      obtain rfl | ⟨front, last, rfl⟩ := List.eq_nil_or_concat names
      · rw [extension?_rooted_nil] at hasEnding
        cases hasEnding
      · rw [List.concat_eq_append] at arePieces hasEnding
        by_cases points : last = ".."
        · subst points
          rw [extension?_rooted_points arePieces] at hasEnding
          cases hasEnding
        · rw [extension?_rooted_concat arePieces points] at hasEnding
          have split : splitName last = ((splitName last).1, some key) := by rw [← hasEnding]
          obtain ⟨isEnding, -, nonempty⟩ := (splitName_eq_some_iff _ _ _).mp split
          refine noneListed front _ key news ?_ nonempty (List.mem_of_find?_eq_some found)
          rw [List.concat_eq_append, ← isEnding]
    · rfl
  · rfl

theorem Swaps.eq_swapped {base : String} {paths : List String} (swaps : Swaps base paths) :
    paths = swapped base := by
  cases swaps with
  | compiled arePieces nonempty listed => exact (swapped_compiled arePieces nonempty listed).symm
  | other arePieces noneListed => exact (swapped_other arePieces noneListed).symm

theorem swaps_swapped {names : List String} (arePieces : ∀ t ∈ names, IsPiece t) :
    Swaps (rooted names) (swapped (rooted names)) := by
  by_cases isCompiled : ∃ front stem old news, names = front ++ [stem ++ "." ++ old] ∧ stem ≠ "" ∧
      (old, news) ∈ extensionSwaps
  · obtain ⟨front, stem, old, news, rfl, nonempty, listed⟩ := isCompiled
    rw [swapped_compiled arePieces nonempty listed]
    exact .compiled arePieces nonempty listed
  · have noneListed : ∀ front stem old news, names = front ++ [stem ++ "." ++ old] → stem ≠ "" →
        (old, news) ∉ extensionSwaps :=
      fun front stem old news named nonempty listed =>
        isCompiled ⟨front, stem, old, news, named, nonempty, listed⟩
    rw [swapped_other arePieces noneListed]
    exact .other arePieces noneListed

theorem Swaps.exists_last {base path : String} {paths : List String} (swaps : Swaps base paths)
    (member : path ∈ paths) :
    ∃ front old new, (∀ t ∈ front ++ [old], IsPiece t) ∧ IsPiece new ∧ new ≠ ".." ∧
      base = rooted (front ++ [old]) ∧ path = rooted (front ++ [new]) := by
  cases swaps with
  | other => cases member
  | @compiled front stem old news arePieces nonempty listed =>
    obtain ⟨new, newListed, rfl⟩ := List.mem_map.mp member
    obtain ⟨-, -, -, news⟩ := extensionSwaps_plain listed
    obtain ⟨newNonempty, newNoSlash⟩ := news new newListed
    have noSlash : '/' ∉ (stem ++ "." ++ new).toList := by
      have stemNoSlash := (arePieces (stem ++ "." ++ old) (by simp)).noSlash
      simp only [String.toList_append, List.mem_append, not_or] at stemNoSlash ⊢
      exact ⟨stemNoSlash.1, newNoSlash⟩
    obtain ⟨isPiece, plain⟩ := isPiece_of_long (length_ending nonempty newNonempty) noSlash
    exact ⟨front, _, _, arePieces, isPiece, plain, rfl, rfl⟩

/-! ## What stands behind a base -/

/-- A text that makes the last piece of a path longer, or adds a piece to it. -/
inductive IsSuffix : String → Prop where
  | ending {text : String} : IsPiece text → text ≠ ".." → IsSuffix text
  | piece {text : String} : IsPiece text → text ≠ ".." → IsSuffix ("/" ++ text)

theorem isSuffix_standard : ∀ s ∈ ResolutionConfig.standard.resolveSuffixes, IsSuffix s := by
  have split : ResolutionConfig.standard.resolveSuffixes = [".ts", ".tsx", ".js", ".jsx"] ++
      ["index.ts", "index.tsx", "index.js", "index.jsx"].map ("/" ++ ·) := by decide
  have endings : ∀ text ∈ [".ts", ".tsx", ".js", ".jsx"], 2 < text.length ∧ '/' ∉ text.toList := by decide
  have files : ∀ text ∈ ["index.ts", "index.tsx", "index.js", "index.jsx"],
      2 < text.length ∧ '/' ∉ text.toList := by decide
  rw [split]
  intro s member
  rcases List.mem_append.mp member with isEnding | isFile
  · obtain ⟨isPiece, plain⟩ := isPiece_of_long (endings s isEnding).1 (endings s isEnding).2
    exact .ending isPiece plain
  · obtain ⟨text, listed, rfl⟩ := List.mem_map.mp isFile
    obtain ⟨isPiece, plain⟩ := isPiece_of_long (files text listed).1 (files text listed).2
    exact .piece isPiece plain

theorem isPiece_of_mem_concat {names : List String} {last : String} (arePieces : ∀ t ∈ names, IsPiece t)
    (piece : IsPiece last) : ∀ t ∈ names ++ [last], IsPiece t := by
  intro t member
  rcases List.mem_append.mp member with inside | isLast
  · exact arePieces t inside
  · exact List.mem_singleton.mp isLast ▸ piece

theorem components_rooted_append_piece {names : List String} {text : String}
    (arePieces : ∀ t ∈ names, IsPiece t) (piece : IsPiece text) :
    components (rooted names ++ ("/" ++ text)) = .root :: (names ++ [text]).map Component.ofText := by
  cases names with
  | nil =>
    -- Two slashes stand in front, with nothing between them.
    have cut : Text.splitAt (· = '/') (rooted [] ++ ("/" ++ text)).toList = [[], [], text.toList] := by
      have single := splitAt_piece piece
      simp only [Text.splitAt] at single
      simp [rooted, Text.splitAt, Text.splitFrom, single]
    have absolute : isAbsolute (rooted [] ++ ("/" ++ text)) = true := by simp [isAbsolute, rooted]
    simp only [components, absolute, cut, if_true]
    rw [List.filterMap_cons_none rfl, List.filterMap_cons_none rfl,
      List.filterMap_cons_some (Component.ofPiece_of_isPiece piece)]
    rfl
  | cons first rest =>
    rw [← components_rooted (isPiece_of_mem_concat arePieces piece)]
    congr 1
    rw [rooted, rooted, String.intercalate_append_of_ne_nil (by simp) (by simp), String.intercalate_singleton]
    simp only [String.append_assoc]

/-- What is tried for a path keeps its pieces but for the last one, or all of them, and adds at most one. -/
theorem exists_names_of_mem_candidatesAt {suffixes names : List String} {path : String}
    (areSuffixes : ∀ s ∈ suffixes, IsSuffix s) (arePieces : ∀ t ∈ names, IsPiece t)
    (tried : path ∈ candidatesAt suffixes (rooted names)) :
    ∃ kept added, kept <+: names ∧ (∀ t ∈ added, IsPiece t ∧ t ≠ "..") ∧ isAbsolute path = true ∧
      components path = .root :: (kept ++ added).map Component.ofText := by
  have single {text : String} (isPiece : IsPiece text) (plain : text ≠ "..") :
      ∀ t ∈ [text], IsPiece t ∧ t ≠ ".." := by simp [isPiece, plain]
  simp only [candidatesAt, List.cons_append, List.mem_cons, List.mem_append, List.mem_map] at tried
  rcases tried with rfl | isSwapped | ⟨s, listed, rfl⟩
  · exact ⟨names, [], List.prefix_refl _, by simp, by simp, by simp [components_rooted arePieces]⟩
  · obtain ⟨front, old, new, oldPieces, isPiece, plain, same, rfl⟩ :=
      (swaps_swapped arePieces).exists_last isSwapped
    obtain rfl := rooted_injective arePieces oldPieces same
    have frontPieces : ∀ t ∈ front, IsPiece t := fun t member => arePieces t (List.mem_append_left _ member)
    exact ⟨front, [new], List.prefix_append _ _, single isPiece plain, by simp,
      components_rooted (isPiece_of_mem_concat frontPieces isPiece)⟩
  · have absolute : isAbsolute (rooted names ++ s) = true := by simp [isAbsolute, rooted]
    cases areSuffixes s listed with
    | piece isPiece plain =>
      exact ⟨names, _, List.prefix_refl _, single isPiece plain, absolute,
        components_rooted_append_piece arePieces isPiece⟩
    | ending isPiece plain =>
      -- The ending goes to the last piece; at the top there is none, and it becomes a piece itself.
      obtain rfl | ⟨front, last, rfl⟩ := List.eq_nil_or_concat names
      · have path : rooted [] ++ s = rooted [s] := by simp [rooted]
        exact ⟨[], [s], List.prefix_refl _, single isPiece plain, absolute,
          path ▸ components_rooted (by simpa using isPiece)⟩
      · rw [List.concat_eq_append] at *
        obtain ⟨before, split⟩ := rooted_concat front
        have path : rooted (front ++ [last]) ++ s = rooted (front ++ [last ++ s]) := by
          rw [split, split, String.append_assoc]
        obtain ⟨longerPiece, longerPlain⟩ := isPiece_append (arePieces last (by simp)) isPiece.noSlash
          isPiece.nonempty
        have frontPieces : ∀ t ∈ front, IsPiece t :=
          fun t member => arePieces t (List.mem_append_left _ member)
        exact ⟨front, [last ++ s], List.prefix_append _ _, single longerPiece longerPlain, absolute,
          path ▸ components_rooted (isPiece_of_mem_concat frontPieces longerPiece)⟩

/-! ## Nothing is left to resolve -/

section

variable {suffixes : List String} {joined path : String}

/-- The paths that are tried are absolute, and denote what their normal forms denote. -/
theorem samePath_normalize (areSuffixes : ∀ s ∈ suffixes, IsSuffix s) (absolute : isAbsolute joined = true)
    (tried : path ∈ candidatesAt suffixes (normalize joined)) :
    isAbsolute path = true ∧ samePath (normalize path) path = true := by
  rw [normalize_of_isAbsolute absolute] at tried
  obtain ⟨kept, added, isPrefix, addedPlain, pathAbsolute, read⟩ :=
    exists_names_of_mem_candidatesAt areSuffixes (fun _ => isPiece_of_mem_resolved) tried
  -- A base that climbs above the top may keep one step up as its first piece; only the others are free of it.
  have settled : ".." ∉ (kept ++ added).tail := by
    have addedFree : ".." ∉ added := fun member => (addedPlain _ member).2 rfl
    cases kept with
    | nil => exact fun member => addedFree (List.mem_of_mem_tail member)
    | cons first rest =>
      obtain ⟨more, whole⟩ := isPrefix
      have free := points_not_mem_tail_resolved joined
      rw [← whole] at free
      simp only [List.cons_append, List.tail_cons, List.mem_append, not_or] at free ⊢
      exact ⟨free.1, addedFree⟩
  have names : resolved (components path) = kept ++ added := by
    rw [read]
    exact resolved_map_ofText settled
  refine ⟨pathAbsolute, ?_⟩
  rw [samePath, beq_iff_eq, normalize_of_isAbsolute pathAbsolute,
    components_rooted (fun _ => isPiece_of_mem_resolved), names, read]

/-- A path that is tried climbs above the top only if the base did. -/
theorem staysInside_tried (areSuffixes : ∀ s ∈ suffixes, IsSuffix s) (absolute : isAbsolute joined = true)
    (inside : staysInside 0 (components joined) = true)
    (tried : path ∈ candidatesAt suffixes (normalize joined)) : staysInside 0 (components path) = true := by
  rw [normalize_of_isAbsolute absolute] at tried
  obtain ⟨kept, added, isPrefix, addedPlain, -, read⟩ :=
    exists_names_of_mem_candidatesAt areSuffixes (fun _ => isPiece_of_mem_resolved) tried
  rw [read]
  refine staysInside_map_ofText ?_ 0
  rintro member
  rcases List.mem_append.mp member with inKept | inAdded
  · exact points_not_mem_resolved inside (isPrefix.subset inKept)
  · exact (addedPlain _ inAdded).2 rfl

end

end CallAtlas.Specifier
