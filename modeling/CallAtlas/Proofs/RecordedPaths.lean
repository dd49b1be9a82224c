import CallAtlas.Graph.Facts
import CallAtlas.Proofs.Ancestors
import CallAtlas.Proofs.FileWrites
import CallAtlas.Proofs.ShownPaths
import CallAtlas.Staleness.Check

/-!
# Recorded paths

What is recorded for a file is its path within the project, or its whole path if it lies elsewhere.  Where
the path is text and no backslash is involved nothing is lost: the whole path is found again
(`recordedPath_relativePath`), and different paths are recorded differently (`relativePath_injective`).
A path that never climbs above the top leads, if anywhere, to the location that is spelled out in its normal
form (`locate_rooted`), so that different paths lead to different files.
-/

namespace CallAtlas

open CallAtlas.Path

/-! ## Pieces of recorded paths -/

theorem not_mem_join {base path : String} {c : Char} (baseFree : c ∉ base.toList)
    (pathFree : c ∉ path.toList) (noSlash : c ≠ '/') : c ∉ (join base path).toList := by
  unfold join
  split
  · exact pathFree
  · split <;> simp [baseFree, pathFree, noSlash]

theorem slashed_of_free {path : String} (free : '\\' ∉ path.toList) :
    String.ofList (path.toList.map fun c => if c = '\\' then '/' else c) = path := by
  have same : path.toList.map (fun c => if c = '\\' then '/' else c) = path.toList := by
    conv => rhs; rw [← List.map_id path.toList]
    refine List.map_congr_left fun c member => if_neg ?_
    rintro rfl
    exact free member
  rw [same, String.ofList_toList]

/-- The path is recorded as it is: it is text, and no backslash is turned into a slash. -/
structure IsPlain (path : String) : Prop where
  noBackslash : '\\' ∉ path.toList
  isText : isText path = true

theorem recorded_of_isPlain {path : String} (plain : IsPlain path) :
    String.ofList ((shown path).toList.map fun c => if c = '\\' then '/' else c) = path := by
  rw [shown_of_isText plain.isText, slashed_of_free plain.noBackslash]

theorem IsPlain.intercalate {pieces : List String} (plain : ∀ t ∈ pieces, IsPlain t) :
    IsPlain ("/".intercalate pieces) where
  noBackslash := not_mem_intercalate (by decide) fun t member => (plain t member).noBackslash
  isText := (isText_iff _).mpr
    (not_mem_intercalate (by decide) fun t member => (isText_iff t).mp (plain t member).isText)

theorem IsPlain.rooted {pieces : List String} (plain : ∀ t ∈ pieces, IsPlain t) :
    IsPlain (rooted pieces) := by
  have below := IsPlain.intercalate plain
  refine ⟨?_, (isText_iff _).mpr ?_⟩
  · simpa [Path.rooted] using below.noBackslash
  · simpa [Path.rooted, byteMark] using (isText_iff _).mp below.isText

section

variable {base xs ys : List String}

theorem rooted_injective (xsArePieces : ∀ t ∈ xs, IsPiece t) (ysArePieces : ∀ t ∈ ys, IsPiece t)
    (same : rooted xs = rooted ys) : xs = ys := by
  have read := congrArg components same
  rw [components_rooted xsArePieces, components_rooted ysArePieces, List.cons.injEq] at read
  exact map_ofText_injective read.2

theorem intercalate_injective (xsArePieces : ∀ t ∈ xs, IsPiece t) (ysArePieces : ∀ t ∈ ys, IsPiece t)
    (same : "/".intercalate xs = "/".intercalate ys) : xs = ys := by
  have read := congrArg components same
  rw [components_relative xsArePieces, components_relative ysArePieces] at read
  exact map_ofText_injective read

/-- What is recorded for a plain path is the path as it is seen from the root, or the path itself. -/
theorem relativePath_eq_getD (baseArePieces : ∀ t ∈ base, IsPiece t) (arePieces : ∀ t ∈ xs, IsPiece t)
    (plain : ∀ t ∈ xs, IsPlain t) :
    relativePath (rooted base) (rooted xs) =
      (stripPrefix? (rooted base) (rooted xs)).getD (rooted xs) := by
  apply recorded_of_isPlain
  cases stripped : stripPrefix? (rooted base) (rooted xs) with
  | none => exact .rooted plain
  | some relative =>
    obtain ⟨rest, rfl, rfl⟩ := stripPrefix_rooted baseArePieces arePieces stripped
    exact .intercalate fun t member => plain t (List.mem_append_right base member)

theorem relativePath_rooted (baseArePieces : ∀ t ∈ base, IsPiece t) (arePieces : ∀ t ∈ xs, IsPiece t)
    (plain : ∀ t ∈ xs, IsPlain t) :
    (∃ rest, xs = base ++ rest ∧ relativePath (rooted base) (rooted xs) = "/".intercalate rest) ∨
      relativePath (rooted base) (rooted xs) = rooted xs := by
  rw [relativePath_eq_getD baseArePieces arePieces plain]
  cases stripped : stripPrefix? (rooted base) (rooted xs) with
  | none => exact .inr rfl
  | some relative =>
    obtain ⟨rest, rfl, rfl⟩ := stripPrefix_rooted baseArePieces arePieces stripped
    exact .inl ⟨rest, rfl, rfl⟩

theorem eq_of_relativePath_eq (baseArePieces : ∀ t ∈ base, IsPiece t)
    (xsArePieces : ∀ t ∈ xs, IsPiece t) (ysArePieces : ∀ t ∈ ys, IsPiece t)
    (xsPlain : ∀ t ∈ xs, IsPlain t) (ysPlain : ∀ t ∈ ys, IsPlain t)
    (same : relativePath (rooted base) (rooted xs) = relativePath (rooted base) (rooted ys)) :
    xs = ys := by
  have inside {rest : List String} (arePieces : ∀ t ∈ base ++ rest, IsPiece t) :
      ∀ t ∈ rest, IsPiece t :=
    fun t member => arePieces t (List.mem_append_right base member)
  rcases relativePath_rooted baseArePieces xsArePieces xsPlain with ⟨rest, rfl, xForm⟩ | xForm
  · rcases relativePath_rooted baseArePieces ysArePieces ysPlain with ⟨others, rfl, yForm⟩ | yForm
    · rw [xForm, yForm] at same
      rw [intercalate_injective (inside xsArePieces) (inside ysArePieces) same]
    · -- Inside of the project the recorded path is relative, elsewhere it is absolute.
      have absolute := isAbsolute_intercalate (inside xsArePieces)
      rw [← xForm, same, yForm, isAbsolute_rooted] at absolute
      cases absolute
  · rcases relativePath_rooted baseArePieces ysArePieces ysPlain with ⟨others, rfl, yForm⟩ | yForm
    · have absolute := isAbsolute_intercalate (inside ysArePieces)
      rw [← yForm, ← same, xForm, isAbsolute_rooted] at absolute
      cases absolute
    · rw [xForm, yForm] at same
      exact rooted_injective xsArePieces ysArePieces same

/-- A plain path, other than the root, is found again under what was recorded for it, if it leads
    somewhere. -/
theorem recordedPath_of_pieces {tree : FileTree} (prefixes : List String)
    (baseArePieces : ∀ t ∈ base, IsPiece t) (arePieces : ∀ t ∈ xs, IsPiece t)
    (plain : ∀ t ∈ xs, IsPlain t) (notRoot : xs ≠ base)
    (present : tree.contains (rooted xs) = true) :
    recordedPath tree (rooted base) prefixes (relativePath (rooted base) (rooted xs)) = rooted xs := by
  rcases relativePath_rooted baseArePieces arePieces plain with ⟨rest, rfl, form⟩ | form
  · have restArePieces : ∀ t ∈ rest, IsPiece t :=
      fun t member => arePieces t (List.mem_append_right base member)
    have nonempty : rest ≠ [] := by
      rintro rfl
      exact notRoot (List.append_nil base)
    rw [form, recordedPath, isAbsolute_intercalate restArePieces, Bool.not_false, if_pos rfl,
      join_rooted baseArePieces restArePieces nonempty]
  · rw [form]
    simp [recordedPath, present]

end

/-! ## Listed files -/

theorem wholePath_eq_rooted {root : String} (absolute : isAbsolute root = true) (file : String) :
    wholePath root file = rooted (resolved (components (join root file))) :=
  normalize_of_isAbsolute (isAbsolute_join absolute)

theorem rooted_resolved {root : String} (absolute : isAbsolute root = true)
    (normal : normalize root = root) : rooted (resolved (components root)) = root := by
  rw [← normalize_of_isAbsolute absolute, normal]

theorem not_mem_piece {root file : String} {c : Char} (noSlash : c ≠ '/') (noPoint : c ≠ '.')
    (rootFree : c ∉ root.toList) (fileFree : c ∉ file.toList) :
    ∀ t ∈ resolved (components (join root file)), c ∉ t.toList := by
  intro t member inText
  rcases mem_resolved member with rfl | ⟨-, fromPath⟩
  · simp [noPoint] at inText
  · exact not_mem_join rootFree fileFree noSlash (fromPath _ inText)

theorem isPlain_piece {root file : String} (rootPlain : IsPlain root) (filePlain : IsPlain file) :
    ∀ t ∈ resolved (components (join root file)), IsPlain t := by
  intro t member
  refine ⟨?_, (isText_iff t).mpr ?_⟩
  · exact not_mem_piece (by decide) (by decide) rootPlain.noBackslash filePlain.noBackslash t member
  · exact not_mem_piece (by decide) (by decide) ((isText_iff root).mp rootPlain.isText)
      ((isText_iff file).mp filePlain.isText) t member

theorem relativePath_wholePath {root file : String} (absolute : isAbsolute root = true)
    (normal : normalize root = root) (rootPlain : IsPlain root) (filePlain : IsPlain file) :
    relativePath root (wholePath root file) =
      (stripPrefix? root (wholePath root file)).getD (wholePath root file) := by
  have rootPieces : ∀ t ∈ resolved (components root), IsPiece t := fun _ => isPiece_of_mem_resolved
  have recorded := relativePath_eq_getD rootPieces (fun _ => isPiece_of_mem_resolved)
    (isPlain_piece rootPlain filePlain)
  rwa [rooted_resolved absolute normal, ← wholePath_eq_rooted absolute] at recorded

theorem recordedPath_relativePath {tree : FileTree} {root file : String} (prefixes : List String)
    (absolute : isAbsolute root = true) (normal : normalize root = root)
    (rootPlain : IsPlain root) (filePlain : IsPlain file)
    (notRoot : wholePath root file ≠ root)
    (present : tree.contains (wholePath root file) = true) :
    recordedPath tree root prefixes (relativePath root (wholePath root file)) = wholePath root file := by
  have rootForm := rooted_resolved absolute normal
  have pathForm := wholePath_eq_rooted absolute file
  have different : resolved (components (join root file)) ≠ resolved (components root) := by
    intro same
    exact notRoot (pathForm.trans (same ▸ rootForm))
  rw [pathForm] at present ⊢
  have found := recordedPath_of_pieces prefixes (fun _ => isPiece_of_mem_resolved)
    (fun _ => isPiece_of_mem_resolved) (isPlain_piece rootPlain filePlain) different present
  rwa [rootForm] at found

/-- Different listed files are recorded differently. -/
theorem relativePath_injective {root file other : String} (absolute : isAbsolute root = true)
    (normal : normalize root = root) (rootPlain : IsPlain root) (filePlain : IsPlain file)
    (otherPlain : IsPlain other)
    (same : relativePath root (wholePath root file) = relativePath root (wholePath root other)) :
    wholePath root file = wholePath root other := by
  have rootForm := rooted_resolved absolute normal
  rw [wholePath_eq_rooted absolute, wholePath_eq_rooted absolute] at same ⊢
  have rootPieces : ∀ t ∈ resolved (components root), IsPiece t := fun _ => isPiece_of_mem_resolved
  congr 1
  apply eq_of_relativePath_eq rootPieces (fun _ => isPiece_of_mem_resolved)
    (fun _ => isPiece_of_mem_resolved) (isPlain_piece rootPlain filePlain)
    (isPlain_piece rootPlain otherPlain)
  rw [rootForm, same]

/-! ## Where a path leads -/

/-- Going along the components from a directory at the given depth never leads above the top. -/
def staysInside : Nat → List Component → Bool
  | _, [] => true
  | depth, .root :: rest | depth, .current :: rest => staysInside depth rest
  | 0, .parent :: _ => false
  | depth + 1, .parent :: rest => staysInside depth rest
  | depth, .name _ :: rest => staysInside (depth + 1) rest

theorem staysInside_map_ofText {names : List String} (plain : ".." ∉ names) (depth : Nat) :
    staysInside depth (names.map Component.ofText) = true := by
  induction names generalizing depth with
  | nil => simp [staysInside]
  | cons first rest inductionHypothesis =>
    simp only [List.mem_cons, not_or] at plain
    simp [Component.ofText, Ne.symm plain.1, staysInside, inductionHypothesis plain.2]

/-- As long as there is a name to take back, no two points are left. -/
theorem points_not_mem_foldl {cs : List Component} {stack : Stack}
    (inside : staysInside stack.length cs = true) (names : ∀ t, .name t ∈ cs → t ≠ "..")
    (plain : ".." ∉ stack) : ".." ∉ cs.foldl resolveStep stack := by
  -- The depth that is counted is the height of the stack, so two points always find something there.
  induction cs generalizing stack with
  | nil => exact plain
  | cons c cs inductionHypothesis =>
    have restNames : ∀ t, .name t ∈ cs → t ≠ ".." :=
      fun t member => names t (List.mem_cons_of_mem c member)
    cases c with
    | root | current => exact inductionHypothesis inside restNames plain
    | parent =>
      cases stack with
      | nil => cases inside
      | cons top below =>
        exact inductionHypothesis inside restNames fun member => plain (List.mem_cons_of_mem top member)
    | name text =>
      refine inductionHypothesis inside restNames ?_
      intro member
      rcases List.mem_cons.mp member with isName | below
      · exact names text List.mem_cons_self isName.symm
      · exact plain below

theorem points_not_mem_resolved {path : String} (inside : staysInside 0 (components path) = true) :
    ".." ∉ resolved (components path) := by
  have plain : ".." ∉ (components path).foldl resolveStep [] :=
    points_not_mem_foldl inside (fun _ => name_ne_points) List.not_mem_nil
  simpa [resolved] using plain

namespace FileTree

/-- What following one piece does: it stays, goes up, or goes down to a name. -/
theorem follow_cases {tree : FileTree} {l next : Location} {piece : List Char}
    (followed : tree.follow l (String.ofList piece) = .ok next) :
    (Component.ofPiece piece = none ∧ next = l) ∨
      (Component.ofPiece piece = some .parent ∧ next = l.dropLast) ∨
      ∃ text, Component.ofPiece piece = some (.name text) ∧ next = l ++ [text] := by
  unfold follow at followed
  split at followed
  · cases followed
  · cases followed
  · cases followed
  · unfold Component.ofPiece
    split
    · cases followed
      exact .inl ⟨rfl, rfl⟩
    · cases followed
      exact .inl ⟨rfl, rfl⟩
    · cases followed
      exact .inr (.inl ⟨rfl, rfl⟩)
    · rename_i notEmpty notPoint notPoints
      have texts : String.ofList piece ≠ "" ∧ String.ofList piece ≠ "." ∧ String.ofList piece ≠ ".." := by
        simp only [ne_eq, ← String.toList_inj, String.toList_ofList]
        exact ⟨notEmpty, notPoint, notPoints⟩
      simp only [texts, decide_false, Bool.or_self, Bool.false_eq_true, if_false] at followed
      split at followed
      · cases followed
        exact .inr (.inr ⟨_, rfl, rfl⟩)
      · cases followed

theorem foldlM_follow_resolved {tree : FileTree} {pieces : List (List Char)} {l l' : Location}
    (inside : staysInside l.length (pieces.filterMap Component.ofPiece) = true)
    (followed : (pieces.map String.ofList).foldlM tree.follow l = .ok l') :
    l' = ((pieces.filterMap Component.ofPiece).foldl resolveStep l.reverse).reverse := by
  -- The location is the stack that resolving has reached, read from its bottom.
  induction pieces generalizing l with
  | nil =>
    cases followed
    simp
  | cons piece pieces inductionHypothesis =>
    rw [List.map_cons, List.foldlM_cons] at followed
    cases step : tree.follow l (String.ofList piece) with
    | error e =>
      rw [step] at followed
      cases followed
    | ok next =>
      rw [step] at followed
      rcases follow_cases step with ⟨nothing, rfl⟩ | ⟨up, rfl⟩ | ⟨text, down, rfl⟩
      · rw [List.filterMap_cons_none nothing] at inside ⊢
        exact inductionHypothesis inside followed
      · rw [List.filterMap_cons_some up] at inside ⊢
        obtain rfl | ⟨front, last, rfl⟩ := List.eq_nil_or_concat l
        · cases inside
        · simp only [List.concat_eq_append, List.length_append, List.length_singleton] at inside
          simp only [List.concat_eq_append, List.dropLast_concat] at followed
          simpa [resolveStep] using inductionHypothesis inside followed
      · rw [List.filterMap_cons_some down] at inside ⊢
        simpa [resolveStep] using inductionHypothesis (by simpa [staysInside] using inside) followed

/-- A path that never climbs above the top leads, if anywhere, to the location that is left when its points are
    resolved. -/
theorem locate_eq_resolved {tree : FileTree} {path : String} {l : Location}
    (inside : staysInside 0 (components path) = true) (found : tree.locate path = .ok l) :
    l = resolved (components path) := by
  unfold locate at found
  split at found
  · cases found
  · -- The root or the point in front of the other components changes nothing.
    have bare : resolved (components path) =
          resolved ((Text.splitAt (· = '/') path.toList).filterMap Component.ofPiece) ∧
        staysInside 0 (components path) =
          staysInside 0 ((Text.splitAt (· = '/') path.toList).filterMap Component.ofPiece) := by
      unfold components
      dsimp only
      split
      · exact ⟨rfl, rfl⟩
      · split <;> exact ⟨rfl, rfl⟩
    rw [bare.2] at inside
    rw [bare.1]
    exact foldlM_follow_resolved (show staysInside ([] : Location).length _ = true from inside) found

theorem pieces_rooted {names : List String} (arePieces : ∀ t ∈ names, IsPiece t) (nonempty : names ≠ []) :
    pieces (rooted names) = "" :: names := by
  have cut : pieces (rooted names) = "" :: pieces ("/".intercalate names) := by
    simp [pieces, rooted, Text.splitAt, Text.splitFrom]
  rw [cut, pieces_intercalate (fun t member => (arePieces t member).noSlash) nonempty]

/-- A path in normal form without points leads, if anywhere, to the location that it spells. -/
theorem locate_rooted {tree : FileTree} {names : List String} {l : Location}
    (arePieces : ∀ t ∈ names, IsPiece t) (plain : ".." ∉ names)
    (found : tree.locate (rooted names) = .ok l) : l = names := by
  have read := components_rooted arePieces
  have inside : staysInside 0 (components (rooted names)) = true := by
    rw [read]
    exact staysInside_map_ofText plain 0
  rw [locate_eq_resolved inside found, read]
  exact resolved_map_ofText fun member => plain (List.mem_of_mem_tail member)

end FileTree

/-- Listed files that lead to the same location have the same path, if they stay inside. -/
theorem wholePath_eq_of_locate_eq {tree : FileTree} {root file other : String} {l : Location}
    (absolute : isAbsolute root = true)
    (inside : staysInside 0 (components (join root file)) = true)
    (otherInside : staysInside 0 (components (join root other)) = true)
    (found : tree.locate (wholePath root file) = .ok l)
    (otherFound : tree.locate (wholePath root other) = .ok l) :
    wholePath root file = wholePath root other := by
  rw [wholePath_eq_rooted absolute] at found otherFound ⊢
  rw [wholePath_eq_rooted absolute other]
  rw [← FileTree.locate_rooted (fun _ => isPiece_of_mem_resolved) (points_not_mem_resolved inside) found,
    ← FileTree.locate_rooted (fun _ => isPiece_of_mem_resolved) (points_not_mem_resolved otherInside)
      otherFound]

end CallAtlas
