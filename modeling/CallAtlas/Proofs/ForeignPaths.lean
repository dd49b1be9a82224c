import CallAtlas.Proofs.RecordedPaths
import Mathlib.Data.List.TakeWhile

/-!
# Paths from another machine

A snapshot that was made elsewhere has whole paths that lead nowhere here.  Such a path is taken up at the
first of the known directories of a project that occurs in it, where the order in which the directories
are known goes before their places in the path.  So the path within the project is found again if and only
if it starts with that directory (`recordedPath_foreign`); a directory inside it that is known earlier
takes away everything in front of it (`recordedPath_nested`).
-/

namespace CallAtlas

open CallAtlas.Path CallAtlas.Text

/-- The path with slashes only. -/
def slashed (path : String) : String :=
  String.ofList (path.toList.map fun c => if c = '\\' then '/' else c)

/-- What stands in front of the first slash. -/
def firstName (path : String) : String := String.ofList (path.toList.takeWhile (· ≠ '/'))

/-- The beginning of paths that lead through a directory with a name. -/
structure EntersDirectory (start : String) : Prop where
  named : IsPiece (firstName start)
  slash : '/' ∈ start.toList
  noBackslash : '\\' ∉ start.toList

/-- At some component of the path `start` begins, and `rest` is the path from the first such component
    on. -/
def FirstAt (start path rest : String) : Prop :=
  ∃ front, '/' :: path.toList = front ++ '/' :: rest.toList ∧ start.toList <+: rest.toList ∧
    ∀ front' rest', '/' :: path.toList = front' ++ '/' :: rest' → start.toList <+: rest' →
      front.length ≤ front'.length

/-- The first of the beginnings that occurs at a component of the path is `start`, and `rest` is the path
    from there on. -/
def FirstPrefix (starts : List String) (path start rest : String) : Prop :=
  ∃ before after, starts = before ++ start :: after ∧ FirstAt start path rest ∧
    ∀ other ∈ before, ∀ otherRest, ¬ FirstAt other path otherRest

/-! ## Searching for the beginning -/

theorem fromPrefix?_cons (start : List Char) (c : Char) (cs : List Char) :
    fromPrefix? start (c :: cs) = if c = '/' ∧ start <+: cs then some cs else fromPrefix? start cs := by
  simp only [fromPrefix?, Bool.and_eq_true, decide_eq_true_eq, stripPrefix?_isSome_iff]

/-- The search finds the first slash with the beginning behind it. -/
theorem fromPrefix?_eq_some_iff (start cs rest : List Char) :
    fromPrefix? start cs = some rest ↔
      ∃ front, cs = front ++ '/' :: rest ∧ start <+: rest ∧
        ∀ front' rest', cs = front' ++ '/' :: rest' → start <+: rest' → front.length ≤ front'.length := by
  induction cs generalizing rest with
  | nil => simp [fromPrefix?]
  | cons c cs inductionHypothesis =>
    rw [fromPrefix?_cons]
    split
    · rename_i here
      obtain ⟨rfl, begins⟩ := here
      rw [Option.some.injEq]
      constructor
      · rintro rfl
        exact ⟨[], rfl, begins, fun _ _ _ _ => Nat.zero_le _⟩
      · rintro ⟨front, split, -, least⟩
        have none : front = [] := List.length_eq_zero_iff.mp (Nat.le_zero.mp (least [] cs rfl begins))
        simpa [none] using split
    · rename_i notHere
      rw [inductionHypothesis]
      -- The slash that is looked for is not the first character, so it is one of the others.
      constructor
      · rintro ⟨front, rfl, begins, least⟩
        refine ⟨c :: front, rfl, begins, ?_⟩
        rintro (_ | ⟨d, front'⟩) rest' split begins'
        · obtain ⟨rfl, rfl⟩ := List.cons.inj split
          exact absurd ⟨rfl, begins'⟩ notHere
        · exact Nat.succ_le_succ (least front' rest' (List.cons.inj split).2 begins')
      · rintro ⟨_ | ⟨d, front⟩, split, begins, least⟩
        · obtain ⟨rfl, rfl⟩ := List.cons.inj split
          exact absurd ⟨rfl, begins⟩ notHere
        · refine ⟨front, (List.cons.inj split).2, begins, ?_⟩
          intro front' rest' split' begins'
          exact Nat.le_of_succ_le_succ (least (c :: front') rest' (by rw [split']; rfl) begins')

theorem firstAt_iff (start path rest : String) :
    FirstAt start path rest ↔ fromPrefix? start.toList ('/' :: path.toList) = some rest.toList := by
  rw [fromPrefix?_eq_some_iff, FirstAt]

theorem findSome_fromPrefix?_iff (starts : List String) (path rest : String) :
    starts.findSome? (fun p => fromPrefix? p.toList ('/' :: path.toList)) = some rest.toList ↔
      ∃ start, FirstPrefix starts path start rest := by
  rw [List.findSome?_eq_some_iff]
  have nowhere : ∀ p : String, fromPrefix? p.toList ('/' :: path.toList) = none ↔
      ∀ otherRest, ¬ FirstAt p path otherRest := by
    intro p
    rw [Option.eq_none_iff_forall_ne_some]
    constructor
    · intro lost otherRest first
      exact lost _ ((firstAt_iff p path otherRest).mp first)
    · intro lost cs found
      refine lost (String.ofList cs) ((firstAt_iff p path _).mpr ?_)
      rw [found, String.toList_ofList]
  simp only [nowhere, ← firstAt_iff]
  constructor
  · rintro ⟨before, start, after, listed, first, lost⟩
    exact ⟨start, before, after, listed, first, lost⟩
  · rintro ⟨start, before, after, listed, first, lost⟩
    exact ⟨before, start, after, listed, first, lost⟩

/-! ## Components in front -/

theorem head_splitFrom (p : Char → Bool) (acc cs : List Char) :
    (splitFrom p acc cs).head? = some (acc.reverse ++ cs.takeWhile fun c => !p c) := by
  induction cs generalizing acc with
  | nil => simp [splitFrom]
  | cons c cs inductionHypothesis =>
    rw [splitFrom]
    by_cases separates : p c = true
    · simp [separates]
    · simp [separates, inductionHypothesis]

theorem ofText_mem_components {path name : String} (piece : IsPiece name) {before after : List Char}
    (split : path.toList = before ++ '/' :: after)
    (stands : after.takeWhile (· ≠ '/') = name.toList) :
    Component.ofText name ∈ components path := by
  refine List.mem_append_right _ (List.mem_filterMap.mpr ⟨name.toList, ?_, ?_⟩)
  · rw [splitAt, split, splitFrom_append (by simp), ← stands]
    refine List.mem_append_right _ (List.mem_of_mem_head? ?_)
    simp [head_splitFrom]
  · exact Component.ofPiece_of_isPiece piece

theorem takeWhile_append_slash (cs rest : List Char) :
    (cs ++ '/' :: rest).takeWhile (· ≠ '/') = cs.takeWhile (· ≠ '/') := by
  rw [List.takeWhile_append]
  split
  · rename_i whole
    rw [List.takeWhile_cons, if_neg (by simp), List.append_nil, (List.takeWhile_prefix _).eq_of_length whole]
  · rfl

/-- A path starts with the first name of every beginning that it has. -/
theorem EntersDirectory.takeWhile_eq {start : String} (enters : EntersDirectory start) {cs : List Char}
    (begins : start.toList <+: cs) : cs.takeWhile (· ≠ '/') = (firstName start).toList := by
  obtain ⟨more, rfl⟩ := begins
  have stops : ¬ ∀ c ∈ start.toList, decide (c ≠ '/') = true := by
    intro all
    simpa using all '/' enters.slash
  rw [List.takeWhile_append, if_neg, firstName, String.toList_ofList]
  intro whole
  exact stops (List.takeWhile_eq_self_iff.mp ((List.takeWhile_prefix _).eq_of_length whole))

theorem EntersDirectory.isAbsolute_eq_false {start path : String} (enters : EntersDirectory start)
    (begins : start.toList <+: path.toList) : isAbsolute path = false := by
  have first := enters.takeWhile_eq begins
  have named : (firstName start).toList ≠ [] := by
    intro empty
    exact enters.named.nonempty (by simpa using empty)
  unfold isAbsolute
  cases shape : path.toList with
  | nil => rfl
  | cons c cs =>
    rw [shape] at first
    have notSlash : c ≠ '/' := by
      rintro rfl
      exact named (by simpa using first.symm)
    simpa using notSlash

/-! ## Joining paths -/

theorem join_inj {root path other : String} (relative : isAbsolute path = false)
    (otherRelative : isAbsolute other = false) : join root path = join root other ↔ path = other := by
  unfold join
  rw [relative, otherRelative]
  simp only [Bool.false_eq_true, ↓reduceIte]
  split
  · exact String.append_right_inj root
  · exact String.append_right_inj (root ++ "/")

theorem not_mem_slashed (path : String) : '\\' ∉ (slashed path).toList := by
  rw [slashed, String.toList_ofList, List.mem_map]
  rintro ⟨c, -, changed⟩
  split at changed
  · cases changed
  · contradiction

theorem prefix_slashed {start path : String} (free : '\\' ∉ start.toList)
    (begins : start.toList <+: path.toList) : start.toList <+: (slashed path).toList := by
  obtain ⟨more, split⟩ := begins
  refine ⟨more.map fun c => if c = '\\' then '/' else c, ?_⟩
  have same : start.toList.map (fun c => if c = '\\' then '/' else c) = start.toList := by
    simpa using congrArg String.toList (slashed_of_free free)
  rw [slashed, String.toList_ofList, ← split, List.map_append, same]

/-! ## Taking a path up again -/

section

variable {starts : List String} {foreign path : String}

/-- No beginning is found in front of the path within the project. -/
theorem fromPrefix?_join {start : String} (enters : EntersDirectory start)
    (absolute : isAbsolute foreign = true) (relative : isAbsolute path = false)
    (apart : Component.ofText (firstName start) ∉ components (slashed foreign)) :
    fromPrefix? start.toList (slashed (join foreign path)).toList =
      fromPrefix? start.toList ('/' :: (slashed path).toList) := by
  have nonempty : foreign ≠ "" := by
    rintro rfl
    cases absolute
  obtain ⟨front, tail, split, ending, whole⟩ := exists_front_join nonempty relative
  generalize slashes : (fun c : Char => if c = '\\' then '/' else c) = slash
  have slashedSplit : (slashed foreign).toList = front.map slash ++ tail := by
    rw [slashed, String.toList_ofList, split, List.map_append, slashes]
    rcases ending with rfl | rfl
    · rfl
    · rw [← slashes]
      rfl
  have slashedWhole : (slashed (join foreign path)).toList =
      front.map slash ++ '/' :: (slashed path).toList := by
    rw [slashed, slashed, String.toList_ofList, String.toList_ofList, whole, List.map_append, slashes,
      List.map_cons, ← slashes]
    rfl
  -- A beginning in front would start with a component of the foreign root.
  have free : ∀ before after, front.map slash = before ++ '/' :: after →
      after.takeWhile (· ≠ '/') ≠ (firstName start).toList := by
    intro before after cut stands
    have cutThere : (slashed foreign).toList = before ++ '/' :: (after ++ tail) := by
      rw [slashedSplit, cut, List.append_assoc, List.cons_append]
    refine apart (ofText_mem_components enters.named cutThere ?_)
    rw [← stands]
    rcases ending with rfl | rfl
    · rw [List.append_nil]
    · exact takeWhile_append_slash after []
  rw [slashedWhole]
  -- The search passes the foreign root character by character.
  generalize front.map slash = cs at free
  induction cs with
  | nil => rfl
  | cons c cs inductionHypothesis =>
    rw [List.cons_append, fromPrefix?_cons, if_neg, inductionHypothesis]
    · intro before after cut
      exact free (c :: before) after (by rw [cut]; rfl)
    · rintro ⟨rfl, begins⟩
      refine free [] cs rfl ?_
      rw [← enters.takeWhile_eq begins]
      exact (takeWhile_append_slash cs _).symm

/-- The beginnings are looked for in the path within the project alone. -/
theorem recordedPath_join (tree : FileTree) (root : String) (enter : ∀ p ∈ starts, EntersDirectory p)
    (absolute : isAbsolute foreign = true) (relative : isAbsolute path = false)
    (apart : ∀ p ∈ starts, Component.ofText (firstName p) ∉ components (slashed foreign))
    (missing : tree.contains (join foreign path) = false) {start rest : String}
    (first : FirstPrefix starts (slashed path) start rest) :
    recordedPath tree root starts (join foreign path) = join root rest := by
  have found : starts.findSome? (fun p => fromPrefix? p.toList (slashed (join foreign path)).toList) =
      some rest.toList := by
    have searches := List.map_congr_left fun p listed =>
      fromPrefix?_join (enter p listed) absolute relative (apart p listed)
    rw [← (findSome_fromPrefix?_iff starts (slashed path) rest).mpr ⟨start, first⟩]
    simpa [List.findSome?_map, Function.comp_def] using congrArg (List.findSome? id) searches
  rw [slashed, String.toList_ofList] at found
  rw [recordedPath, isAbsolute_join absolute, Bool.not_true, if_neg Bool.false_ne_true, missing,
    if_neg Bool.false_ne_true]
  simp only [found, String.ofList_toList]

/-- Some beginning occurs in a path that starts with one. -/
theorem exists_firstPrefix (enter : ∀ p ∈ starts, EntersDirectory p)
    (within : ∃ p ∈ starts, p.toList <+: path.toList) :
    ∃ start rest, FirstPrefix starts (slashed path) start rest := by
  obtain ⟨p, listed, begins⟩ := within
  have here : fromPrefix? p.toList ('/' :: (slashed path).toList) = some (slashed path).toList := by
    rw [fromPrefix?_cons, if_pos ⟨rfl, prefix_slashed (enter p listed).noBackslash begins⟩]
  cases found : starts.findSome? fun p => fromPrefix? p.toList ('/' :: (slashed path).toList) with
  | none => exact absurd (here.symm.trans (List.findSome?_eq_none_iff.mp found p listed)) (by simp)
  | some rest =>
    obtain ⟨start, first⟩ := (findSome_fromPrefix?_iff starts (slashed path) (String.ofList rest)).mp
      (by rw [found, String.toList_ofList])
    exact ⟨start, String.ofList rest, first⟩

/-- Nothing is lost if the path starts with the beginning that is found, and has slashes only. -/
theorem FirstPrefix.rest_eq_iff {start rest : String} (first : FirstPrefix starts (slashed path) start rest) :
    rest = path ↔ start.toList <+: path.toList ∧ '\\' ∉ path.toList := by
  obtain ⟨before, after, -, firstAt, -⟩ := first
  constructor
  · rintro rfl
    obtain ⟨front, split, begins, -⟩ := firstAt
    refine ⟨begins, fun inside => not_mem_slashed rest ?_⟩
    have member : '\\' ∈ '/' :: (slashed rest).toList := by
      rw [split]
      exact List.mem_append_right front (List.mem_cons_of_mem _ inside)
    simpa using member
  · rintro ⟨begins, free⟩
    have same : slashed path = path := slashed_of_free free
    rw [firstAt_iff, same, fromPrefix?_cons, if_pos ⟨rfl, begins⟩, Option.some.injEq] at firstAt
    exact (String.toList_inj.mp firstAt).symm

theorem FirstPrefix.isAbsolute_eq_false {start rest : String} (enter : ∀ p ∈ starts, EntersDirectory p)
    (first : FirstPrefix starts (slashed path) start rest) : isAbsolute rest = false := by
  obtain ⟨before, after, rfl, ⟨front, -, begins, -⟩, -⟩ := first
  exact (enter start (List.mem_append_right before List.mem_cons_self)).isAbsolute_eq_false begins

end

/-- The whole path of a file on another machine, where no directory above the project has the name of one
    that is known, leads here to the path within the project from the first known directory on.  The path
    within the project is found again if and only if it starts with that directory. -/
theorem recordedPath_foreign {tree : FileTree} {root foreign path : String} {starts : List String}
    (enter : ∀ p ∈ starts, EntersDirectory p) (absolute : isAbsolute foreign = true)
    (apart : ∀ p ∈ starts, Component.ofText (firstName p) ∉ components (slashed foreign))
    (within : ∃ p ∈ starts, p.toList <+: path.toList)
    (missing : tree.contains (join foreign path) = false) :
    ∃ start rest, FirstPrefix starts (slashed path) start rest ∧
      recordedPath tree root starts (join foreign path) = join root rest ∧
      (recordedPath tree root starts (join foreign path) = join root path ↔
        start.toList <+: path.toList ∧ '\\' ∉ path.toList) := by
  obtain ⟨start, rest, first⟩ := exists_firstPrefix enter within
  have relative : isAbsolute path = false := by
    obtain ⟨p, listed, begins⟩ := within
    exact (enter p listed).isAbsolute_eq_false begins
  have taken := recordedPath_join tree root enter absolute relative apart missing first
  refine ⟨start, rest, first, taken, ?_⟩
  rw [taken, join_inj (first.isAbsolute_eq_false enter) relative]
  exact first.rest_eq_iff

theorem entersDirectory_standard : ∀ p ∈ ResolutionConfig.standard.rootPrefixes, EntersDirectory p := by
  intro p listed
  simp only [ResolutionConfig.standard, List.mem_cons, List.not_mem_nil, or_false] at listed
  rcases listed with rfl | rfl | rfl | rfl | rfl | rfl <;>
    exact ⟨⟨by decide, by decide, by decide⟩, by decide, by decide⟩

/-- A file below a known directory, with another one inside that is known later. -/
theorem recordedPath_foreign_components :
    (∃ p ∈ ResolutionConfig.standard.rootPrefixes, p.toList <+: "src/components/List.tsx".toList) ∧
      ∃ start rest,
        FirstPrefix ResolutionConfig.standard.rootPrefixes (slashed "src/components/List.tsx") start rest ∧
        recordedPath .empty "/p" ResolutionConfig.standard.rootPrefixes
          (join "/home/ci/checkout" "src/components/List.tsx") = join "/p" rest ∧
        (recordedPath .empty "/p" ResolutionConfig.standard.rootPrefixes
            (join "/home/ci/checkout" "src/components/List.tsx") = join "/p" "src/components/List.tsx" ↔
          start.toList <+: "src/components/List.tsx".toList ∧ '\\' ∉ "src/components/List.tsx".toList) := by
  have within : ∃ p ∈ ResolutionConfig.standard.rootPrefixes,
      p.toList <+: "src/components/List.tsx".toList := by decide
  exact ⟨within, recordedPath_foreign entersDirectory_standard (by decide) (by decide) within (by decide)⟩

/-- The sources of a package are taken for those of the project, since `src/` is known before
    `packages/`. -/
theorem recordedPath_nested :
    (∀ p ∈ ResolutionConfig.standard.rootPrefixes,
        Component.ofText (firstName p) ∉ components "/home/ci/checkout") ∧
      "packages/".toList <+: "packages/core/src/index.ts".toList ∧
      recordedPath .empty "/p" ResolutionConfig.standard.rootPrefixes
        (join "/home/ci/checkout" "packages/core/src/index.ts") = "/p/src/index.ts" ∧
      join "/p" "packages/core/src/index.ts" = "/p/packages/core/src/index.ts" := by
  decide

end CallAtlas
