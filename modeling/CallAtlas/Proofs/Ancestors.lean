import CallAtlas.Proofs.NormalPaths

/-!
# Directories around a directory

The list of the directories around a path is the path itself, and then the list for its parent
(`ancestors_eq`).  So what is proved of a path from the same about its parent holds of every path
(`parentInduction`).  Both rest on reading back the components of a path that was put together from
components (`components_ofComponents`).
-/

namespace CallAtlas.Path

open Text

/-! ## Components that come from a text -/

/-- A component that can stand behind others: two points or a name, read back from its own text. -/
structure Component.IsInner (c : Component) : Prop where
  isPiece : IsPiece c.text
  ofText : Component.ofText c.text = c

/-- Components as they are read from a text: all are inner ones, but for the slash of the root or a
    single point in front. -/
inductive AreRead : List Component → Prop where
  | relative {inner : List Component} : (∀ c ∈ inner, c.IsInner) → AreRead inner
  | absolute {inner : List Component} : (∀ c ∈ inner, c.IsInner) → AreRead (.root :: inner)
  | pointed {inner : List Component} : (∀ c ∈ inner, c.IsInner) → AreRead (.current :: inner)

theorem Component.isInner_of_ofPiece {piece : List Char} {c : Component} (noSlash : '/' ∉ piece)
    (read : Component.ofPiece piece = some c) : c.IsInner := by
  cases c with
  | root | current =>
    unfold Component.ofPiece at read
    split at read <;> simp at read
  | parent => exact ⟨⟨by decide, by decide, by decide⟩, rfl⟩
  | name text =>
    obtain ⟨isPiece, rfl⟩ := isPiece_of_ofPiece noSlash read
    refine ⟨isPiece, ?_⟩
    have again := Component.ofPiece_of_isPiece isPiece
    rw [String.toList_ofList, read] at again
    exact (Option.some.inj again).symm

theorem areRead_components (path : String) : AreRead (components path) := by
  have inner : ∀ c ∈ (splitAt (· = '/') path.toList).filterMap Component.ofPiece, c.IsInner := by
    intro c member
    obtain ⟨piece, cut, read⟩ := List.mem_filterMap.mp member
    apply Component.isInner_of_ofPiece _ read
    intro slash
    simpa using (mem_of_mem_splitAt cut slash).2
  unfold components
  dsimp only
  split
  · exact .absolute inner
  · split
    · exact .pointed inner
    · exact .relative inner

theorem name_ne_points {path text : String} (member : .name text ∈ components path) : text ≠ ".." := by
  rintro rfl
  have noInner {inner : List Component} (areInner : ∀ c ∈ inner, c.IsInner) : .name ".." ∉ inner :=
    fun inside => absurd (areInner _ inside).ofText (by decide)
  have read := areRead_components path
  generalize components path = cs at member read
  cases read with
  | relative areInner => exact noInner areInner member
  | absolute areInner | pointed areInner =>
    rcases List.mem_cons.mp member with isFirst | later
    · cases isFirst
    · exact noInner areInner later

theorem root_not_mem_components {path : String} (relative : isAbsolute path = false) :
    .root ∉ components path := by
  have noRoot : .root ∉ (splitAt (· = '/') path.toList).filterMap Component.ofPiece := by
    intro member
    obtain ⟨piece, cut, read⟩ := List.mem_filterMap.mp member
    have noSlash : '/' ∉ piece := fun slash => by simpa using (mem_of_mem_splitAt cut slash).2
    exact absurd (Component.isInner_of_ofPiece noSlash read).isPiece.noSlash (by decide)
  simp only [components, relative, Bool.false_eq_true, if_false, List.mem_append, not_or]
  refine ⟨?_, noRoot⟩
  split <;> simp

/-- A path is absolute if and only if it starts with the root. -/
theorem isAbsolute_iff (path : String) : isAbsolute path = true ↔ (components path).head? = some .root := by
  constructor
  · intro absolute
    simp [components, absolute]
  · intro first
    cases form : isAbsolute path with
    | true => rfl
    | false => exact absurd (List.mem_of_head? first) (root_not_mem_components form)

theorem AreRead.take {cs : List Component} (read : AreRead cs) (n : Nat) : AreRead (cs.take n) := by
  cases n with
  | zero =>
    apply AreRead.relative
    simp
  | succ n =>
    cases read with
    | relative inner => exact .relative fun c member => inner c (List.mem_of_mem_take member)
    | absolute inner => exact .absolute fun c member => inner c (List.mem_of_mem_take member)
    | pointed inner => exact .pointed fun c member => inner c (List.mem_of_mem_take member)

section

variable {inner : List Component}

theorem isPiece_of_inner (areInner : ∀ c ∈ inner, c.IsInner) :
    ∀ t ∈ inner.map Component.text, IsPiece t := by
  intro t member
  obtain ⟨c, cMember, rfl⟩ := List.mem_map.mp member
  exact (areInner c cMember).isPiece

theorem map_ofText_of_inner (areInner : ∀ c ∈ inner, c.IsInner) :
    (inner.map Component.text).map Component.ofText = inner := by
  rw [List.map_map]
  exact (List.map_congr_left fun c member => (areInner c member).ofText).trans (List.map_id inner)

theorem components_point (areInner : ∀ c ∈ inner, c.IsInner) :
    components ("/".intercalate ("." :: inner.map Component.text)) = .current :: inner := by
  cases shape : inner.map Component.text with
  | nil =>
    obtain rfl : inner = [] := by simpa using shape
    decide
  | cons second rest =>
    have cut : splitAt (· = '/') ("/".intercalate ("." :: second :: rest)).toList =
        ['.'] :: splitAt (· = '/') ("/".intercalate (second :: rest)).toList := by
      have free : ∀ c ∈ ['.'], decide (c = '/') = false := by simp
      have point : ".".toList = ['.'] := rfl
      have slash : "/".toList = ['/'] := rfl
      rw [String.intercalate_cons_cons, String.toList_append, String.toList_append, point, slash,
        List.append_assoc, List.singleton_append]
      exact splitFrom_append_cons free (by decide) [] _
    have relative : isAbsolute ("/".intercalate ("." :: second :: rest)) = false := by
      simp [isAbsolute]
    have pieces := isPiece_of_inner areInner
    have back := map_ofText_of_inner areInner
    rw [shape] at pieces back
    simp only [components, relative, cut, Bool.false_eq_true, if_false, List.head?_cons, beq_self_eq_true,
      if_true]
    rw [List.filterMap_cons_none rfl, filterMap_splitAt_intercalate pieces, back]
    rfl

end

/-- The components of a path that was put together from components. -/
theorem components_ofComponents {cs : List Component} (read : AreRead cs) :
    components (ofComponents cs) = cs := by
  cases read with
  | relative inner =>
    conv => lhs; rw [← map_ofText_of_inner inner]
    rw [ofComponents_map_ofText, components_relative (isPiece_of_inner inner), map_ofText_of_inner inner]
  | absolute inner =>
    have text : ∀ inner, ofComponents (.root :: inner) = rooted (inner.map Component.text) :=
      fun _ => rfl
    rw [text, components_rooted (isPiece_of_inner inner), map_ofText_of_inner inner]
  | pointed inner => exact components_point inner

/-! ## Parents -/

theorem parent?_eq_none_iff (path : String) :
    parent? path = none ↔ components path = [] ∨ components path = [.root] := by
  unfold parent?
  split
  · simp_all
  · simp_all
  · rename_i notEmpty notRoot
    simp only [reduceCtorEq, false_iff, not_or]
    exact ⟨notEmpty, notRoot⟩

theorem components_parent {path above : String} (isParent : parent? path = some above) :
    components above = (components path).dropLast ∧ components path ≠ [] ∧
      components path ≠ [.root] := by
  unfold parent? at isParent
  split at isParent
  · cases isParent
  · cases isParent
  · rename_i notEmpty notRoot
    refine ⟨?_, notEmpty, notRoot⟩
    rw [← Option.some.inj isParent, List.dropLast_eq_take]
    exact components_ofComponents ((areRead_components path).take _)

theorem isAbsolute_parent {path above : String} (absolute : isAbsolute path = true)
    (isParent : parent? path = some above) : isAbsolute above = true := by
  obtain ⟨shorter, -, notRoot⟩ := components_parent isParent
  rw [isAbsolute_iff] at absolute ⊢
  rw [shorter]
  match read : components path with
  | [] => simp [read] at absolute
  | [c] =>
    rw [read, List.head?_cons, Option.some.injEq] at absolute
    exact absurd (by rw [read, absolute]) notRoot
  | c :: d :: rest => simpa [read] using absolute

/-- What holds of a path if it holds of its parent, holds of all paths. -/
theorem parentInduction {motive : String → Prop}
    (step : ∀ path, (∀ above, parent? path = some above → motive above) → motive path)
    (path : String) : motive path := by
  induction size : (components path).length using Nat.strongRecOn generalizing path with
  | ind size inductionHypothesis =>
    apply step
    intro above isParent
    obtain ⟨shorter, notEmpty, -⟩ := components_parent isParent
    refine inductionHypothesis (components above).length ?_ above rfl
    have positive := List.length_pos_iff.mpr notEmpty
    rw [shorter, List.length_dropLast]
    omega

theorem ancestors_congr {a b : String} (same : components a = components b) :
    ancestors a = ancestors b := by
  unfold ancestors
  rw [same]

/-- The number of components of the last directory around a path: the root stays. -/
def leastComponents (cs : List Component) : Nat := if cs.head? == some .root then 1 else 0

theorem leastComponents_dropLast {cs : List Component} (notRoot : cs ≠ [.root]) :
    leastComponents cs.dropLast = leastComponents cs := by
  unfold leastComponents
  match cs with
  | [] => rfl
  | [c] =>
    have other : c ≠ .root := fun isRoot => notRoot (by rw [isRoot])
    simp [other]
  | c :: d :: rest => simp

theorem ancestors_eq_map (path : String) :
    ancestors path =
      (List.range' (leastComponents (components path))
        ((components path).length + 1 - leastComponents (components path))).reverse.map
          fun n => ofComponents ((components path).take n) := rfl

/-- The directories around a path are the path itself, and then those around its parent. -/
theorem ancestors_eq (path : String) :
    ancestors path = ofComponents (components path) ::
      match parent? path with
      | none => []
      | some above => ancestors above := by
  cases isParent : parent? path with
  | none =>
    rcases (parent?_eq_none_iff path).mp isParent with top | top
    · simp [ancestors, top]
    · simp [ancestors, top]
  | some above =>
    obtain ⟨shorter, notEmpty, notRoot⟩ := components_parent isParent
    dsimp only
    rw [ancestors_eq_map, ancestors_eq_map, shorter, leastComponents_dropLast notRoot,
      List.length_dropLast]
    have positive := List.length_pos_iff.mpr notEmpty
    have least : leastComponents (components path) ≤ 1 := by
      unfold leastComponents
      split <;> omega
    generalize leastComponents (components path) = first at least ⊢
    generalize components path = cs at positive ⊢
    have count : cs.length + 1 - first = (cs.length - first) + 1 := by omega
    have countAbove : cs.length - 1 + 1 - first = cs.length - first := by omega
    have last : first + (cs.length - first) = cs.length := by omega
    rw [count, countAbove, List.range'_concat, List.reverse_append, List.reverse_singleton,
      List.singleton_append, List.map_cons, Nat.one_mul, last, List.take_length]
    congr 1
    apply List.map_congr_left
    intro n member
    have below : n ≤ cs.length - 1 := by
      obtain ⟨-, below⟩ := List.mem_range'_1.mp (List.mem_reverse.mp member)
      omega
    rw [List.dropLast_eq_take, List.take_take, Nat.min_eq_left below]

theorem isAbsolute_of_mem_ancestors {path directory : String} (absolute : isAbsolute path = true)
    (member : directory ∈ ancestors path) : isAbsolute directory = true := by
  induction path using parentInduction with
  | step path inductionHypothesis =>
    rw [ancestors_eq] at member
    rcases List.mem_cons.mp member with rfl | further
    · rw [isAbsolute_iff] at absolute ⊢
      rwa [components_ofComponents (areRead_components path)]
    · cases isParent : parent? path with
      | none =>
        rw [isParent] at further
        cases further
      | some above =>
        rw [isParent] at further
        exact inductionHypothesis above isParent (isAbsolute_parent absolute isParent) further

end CallAtlas.Path
