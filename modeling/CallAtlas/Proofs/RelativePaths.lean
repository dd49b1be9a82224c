import CallAtlas.Proofs.Ancestors

/-!
# Where relative paths lead

A relative path amounts to a number of steps up and some names down (its `Course`), and where it leads from a
directory depends on nothing else (`walk_eq_from`).  The normal form keeps the names.  Of the steps up it only
keeps whether their number is odd (`course_normalize`): two points take back whatever was left before them, also
two points.  So the normal form leads to the same place if and only if the path goes up at most once
(`walk_normalize_iff`).
-/

namespace CallAtlas.Path

open Text

/-- Where components lead from the directory with the given names; nowhere if they climb above the top. -/
def walk : List String → List Component → Option (List String)
  | directory, [] => some directory
  | _, .root :: rest => walk [] rest
  | directory, .current :: rest => walk directory rest
  | [], .parent :: _ => none
  | first :: below, .parent :: rest => walk (first :: below).dropLast rest
  | directory, .name text :: rest => walk (directory ++ [text]) rest

/-- So many steps up, and then these names down, the last one first. -/
structure Course where
  climbs : Nat
  names : List String
  deriving DecidableEq, Repr

namespace Course

def step : Course → Component → Course
  | course, .root | course, .current => course
  | ⟨climbs, []⟩, .parent => ⟨climbs + 1, []⟩
  | ⟨climbs, _ :: names⟩, .parent => ⟨climbs, names⟩
  | ⟨climbs, names⟩, .name text => ⟨climbs, text :: names⟩

def along (components : List Component) : Course := components.foldl step ⟨0, []⟩

/-- Where a course leads from a directory that is deep enough for it. -/
def from? (course : Course) (directory : List String) : Option (List String) :=
  if course.climbs ≤ directory.length then
    some (directory.take (directory.length - course.climbs) ++ course.names.reverse)
  else none

/-- What resolving a path that amounts to a course leaves on the stack: of the steps up, at most one. -/
def stack (course : Course) : Stack :=
  course.names ++ if course.climbs % 2 = 1 then [".."] else []

end Course

/-- What a path amounts to. -/
def course (path : String) : Course := .along (components path)

/-! ## A course leads where its path leads -/

theorem walk_singleton_bind (directory : List String) (component : Component) (rest : List Component) :
    walk directory (component :: rest) = (walk directory [component]).bind (walk · rest) := by
  cases component with
  | parent => cases directory <;> simp [walk]
  | root | current | name _ => simp [walk]

theorem walk_parent_concat (directory : List String) (text : String) :
    walk (directory ++ [text]) [.parent] = some directory := by
  cases directory with
  | nil => simp [walk]
  | cons first below =>
    show some (first :: below ++ [text]).dropLast = some (first :: below)
    rw [List.dropLast_concat]

theorem walk_parent_take {directory : List String} {height : Nat} (inside : height < directory.length) :
    walk (directory.take (height + 1)) [.parent] = some (directory.take height) := by
  rw [List.take_succ_eq_append_getElem inside]
  exact walk_parent_concat _ _

/-- One more component takes the end of a course to the end of the longer course. -/
theorem from?_step {component : Component} (notRoot : component ≠ .root) (course : Course)
    (directory : List String) :
    (course.step component).from? directory =
      (course.from? directory).bind (walk · [component]) := by
  obtain ⟨climbs, names⟩ := course
  by_cases deep : climbs ≤ directory.length
  · cases component with
    | root => contradiction
    | current => simp [Course.step, Course.from?, walk, deep]
    | name text => simp [Course.step, Course.from?, walk, deep]
    | parent =>
      cases names with
      | cons last names =>
        have back := walk_parent_concat (directory.take (directory.length - climbs) ++ names.reverse) last
        simp only [List.append_assoc] at back
        simp [Course.step, Course.from?, deep, back]
      | nil =>
        -- No name is left to take back, so this is one more step up, if the directory is not the top by now.
        by_cases deeper : climbs + 1 ≤ directory.length
        · have height : directory.length - climbs = directory.length - (climbs + 1) + 1 := by omega
          have up := walk_parent_take (show directory.length - (climbs + 1) < directory.length by omega)
          simp [Course.step, Course.from?, deep, deeper, height, up]
        · have top : directory.length - climbs = 0 := by omega
          simp [Course.step, Course.from?, deep, deeper, top, walk]
  · -- Above the top a course never comes back, since the steps up are only ever added to.
    have above : climbs ≤ (Course.step ⟨climbs, names⟩ component).climbs := by
      cases component with
      | parent => cases names <;> simp [Course.step]
      | root | current | name _ => simp [Course.step]
    have notDeep : ¬ (Course.step ⟨climbs, names⟩ component).climbs ≤ directory.length := by omega
    simp [Course.from?, deep, notDeep]

theorem from?_foldl_step {components : List Component} (noRoot : .root ∉ components) (course : Course)
    (directory : List String) :
    (components.foldl Course.step course).from? directory =
      (course.from? directory).bind (walk · components) := by
  induction components generalizing course with
  | nil => simp [walk]
  | cons component rest inductionHypothesis =>
    simp only [List.mem_cons, not_or] at noRoot
    rw [List.foldl_cons, inductionHypothesis noRoot.2, from?_step (Ne.symm noRoot.1), Option.bind_assoc]
    congr 1
    funext reached
    exact (walk_singleton_bind reached component rest).symm

theorem walk_eq_from? {components : List Component} (noRoot : .root ∉ components) (directory : List String) :
    walk directory components = (Course.along components).from? directory := by
  rw [Course.along, from?_foldl_step noRoot]
  simp [Course.from?]

/-- From a deep enough directory, courses with the same names lead to the same place only if they go up equally
    often. -/
theorem from?_eq_iff {climbs others : Nat} {names directory : List String} (deep : climbs ≤ directory.length)
    (othersDeep : others ≤ directory.length) :
    Course.from? ⟨others, names⟩ directory = Course.from? ⟨climbs, names⟩ directory ↔ others = climbs := by
  simp only [Course.from?, deep, othersDeep, if_true, Option.some.injEq, List.append_cancel_right_eq]
  constructor
  · intro same
    have lengths := congrArg List.length same
    simp only [List.length_take] at lengths
    omega
  · rintro rfl
    rfl

/-! ## The course of a normal form -/

theorem resolveStep_stack {component : Component} (notPoints : component ≠ .name "..") (course : Course) :
    resolveStep course.stack component = (course.step component).stack := by
  obtain ⟨climbs, names⟩ := course
  cases component with
  | root | current => rfl
  | name text => rfl
  | parent =>
    cases names with
    | cons last names => rfl
    | nil =>
      -- Two points on an empty stack stay; two points on two points leave nothing.
      by_cases odd : climbs % 2 = 1
      · have even : ¬ (climbs + 1) % 2 = 1 := by omega
        simp [Course.stack, Course.step, resolveStep, odd, even]
      · have odd' : (climbs + 1) % 2 = 1 := by omega
        simp [Course.stack, Course.step, resolveStep, odd, odd']

theorem foldl_resolveStep_stack {components : List Component} (noPoints : .name ".." ∉ components)
    (course : Course) :
    components.foldl resolveStep course.stack = (components.foldl Course.step course).stack := by
  induction components generalizing course with
  | nil => rfl
  | cons component rest inductionHypothesis =>
    simp only [List.mem_cons, not_or] at noPoints
    rw [List.foldl_cons, List.foldl_cons, resolveStep_stack (Ne.symm noPoints.1),
      inductionHypothesis noPoints.2]

theorem resolved_eq_stack {components : List Component} (noPoints : .name ".." ∉ components) :
    resolved components = (Course.along components).stack.reverse := by
  rw [resolved, Course.along, ← foldl_resolveStep_stack noPoints]
  rfl

theorem foldl_step_names {names : List String} (noPoints : ".." ∉ names) (climbs : Nat) (before : List String) :
    (names.map Component.ofText).foldl Course.step ⟨climbs, before⟩ = ⟨climbs, names.reverse ++ before⟩ := by
  induction names generalizing before with
  | nil => rfl
  | cons first rest inductionHypothesis =>
    simp only [List.mem_cons, not_or] at noPoints
    have isName : Component.ofText first = .name first := if_neg (Ne.symm noPoints.1)
    simp [isName, Course.step, inductionHypothesis noPoints.2]

theorem along_map_ofText_stack {course : Course} (noPoints : ".." ∉ course.names) :
    Course.along (course.stack.reverse.map Component.ofText) = ⟨course.climbs % 2, course.names⟩ := by
  obtain ⟨climbs, names⟩ := course
  have reversed : ".." ∉ names.reverse := by simpa using noPoints
  by_cases odd : climbs % 2 = 1
  · have upFirst : (Course.stack ⟨climbs, names⟩).reverse.map Component.ofText =
        .parent :: names.reverse.map Component.ofText := by
      simp [Course.stack, odd, show Component.ofText ".." = .parent from rfl]
    rw [upFirst]
    show (names.reverse.map Component.ofText).foldl Course.step ⟨1, []⟩ = _
    simp only [foldl_step_names reversed, List.reverse_reverse, List.append_nil, odd]
  · have even : climbs % 2 = 0 := by omega
    have onlyDown : (Course.stack ⟨climbs, names⟩).reverse = names.reverse := by
      simp [Course.stack, even]
    rw [onlyDown]
    simp only [Course.along, foldl_step_names reversed, List.reverse_reverse, List.append_nil, even]

theorem mem_names_step {course : Course} {component : Component} {text : String}
    (member : text ∈ (course.step component).names) : text ∈ course.names ∨ component = .name text := by
  obtain ⟨climbs, names⟩ := course
  cases component with
  | root | current => exact .inl member
  | parent => cases names <;> simp_all [Course.step]
  | name last =>
    simp only [Course.step, List.mem_cons] at member
    exact member.symm.imp_right fun same => by rw [same]

theorem mem_names_foldl_step {components : List Component} {course : Course} {text : String}
    (member : text ∈ (components.foldl Course.step course).names) :
    text ∈ course.names ∨ .name text ∈ components := by
  induction components generalizing course with
  | nil => exact .inl member
  | cons component rest inductionHypothesis =>
    rcases inductionHypothesis member with before | later
    · exact (mem_names_step before).imp_right fun same => by simp [same]
    · exact .inr (List.mem_cons_of_mem component later)

theorem points_not_mem_course (path : String) : ".." ∉ (course path).names := by
  intro member
  rcases mem_names_foldl_step member with nothing | inPath
  · cases nothing
  · exact name_ne_points inPath rfl

/-- The normal form keeps the names of a path, and of the steps up whether their number is odd. -/
theorem course_normalize {path : String} (relative : isAbsolute path = false) :
    course (normalize path) = ⟨(course path).climbs % 2, (course path).names⟩ := by
  have noPoints : .name ".." ∉ components path := fun member => name_ne_points member rfl
  rw [course, normalize_of_relative relative, components_relative (fun _ => isPiece_of_mem_resolved),
    resolved_eq_stack noPoints]
  exact along_map_ofText_stack (points_not_mem_course path)

/-- From a directory that is deep enough for a relative path, its normal form leads to the same place if and only
    if the path amounts to at most one step up. -/
theorem walk_normalize_iff {path : String} (relative : isAbsolute path = false)
    {directory place : List String} (leads : walk directory (components path) = some place) :
    (walk directory (components (normalize path)) = some place ↔ (course path).climbs ≤ 1) ∧
      course (normalize path) = ⟨(course path).climbs % 2, (course path).names⟩ := by
  have normal := course_normalize relative
  refine ⟨?_, normal⟩
  have noRoot : .root ∉ components (normalize path) := by
    rw [normalize_of_relative relative, components_relative (fun _ => isPiece_of_mem_resolved)]
    intro member
    obtain ⟨text, -, isRoot⟩ := List.mem_map.mp member
    exact Component.ofText_ne_root text isRoot
  -- Both sides become courses from the same directory, with the same names.
  rw [← leads, walk_eq_from? noRoot, walk_eq_from? (root_not_mem_components relative)]
  rw [walk_eq_from? (root_not_mem_components relative)] at leads
  show (course (normalize path)).from? directory = (course path).from? directory ↔ _
  have deep : (course path).climbs ≤ directory.length := by
    apply Nat.le_of_not_lt
    intro tooHigh
    have nowhere : (course path).from? directory = none := if_neg (by omega)
    rw [course, leads] at nowhere
    cases nowhere
  rw [normal, from?_eq_iff deep (by omega)]
  omega

theorem walk_normalize_oneUp :
    isAbsolute "a/../../b" = false ∧ walk ["x", "y"] (components "a/../../b") = some ["x", "b"] ∧
      walk ["x", "y"] (components (normalize "a/../../b")) = some ["x", "b"] := by
  have leads : walk ["x", "y"] (components "a/../../b") = some ["x", "b"] := by decide
  exact ⟨by decide, leads, (walk_normalize_iff (by decide) leads).1.mpr (by decide)⟩

/-- Two steps up are lost: three directories deep, the path leads to the first of them and its normal form stays. -/
theorem walk_normalize_twoUp :
    isAbsolute "../.." = false ∧ walk ["x", "y", "z"] (components "../..") = some ["x"] ∧
      walk ["x", "y", "z"] (components (normalize "../..")) = some ["x", "y", "z"] ∧
      (course "../..").climbs = 2 ∧ (course (normalize "../..")).climbs = 0 := by
  decide

end CallAtlas.Path
