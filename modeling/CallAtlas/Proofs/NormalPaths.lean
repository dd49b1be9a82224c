import CallAtlas.Path.Normal

/-!
# Paths in normal form

A path in normal form is a list of pieces with slashes between them, with a slash in front if it starts
at the root.  Its components can be read back from it (`components_rooted`, `components_relative`), so
normal forms are equal as soon as they denote the same path (`normalize_ext`).  Seen from a directory
that it leads through, a normal path is the list of its remaining pieces (`stripPrefix_rooted`), and
joining those to the directory gives the path back (`join_rooted`).
-/

namespace CallAtlas.Text

/-! ## Cutting at separators -/

theorem splitFrom_of_free {p : Char → Bool} {piece : List Char} (free : ∀ c ∈ piece, p c = false)
    (acc : List Char) : splitFrom p acc piece = [acc.reverse ++ piece] := by
  induction piece generalizing acc with
  | nil => simp [splitFrom]
  | cons c piece inductionHypothesis =>
    rw [splitFrom, free c List.mem_cons_self]
    simp [inductionHypothesis fun d member => free d (List.mem_cons_of_mem c member)]

/-- A separator cuts a text in two parts that are split by themselves. -/
theorem splitFrom_append {p : Char → Bool} {separator : Char} (separates : p separator = true)
    (acc cs rest : List Char) :
    splitFrom p acc (cs ++ separator :: rest) = splitFrom p acc cs ++ splitFrom p [] rest := by
  induction cs generalizing acc with
  | nil => simp [splitFrom, separates]
  | cons c cs inductionHypothesis =>
    rw [List.cons_append, splitFrom, splitFrom]
    split
    · rw [inductionHypothesis, List.cons_append]
    · rw [inductionHypothesis]

theorem splitFrom_append_cons {p : Char → Bool} {piece : List Char}
    (free : ∀ c ∈ piece, p c = false) {separator : Char} (separates : p separator = true)
    (acc rest : List Char) :
    splitFrom p acc (piece ++ separator :: rest) = (acc.reverse ++ piece) :: splitFrom p [] rest := by
  rw [splitFrom_append separates, splitFrom_of_free free, List.singleton_append]

/-- Every character of a piece is one of the text, and none of them separates. -/
theorem mem_of_mem_splitFrom {p : Char → Bool} {piece : List Char} {c : Char} (cs acc : List Char)
    (accFree : ∀ d ∈ acc, p d = false) (cut : piece ∈ splitFrom p acc cs) (member : c ∈ piece) :
    (c ∈ acc ∨ c ∈ cs) ∧ p c = false := by
  -- In `acc` is the part of the next piece that was read already.
  induction cs generalizing acc with
  | nil =>
    simp only [splitFrom, List.mem_singleton] at cut
    subst cut
    have accMember : c ∈ acc := List.mem_reverse.mp member
    exact ⟨.inl accMember, accFree c accMember⟩
  | cons d cs inductionHypothesis =>
    rw [splitFrom] at cut
    split at cut
    · rcases List.mem_cons.mp cut with rfl | cut
      · have accMember : c ∈ acc := List.mem_reverse.mp member
        exact ⟨.inl accMember, accFree c accMember⟩
      · obtain ⟨place, free⟩ := inductionHypothesis [] (by simp) cut
        exact ⟨.inr (List.mem_cons_of_mem d (place.resolve_left (by simp))), free⟩
    · rename_i separates
      have stillFree : ∀ x ∈ d :: acc, p x = false := by
        intro x xMember
        rcases List.mem_cons.mp xMember with rfl | xMember
        · simpa using separates
        · exact accFree x xMember
      obtain ⟨place, free⟩ := inductionHypothesis (d :: acc) stillFree cut
      refine ⟨?_, free⟩
      rcases place with place | place
      · rcases List.mem_cons.mp place with rfl | place
        · exact .inr List.mem_cons_self
        · exact .inl place
      · exact .inr (List.mem_cons_of_mem d place)

theorem mem_of_mem_splitAt {p : Char → Bool} {cs piece : List Char} {c : Char}
    (cut : piece ∈ splitAt p cs) (member : c ∈ piece) : c ∈ cs ∧ p c = false := by
  obtain ⟨place, free⟩ := mem_of_mem_splitFrom cs [] (by simp) cut member
  exact ⟨place.resolve_left (by simp), free⟩

theorem cutAt_eq_some_iff (p : Char → Bool) (cs front back : List Char) :
    cutAt p cs = some (front, back) ↔
      ∃ c, cs = front ++ c :: back ∧ p c = true ∧ ∀ x ∈ front, p x = false := by
  unfold cutAt
  constructor
  · intro cut
    split at cut
    · cases cut
    · rename_i c after dropped
      simp only [Option.some.injEq, Prod.mk.injEq] at cut
      obtain ⟨rfl, rfl⟩ := cut
      refine ⟨c, ?_, ?_, ?_⟩
      · rw [← dropped, List.takeWhile_append_dropWhile]
      · simpa [dropped] using List.head?_dropWhile_not (fun c => !p c) cs
      · intro x member
        simpa using List.all_eq_true.mp List.all_takeWhile x member
  · rintro ⟨c, rfl, isCut, free⟩
    have kept : ∀ x ∈ front, (!p x) = true := by
      intro x member
      simp [free x member]
    rw [List.dropWhile_append_of_pos kept, List.takeWhile_append_of_pos kept]
    simp [isCut]

theorem stripPrefix?_eq_some_iff (start cs rest : List Char) :
    stripPrefix? start cs = some rest ↔ cs = start ++ rest := by
  induction start generalizing cs with
  | nil => simp [stripPrefix?]
  | cons p start inductionHypothesis =>
    cases cs with
    | nil => simp [stripPrefix?]
    | cons c cs =>
      rw [stripPrefix?, List.cons_append, List.cons.injEq]
      by_cases same : p = c
      · simp [same, inductionHypothesis]
      · simp [same, Ne.symm same]

theorem stripPrefix?_isSome_iff (start cs : List Char) :
    (stripPrefix? start cs).isSome = true ↔ start <+: cs := by
  rw [Option.isSome_iff_exists]
  simp only [stripPrefix?_eq_some_iff]
  exact exists_congr fun _ => eq_comm

end CallAtlas.Text

namespace CallAtlas.Path

open Text

/-! ## Pieces -/

/-- A text that can stand between the slashes of a path in normal form. -/
structure IsPiece (text : String) : Prop where
  nonempty : text ≠ ""
  notPoint : text ≠ "."
  noSlash : '/' ∉ text.toList

/-- The component that a piece stands for. -/
def Component.ofText (text : String) : Component := if text = ".." then .parent else .name text

@[simp] theorem Component.text_ofText (text : String) : (Component.ofText text).text = text := by
  unfold Component.ofText
  split
  · rename_i points
    exact points.symm
  · rfl

theorem Component.ofText_injective {a b : String} (same : Component.ofText a = Component.ofText b) :
    a = b := by
  rw [← Component.text_ofText a, same, Component.text_ofText b]

theorem Component.ofText_ne_root (text : String) : Component.ofText text ≠ .root := by
  unfold Component.ofText
  split <;> simp

theorem Component.ofPiece_of_isPiece {text : String} (piece : IsPiece text) :
    Component.ofPiece text.toList = some (Component.ofText text) := by
  have nonempty : text.toList ≠ [] := fun empty => piece.nonempty (by simpa using empty)
  have notPoint : text.toList ≠ ['.'] := fun point =>
    piece.notPoint (String.toList_inj.mp (by simpa using point))
  unfold Component.ofPiece Component.ofText
  split
  · contradiction
  · contradiction
  · rename_i points
    rw [if_pos (String.toList_inj.mp (by simpa using points))]
  · rename_i notPoints
    rw [if_neg (fun points => notPoints (by simp [points])), String.ofList_toList]

theorem isPiece_of_ofPiece {piece : List Char} {text : String} (noSlash : '/' ∉ piece)
    (read : Component.ofPiece piece = some (.name text)) : IsPiece text ∧ text = String.ofList piece := by
  unfold Component.ofPiece at read
  split at read
  · cases read
  · cases read
  · cases read
  · rename_i nonempty notPoint _
    simp only [Option.some.injEq, Component.name.injEq] at read
    subst read
    refine ⟨⟨fun empty => nonempty ?_, fun point => notPoint ?_, by simpa using noSlash⟩, rfl⟩
    · simpa using congrArg String.toList empty
    · simpa using congrArg String.toList point

/-! ## Reading pieces back -/

theorem slash_not_mem_of_mem_pieces {path piece : String} (cut : piece ∈ pieces path) :
    '/' ∉ piece.toList := by
  obtain ⟨cs, isCut, rfl⟩ := List.mem_map.mp cut
  intro member
  rw [String.toList_ofList] at member
  simpa using (mem_of_mem_splitAt isCut member).2

theorem pieces_of_noSlash {name : String} (noSlash : '/' ∉ name.toList) : pieces name = [name] := by
  have free : ∀ c ∈ name.toList, decide (c = '/') = false := fun c member =>
    decide_eq_false fun same => noSlash (same ▸ member)
  simp [pieces, splitAt, splitFrom_of_free free]

theorem pieces_append_slash {name : String} (noSlash : '/' ∉ name.toList) (rest : String) :
    pieces (name ++ "/" ++ rest) = name :: pieces rest := by
  have free : ∀ c ∈ name.toList, decide (c = '/') = false := fun c member =>
    decide_eq_false fun same => noSlash (same ▸ member)
  have spelled : (name ++ "/" ++ rest).toList = name.toList ++ '/' :: rest.toList := by simp
  rw [pieces, spelled, splitAt, splitFrom_append_cons free (by decide)]
  simp [pieces, splitAt]

theorem pieces_intercalate {names : List String} (noSlash : ∀ name ∈ names, '/' ∉ name.toList)
    (nonempty : names ≠ []) : pieces ("/".intercalate names) = names := by
  induction names with
  | nil => contradiction
  | cons first rest inductionHypothesis =>
    have firstFree := noSlash first List.mem_cons_self
    cases rest with
    | nil => rw [String.intercalate_singleton, pieces_of_noSlash firstFree]
    | cons second rest =>
      rw [String.intercalate_cons_cons, pieces_append_slash firstFree,
        inductionHypothesis (fun name member => noSlash name (List.mem_cons_of_mem first member))
          (List.cons_ne_nil second rest)]

/-- The pieces with slashes between them, behind the slash of the root. -/
def rooted (pieces : List String) : String := "/" ++ "/".intercalate pieces

theorem slash_free {text : String} (piece : IsPiece text) :
    ∀ c ∈ text.toList, decide (c = '/') = false := by
  intro c member
  simp only [decide_eq_false_iff_not]
  rintro rfl
  exact piece.noSlash member

theorem splitAt_piece {text : String} (piece : IsPiece text) :
    splitAt (· = '/') text.toList = [text.toList] :=
  splitFrom_of_free (slash_free piece) []

theorem splitAt_intercalate_cons {first : String} (piece : IsPiece first) (second : String)
    (rest : List String) :
    splitAt (· = '/') ("/".intercalate (first :: second :: rest)).toList =
      first.toList :: splitAt (· = '/') ("/".intercalate (second :: rest)).toList := by
  have slash : "/".toList = ['/'] := rfl
  rw [String.intercalate_cons_cons, String.toList_append, String.toList_append, slash,
    List.append_assoc, List.singleton_append]
  exact splitFrom_append_cons (slash_free piece) (by decide) [] _

theorem filterMap_splitAt_intercalate {pieces : List String} (arePieces : ∀ t ∈ pieces, IsPiece t) :
    (splitAt (· = '/') ("/".intercalate pieces).toList).filterMap Component.ofPiece =
      pieces.map Component.ofText := by
  induction pieces with
  | nil => rfl
  | cons first rest inductionHypothesis =>
    have firstPiece := arePieces first List.mem_cons_self
    cases rest with
    | nil =>
      rw [String.intercalate_singleton, splitAt_piece firstPiece]
      simp [Component.ofPiece_of_isPiece firstPiece]
    | cons second rest =>
      rw [splitAt_intercalate_cons firstPiece, List.filterMap_cons_some
        (Component.ofPiece_of_isPiece firstPiece), inductionHypothesis
        fun t member => arePieces t (List.mem_cons_of_mem first member)]
      rfl

@[simp] theorem isAbsolute_rooted (pieces : List String) : isAbsolute (rooted pieces) = true := by
  simp [isAbsolute, rooted]

theorem isAbsolute_intercalate {pieces : List String} (arePieces : ∀ t ∈ pieces, IsPiece t) :
    isAbsolute ("/".intercalate pieces) = false := by
  cases pieces with
  | nil => rfl
  | cons first rest =>
    have firstPiece := arePieces first List.mem_cons_self
    have nonempty : first.toList ≠ [] := fun empty => firstPiece.nonempty (by simpa using empty)
    obtain ⟨c, cs, chars⟩ := List.exists_cons_of_ne_nil nonempty
    have notSlash : c ≠ '/' := fun slash => firstPiece.noSlash (by simp [chars, slash])
    cases rest <;> simp [isAbsolute, chars, notSlash]

/-- The components of an absolute path in normal form. -/
theorem components_rooted {pieces : List String} (arePieces : ∀ t ∈ pieces, IsPiece t) :
    components (rooted pieces) = .root :: pieces.map Component.ofText := by
  have cut : splitAt (· = '/') (rooted pieces).toList =
      [] :: splitAt (· = '/') ("/".intercalate pieces).toList := by
    simp [rooted, splitAt, splitFrom]
  simp only [components, isAbsolute_rooted, if_true, cut]
  rw [List.filterMap_cons_none rfl, filterMap_splitAt_intercalate arePieces, List.singleton_append]

/-- The components of a relative path in normal form. -/
theorem components_relative {pieces : List String} (arePieces : ∀ t ∈ pieces, IsPiece t) :
    components ("/".intercalate pieces) = pieces.map Component.ofText := by
  have noPoint : ((splitAt (· = '/') ("/".intercalate pieces).toList).head? == some ['.']) = false := by
    cases pieces with
    | nil => rfl
    | cons first rest =>
      have firstPiece := arePieces first List.mem_cons_self
      have notPoint : first.toList ≠ ['.'] := fun point =>
        firstPiece.notPoint (String.toList_inj.mp (by simpa using point))
      cases rest with
      | nil =>
        rw [String.intercalate_singleton, splitAt_piece firstPiece]
        simpa using notPoint
      | cons second rest =>
        rw [splitAt_intercalate_cons firstPiece]
        simpa using notPoint
  simp only [components, isAbsolute_intercalate arePieces, noPoint, Bool.false_eq_true, if_false,
    List.nil_append]
  exact filterMap_splitAt_intercalate arePieces

/-! ## Normal forms -/

theorem mem_components {path : String} {text : String} (member : .name text ∈ components path) :
    IsPiece text ∧ ∀ c ∈ text.toList, c ∈ path.toList := by
  unfold components at member
  rcases List.mem_append.mp member with first | later
  · split at first
    · simp at first
    · split at first <;> simp at first
  · obtain ⟨piece, cut, read⟩ := List.mem_filterMap.mp later
    have noSlash : '/' ∉ piece := fun slash => by simpa using (mem_of_mem_splitAt cut slash).2
    obtain ⟨isPiece, rfl⟩ := isPiece_of_ofPiece noSlash read
    refine ⟨isPiece, fun c inText => (mem_of_mem_splitAt cut ?_).1⟩
    simpa using inText

/-- Each step of resolving puts a name or two points on the stack, or takes something off. -/
theorem mem_resolveStep {stack : Stack} {component : Component} {text : String}
    (member : text ∈ resolveStep stack component) :
    text ∈ stack ∨ text = ".." ∨ component = .name text := by
  cases component with
  | root | current => exact .inl member
  | parent =>
    cases stack with
    | nil => exact .inr (.inl (by simpa [resolveStep] using member))
    | cons top rest => exact .inl (List.mem_cons_of_mem top member)
  | name top =>
    rcases List.mem_cons.mp member with rfl | member
    · exact .inr (.inr rfl)
    · exact .inl member

theorem mem_foldl_resolveStep (components : List Component) (stack : Stack) {text : String}
    (member : text ∈ components.foldl resolveStep stack) :
    text ∈ stack ∨ text = ".." ∨ .name text ∈ components := by
  induction components generalizing stack with
  | nil => exact .inl member
  | cons component components inductionHypothesis =>
    rcases inductionHypothesis (resolveStep stack component) member with below | points | later
    · rcases mem_resolveStep below with below | points | rfl
      · exact .inl below
      · exact .inr (.inl points)
      · exact .inr (.inr List.mem_cons_self)
    · exact .inr (.inl points)
    · exact .inr (.inr (List.mem_cons_of_mem component later))

/-- What is left of a path when its points are resolved: pieces of the path, and two points. -/
theorem mem_resolved {path : String} {text : String} (member : text ∈ resolved (components path)) :
    text = ".." ∨ IsPiece text ∧ ∀ c ∈ text.toList, c ∈ path.toList := by
  rcases mem_foldl_resolveStep (components path) [] (List.mem_reverse.mp member) with
    empty | points | inPath
  · cases empty
  · exact .inl points
  · exact .inr (mem_components inPath)

theorem isPiece_of_mem_resolved {path : String} {text : String}
    (member : text ∈ resolved (components path)) : IsPiece text := by
  rcases mem_resolved member with rfl | ⟨isPiece, -⟩
  · exact ⟨by decide, by decide, by decide⟩
  · exact isPiece

theorem foldl_resolveStep_map_ofText {names : List String} (plain : ".." ∉ names) (stack : Stack) :
    (names.map Component.ofText).foldl resolveStep stack = names.reverse ++ stack := by
  induction names generalizing stack with
  | nil => rfl
  | cons first rest inductionHypothesis =>
    simp only [List.mem_cons, not_or] at plain
    simp [Component.ofText, Ne.symm plain.1, resolveStep, inductionHypothesis plain.2]

/-- Nothing is left to resolve where two points stand at most in front. -/
theorem resolved_map_ofText {names : List String} (plain : ".." ∉ names.tail) :
    resolved (names.map Component.ofText) = names := by
  cases names with
  | nil => rfl
  | cons first rest =>
    rw [List.tail_cons] at plain
    have pushed : resolveStep [] (Component.ofText first) = [first] := by
      by_cases points : first = ".."
      · simp [Component.ofText, resolveStep, points]
      · simp [Component.ofText, resolveStep, points]
    rw [resolved, List.map_cons, List.foldl_cons, pushed, foldl_resolveStep_map_ofText plain]
    simp

theorem normalize_of_isAbsolute {path : String} (absolute : isAbsolute path = true) :
    normalize path = rooted (resolved (components path)) := by
  simp [normalize, rooted, absolute]

theorem normalize_of_relative {path : String} (relative : isAbsolute path = false) :
    normalize path = "/".intercalate (resolved (components path)) := by
  simp [normalize, relative]

/-- Only an absolute path has the root among its components. -/
theorem map_ofText_ne_root_cons (pieces : List String) (rest : List Component) :
    pieces.map Component.ofText ≠ .root :: rest := by
  intro same
  obtain ⟨text, -, isRoot⟩ := List.mem_map.mp (same ▸ List.mem_cons_self)
  exact Component.ofText_ne_root text isRoot

theorem map_ofText_injective {xs ys : List String}
    (same : xs.map Component.ofText = ys.map Component.ofText) : xs = ys :=
  (List.map_inj_right fun _ _ => Component.ofText_injective).mp same

/-- Normal forms are equal as soon as they denote the same path. -/
theorem normalize_ext {a b : String}
    (same : components (normalize a) = components (normalize b)) : normalize a = normalize b := by
  have aPieces : ∀ t ∈ resolved (components a), IsPiece t := fun _ => isPiece_of_mem_resolved
  have bPieces : ∀ t ∈ resolved (components b), IsPiece t := fun _ => isPiece_of_mem_resolved
  cases aForm : isAbsolute a <;> cases bForm : isAbsolute b
  · rw [normalize_of_relative aForm, normalize_of_relative bForm] at same ⊢
    rw [components_relative aPieces, components_relative bPieces] at same
    rw [map_ofText_injective same]
  · rw [normalize_of_relative aForm, normalize_of_isAbsolute bForm, components_relative aPieces,
      components_rooted bPieces] at same
    exact absurd same (map_ofText_ne_root_cons _ _)
  · rw [normalize_of_isAbsolute aForm, normalize_of_relative bForm, components_rooted aPieces,
      components_relative bPieces] at same
    exact absurd same.symm (map_ofText_ne_root_cons _ _)
  · rw [normalize_of_isAbsolute aForm, normalize_of_isAbsolute bForm] at same ⊢
    rw [components_rooted aPieces, components_rooted bPieces, List.cons.injEq] at same
    rw [map_ofText_injective same.2]

theorem not_mem_intercalate {c : Char} (noSlash : c ≠ '/') {pieces : List String}
    (free : ∀ t ∈ pieces, c ∉ t.toList) : c ∉ ("/".intercalate pieces).toList := by
  induction pieces with
  | nil => simp
  | cons first rest inductionHypothesis =>
    have firstFree := free first List.mem_cons_self
    have restFree := inductionHypothesis fun t member => free t (List.mem_cons_of_mem first member)
    cases rest with
    | nil => rwa [String.intercalate_singleton]
    | cons second rest =>
      rw [String.intercalate_cons_cons, String.toList_append, String.toList_append, List.mem_append,
        List.mem_append]
      rintro ((inFirst | separates) | inRest)
      · exact firstFree inFirst
      · exact noSlash (List.mem_singleton.mp separates)
      · exact restFree inRest

/-! ## Paths seen from a directory -/

/-- What is joined to a path comes behind a slash. -/
theorem exists_front_join {base path : String} (nonempty : base ≠ "") (relative : isAbsolute path = false) :
    ∃ front tail, base.toList = front ++ tail ∧ (tail = [] ∨ tail = ['/']) ∧
      (join base path).toList = front ++ '/' :: path.toList := by
  have notEmpty : base.isEmpty = false := by
    rw [Bool.eq_false_iff]
    exact fun empty => nonempty (String.isEmpty_iff.mp empty)
  unfold join
  rw [relative, notEmpty]
  simp only [Bool.false_eq_true, ↓reduceIte, Bool.false_or]
  split
  · rename_i last
    obtain ⟨front, split⟩ := List.getLast?_eq_some_iff.mp (beq_iff_eq.mp last)
    exact ⟨front, ['/'], split, .inr rfl, by simp [split]⟩
  · exact ⟨base.toList, [], by simp, .inl rfl, by simp⟩

theorem isAbsolute_join {base path : String} (absolute : isAbsolute base = true) :
    isAbsolute (join base path) = true := by
  obtain ⟨cs, chars⟩ : ∃ cs, base.toList = '/' :: cs := by
    unfold isAbsolute at absolute
    cases chars : base.toList with
    | nil => simp [chars] at absolute
    | cons c cs =>
      simp only [chars, List.head?_cons, beq_iff_eq, Option.some.injEq] at absolute
      exact ⟨cs, by rw [absolute]⟩
  unfold join
  split
  · assumption
  · split <;> simp [isAbsolute, chars]

theorem ofComponents_map_ofText (pieces : List String) :
    ofComponents (pieces.map Component.ofText) = "/".intercalate pieces := by
  have texts : (pieces.map Component.ofText).map Component.text = pieces := by
    simp [Function.comp_def]
  unfold ofComponents
  split
  · rename_i rest isRoot
    exact absurd isRoot (map_ofText_ne_root_cons pieces rest)
  · rw [texts]

/-- Seen from a directory that it leads through, a path is the list of its remaining pieces. -/
theorem stripPrefix_rooted {base pieces : List String} (baseArePieces : ∀ t ∈ base, IsPiece t)
    (arePieces : ∀ t ∈ pieces, IsPiece t) {relative : String}
    (stripped : stripPrefix? (rooted base) (rooted pieces) = some relative) :
    ∃ rest, pieces = base ++ rest ∧ relative = "/".intercalate rest := by
  unfold stripPrefix? at stripped
  rw [components_rooted baseArePieces, components_rooted arePieces] at stripped
  split at stripped
  · rename_i leadsThrough
    simp only [List.isPrefixOf_iff_prefix, List.prefix_cons_inj] at leadsThrough
    obtain ⟨tail, tailEqual⟩ := leadsThrough
    obtain ⟨front, rest, rfl, frontEqual, -⟩ := List.map_eq_append_iff.mp tailEqual.symm
    obtain rfl := map_ofText_injective frontEqual
    refine ⟨rest, rfl, ?_⟩
    simpa [ofComponents_map_ofText] using stripped.symm
  · cases stripped

theorem rooted_concat (front : List String) :
    ∃ before, ∀ last, rooted (front ++ [last]) = before ++ last := by
  cases front with
  | nil => exact ⟨"/", by simp [rooted]⟩
  | cons first front =>
    refine ⟨rooted (first :: front) ++ "/", fun last => ?_⟩
    rw [rooted, String.intercalate_append_of_ne_nil (by simp) (by simp), String.intercalate_singleton]
    simp only [rooted, String.append_assoc]

theorem getLast_rooted {pieces : List String} (arePieces : ∀ t ∈ pieces, IsPiece t)
    (nonempty : pieces ≠ []) : (rooted pieces).toList.getLast? ≠ some '/' := by
  intro slash
  rw [← List.dropLast_concat_getLast nonempty] at slash
  have lastPiece := arePieces _ (List.getLast_mem nonempty)
  have chars : (pieces.getLast nonempty).toList ≠ [] :=
    fun empty => lastPiece.nonempty (by simpa using empty)
  obtain ⟨before, split⟩ := rooted_concat pieces.dropLast
  rw [split, String.toList_append, List.getLast?_append, List.getLast?_eq_some_getLast chars,
    Option.some_or, Option.some.injEq] at slash
  exact lastPiece.noSlash (slash ▸ List.getLast_mem chars)

/-- Joining the remaining pieces to the directory gives the path back. -/
theorem join_rooted {base rest : List String} (baseArePieces : ∀ t ∈ base, IsPiece t)
    (arePieces : ∀ t ∈ rest, IsPiece t) (nonempty : rest ≠ []) :
    join (rooted base) ("/".intercalate rest) = rooted (base ++ rest) := by
  unfold join
  rw [isAbsolute_intercalate arePieces]
  cases base with
  | nil => simp [rooted]
  | cons first base =>
    have notEmpty : (rooted (first :: base)).isEmpty = false := by simp [rooted]
    have noSlash := getLast_rooted baseArePieces (List.cons_ne_nil first base)
    rw [notEmpty, beq_false_of_ne noSlash]
    simp only [rooted, Bool.or_self, Bool.false_eq_true, if_false]
    rw [String.intercalate_append_of_ne_nil (List.cons_ne_nil first base) nonempty]
    simp only [String.append_assoc]

end CallAtlas.Path
