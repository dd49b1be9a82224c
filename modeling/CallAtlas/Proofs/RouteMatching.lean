import CallAtlas.Proofs.RouteFiles

/-!
# Routes take up paths

What a route means is said by the parts of a path that its segments take up, one segment after the other, until
nothing is left (`Consumes`).  A catch-all segment takes up any number of segments, or any number but none.
Nothing is said there about what comes behind it: the remaining segments of the route have to take up the rest.

The matcher gives its answer at the first catch-all segment and never looks behind it.  So it finds every way to
take up a path (`fits_of_consumes`), and where a catch-all stands last, as it does in every sensible route, it
finds nothing else (`consumes_of_fits`).
-/

namespace CallAtlas.Routes

open Text SourcePath

/-- The segments of the route take up those of the path from left to right, and nothing is left of either. -/
inductive Consumes : List String → List String → Prop where
  | done : Consumes [] []
  | plain {segment : String} {route path : List String} : kindOf segment = .plain →
      Consumes route path → Consumes (segment :: route) (segment :: path)
  | one {segment actual : String} {route path : List String} : kindOf segment = .one →
      Consumes route path → Consumes (segment :: route) (actual :: path)
  | rest {segment : String} {taken route path : List String} : kindOf segment = .rest → taken ≠ [] →
      Consumes route path → Consumes (segment :: route) (taken ++ path)
  | optionalRest {segment : String} {taken route path : List String} : kindOf segment = .optionalRest →
      Consumes route path → Consumes (segment :: route) (taken ++ path)

def isCatchAll (segment : String) : Bool := kindOf segment = .rest || kindOf segment = .optionalRest

/-- A catch-all segment stands only at the end of the route. -/
def CatchAllLast (route : List String) : Prop := ∀ segment ∈ route.dropLast, isCatchAll segment = false

/-- How the segments of each kind are written.  A name in brackets that begins with three points or with
    `[...` is that of a catch-all. -/
inductive Written : String → SegmentKind → Prop where
  | plain {segment : String} : segment.toList.head? ≠ some '[' → Written segment .plain
  | one {name : String} : ¬ "...".toList <+: name.toList → ¬ "[...".toList <+: name.toList →
      Written ("[" ++ name ++ "]") .one
  | rest (name : String) : Written ("[..." ++ name ++ "]") .rest
  | optionalRest (name : String) : Written ("[[..." ++ name ++ "]]") .optionalRest

/-! ## Kinds of segments -/

theorem startsWith_iff (start : String) (cs : List Char) : startsWith start cs = true ↔ start.toList <+: cs :=
  stripPrefix?_isSome_iff start.toList cs

theorem startsWith_append (start text : String) : startsWith start (start ++ text).toList = true := by
  rw [startsWith_iff, String.toList_append]
  exact List.prefix_append _ _

/-- Behind the opening bracket, a start without the closing one is a start of the name. -/
theorem startsWith_bracket_iff {start : List Char} (unclosed : start.getLast? ≠ some ']') (name : String) :
    startsWith (String.ofList ('[' :: start)) ("[" ++ name ++ "]").toList = true ↔ start <+: name.toList := by
  have spelled : ("[" ++ name ++ "]").toList = '[' :: (name.toList ++ [']']) := by simp
  rw [startsWith_iff, String.toList_ofList, spelled, List.cons_prefix_cons, List.prefix_concat_iff]
  constructor
  · rintro ⟨-, rfl | within⟩
    · simp at unclosed
    · exact within
  · exact fun within => ⟨rfl, .inr within⟩

theorem kindOf_of_written {segment : String} {kind : SegmentKind} (written : Written segment kind) :
    kindOf segment = kind := by
  cases written with
  | plain noBracket =>
    have differs (start : String) (opens : start.toList.head? = some '[') :
        startsWith start segment.toList = false := by
      rw [Bool.eq_false_iff, ne_eq, startsWith_iff]
      rintro ⟨rest, spelled⟩
      obtain ⟨tail, startSpelled⟩ := List.head?_eq_some_iff.mp opens
      rw [← spelled, startSpelled] at noBracket
      exact noBracket rfl
    rw [kindOf, differs _ (by decide), differs _ (by decide), differs _ (by decide)]
    rfl
  | @one name notRest notOptional =>
    have restDiffers : startsWith "[..." ("[" ++ name ++ "]").toList = false := by
      rw [Bool.eq_false_iff]
      exact fun starts => notRest ((startsWith_bracket_iff (by decide) name).mp starts)
    have optionalDiffers : startsWith "[[..." ("[" ++ name ++ "]").toList = false := by
      rw [Bool.eq_false_iff]
      exact fun starts => notOptional ((startsWith_bracket_iff (by decide) name).mp starts)
    have bracket : startsWith "[" ("[" ++ name ++ "]").toList = true := by
      rw [String.append_assoc]
      exact startsWith_append "[" (name ++ "]")
    rw [kindOf, optionalDiffers, restDiffers, bracket]
    rfl
  | rest name =>
    have notOptional : startsWith "[[..." ("[..." ++ (name ++ "]")).toList = false := by
      rw [String.toList_append]
      rfl
    rw [kindOf, String.append_assoc, notOptional, startsWith_append]
    rfl
  | optionalRest name =>
    rw [kindOf, String.append_assoc, startsWith_append]
    rfl

/-! ## The matcher and the meaning of a route -/

theorem fits_of_consumes {route path : List String} (consumes : Consumes route path) : Fits route path := by
  induction consumes with
  | done => exact .done
  | plain kind _ inductionHypothesis => exact .plain kind inductionHypothesis
  | one kind _ inductionHypothesis => exact .one kind inductionHypothesis
  | @rest segment taken route path kind nonempty =>
    obtain ⟨first, more, rfl⟩ := List.exists_cons_of_ne_nil nonempty
    exact .rest kind
  | optionalRest kind => exact .optionalRest kind

theorem CatchAllLast.tail {segment : String} {route : List String} (last : CatchAllLast (segment :: route)) :
    CatchAllLast route := by
  cases route with
  | nil => exact fun _ member => absurd member List.not_mem_nil
  | cons second route => exact fun other member => last other (List.mem_cons_of_mem segment member)

theorem CatchAllLast.eq_nil {segment : String} {route : List String} (last : CatchAllLast (segment :: route))
    (catchAll : isCatchAll segment = true) : route = [] := by
  cases route with
  | nil => rfl
  | cons second route =>
    have notCatchAll := last segment List.mem_cons_self
    rw [catchAll] at notCatchAll
    cases notCatchAll

theorem consumes_of_fits {route path : List String} (last : CatchAllLast route) (fits : Fits route path) :
    Consumes route path := by
  induction fits with
  | done => exact .done
  | plain kind _ inductionHypothesis => exact .plain kind (inductionHypothesis last.tail)
  | one kind _ inductionHypothesis => exact .one kind (inductionHypothesis last.tail)
  | @rest segment actual route path kind =>
    obtain rfl := last.eq_nil (by simp [isCatchAll, kind])
    have taken : actual :: path = actual :: path ++ [] := by simp
    rw [taken]
    exact .rest kind (List.cons_ne_nil actual path) .done
  | @optionalRest segment route path kind =>
    obtain rfl := last.eq_nil (by simp [isCatchAll, kind])
    rw [← List.append_nil path]
    exact .optionalRest kind .done

/-- A route in which a catch-all stands only at the end fits a path if and only if its segments take up those of
    the path.  Every route fits itself, read as a path.  The kind of a segment is told by how it opens, so a
    segment that is written as one of its kind has that kind. -/
theorem fits_iff_consumes (route path : String) :
    (CatchAllLast (segmentsOf route) →
      (fits route path = true ↔ Consumes (segmentsOf route) (segmentsOf path))) ∧
    fits route route = true ∧
    ∀ segment kind, Written segment kind → kindOf segment = kind := by
  refine ⟨fun last => ?_, ?_, fun segment kind => kindOf_of_written⟩
  · rw [fits, segmentsFit_iff]
    exact ⟨consumes_of_fits last, fits_of_consumes⟩
  · rw [fits, segmentsFit_iff]
    exact Fits.refl _

/-- One segment is left for the catch-all, which takes it up. -/
theorem fits_iff_consumes_docs :
    CatchAllLast (segmentsOf "/docs/[lang]/[...slug]") ∧ Written "[lang]" .one ∧
    (fits "/docs/[lang]/[...slug]" "//docs/en/a/" = true ↔
      Consumes ["docs", "[lang]", "[...slug]"] ["docs", "en", "a"]) ∧
    kindOf "[lang]" = .one := by
  have routeCut : segmentsOf "/docs/[lang]/[...slug]" = ["docs", "[lang]", "[...slug]"] := by decide
  have pathCut : segmentsOf "//docs/en/a/" = ["docs", "en", "a"] := by decide
  have last : CatchAllLast (segmentsOf "/docs/[lang]/[...slug]") := by
    rw [routeCut]
    intro segment member
    have listed : segment = "docs" ∨ segment = "[lang]" := by simpa using member
    rcases listed with rfl | rfl <;> decide
  have written : Written ("[" ++ "lang" ++ "]") .one := .one (by decide) (by decide)
  obtain ⟨taken, -, kinds⟩ := fits_iff_consumes "/docs/[lang]/[...slug]" "//docs/en/a/"
  have meets := taken last
  rw [routeCut, pathCut] at meets
  exact ⟨last, written, meets, kinds _ _ written⟩

end CallAtlas.Routes
