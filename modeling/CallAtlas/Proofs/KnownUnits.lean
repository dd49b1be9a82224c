import CallAtlas.Framework.Hint

/-!
# The units that hints can lead to

`KnownFiles` keeps files in the order of their paths, and with each the names of its units.  What can be
seen of it is settled by the pairs that were put in, in whatever order: its paths are those of the pairs,
in rising order (`mem_paths_ofPairs_iff`, `paths_ofPairs_rise`), and a unit is found if and only if its
pair was put in (`find_ofPairs_eq`).
-/

namespace CallAtlas.KnownFiles

/-- The paths rise from each file to the next. -/
def PathsRise (files : List (String × List String)) : Prop := files.Pairwise fun a b => a.1 < b.1

/-- The names of the units that are listed for a file. -/
def listedIn (files : List (String × List String)) (file : String) : List String :=
  ((files.find? (·.1 == file)).map (·.2)).getD []

theorem listedIn_cons (first : String × List String) (files : List (String × List String))
    (file : String) :
    listedIn (first :: files) file = if first.1 = file then first.2 else listedIn files file := by
  unfold listedIn
  by_cases named : first.1 = file <;> simp [named]

theorem listedIn_of_below {files : List (String × List String)} {file : String}
    (below : ∀ other ∈ files, file < other.1) : listedIn files file = [] := by
  have missing : files.find? (·.1 == file) = none := by
    rw [List.find?_eq_none]
    intro other member same
    exact String.ne_of_lt (below other member) (beq_iff_eq.mp same).symm
  simp [listedIn, missing]

/-! ## One more unit -/

theorem mem_paths_insertInto_iff (file unit path : String) (files : List (String × List String)) :
    path ∈ (insertInto file unit files).map (·.1) ↔ path = file ∨ path ∈ files.map (·.1) := by
  induction files with
  | nil => simp [insertInto]
  | cons first rest inductionHypothesis =>
    obtain ⟨firstFile, units⟩ := first
    unfold insertInto
    split
    · rename_i same
      obtain rfl := beq_iff_eq.mp same
      simp
    · split
      · simp
      · simp only [List.map_cons, List.mem_cons, inductionHypothesis]
        exact or_left_comm

theorem PathsRise.insertInto {files : List (String × List String)} (rise : PathsRise files)
    (file unit : String) : PathsRise (insertInto file unit files) := by
  induction files with
  | nil => exact List.pairwise_singleton _ _
  | cons first rest inductionHypothesis =>
    obtain ⟨firstFile, units⟩ := first
    obtain ⟨firstBelow, restRise⟩ := List.pairwise_cons.mp rise
    unfold KnownFiles.insertInto
    split
    · exact .cons firstBelow restRise
    · rename_i otherFile
      split
      · rename_i below
        refine .cons (fun other member => ?_) rise
        rcases List.mem_cons.mp member with rfl | member
        · exact below
        · exact String.lt_trans below (firstBelow other member)
      · rename_i notBelow
        have above : firstFile < file :=
          Std.lt_of_le_of_ne (String.not_lt.mp notBelow) fun same => otherFile (by simp [same])
        refine .cons (fun other member => ?_) (inductionHypothesis restRise)
        rcases (mem_paths_insertInto_iff file unit other.1 rest).mp (List.mem_map_of_mem member) with
          same | old
        · rw [same]
          exact above
        · obtain ⟨older, olderMember, same⟩ := List.mem_map.mp old
          rw [← same]
          exact firstBelow older olderMember

theorem listedIn_insertInto {files : List (String × List String)} (rise : PathsRise files)
    (file unit asked : String) :
    listedIn (insertInto file unit files) asked =
      if file = asked then listedIn files asked ++ [unit] else listedIn files asked := by
  induction files with
  | nil => by_cases here : file = asked <;> simp [insertInto, listedIn, here]
  | cons first rest inductionHypothesis =>
    obtain ⟨firstFile, units⟩ := first
    obtain ⟨firstBelow, restRise⟩ := List.pairwise_cons.mp rise
    unfold insertInto
    split
    · rename_i same
      obtain rfl := beq_iff_eq.mp same
      by_cases here : file = asked <;> simp [listedIn_cons, here]
    · rename_i otherFile
      have differ : file ≠ firstFile := fun same => otherFile (by simp [same])
      split
      · rename_i below
        by_cases here : file = asked
        · subst here
          -- Files behind it have greater paths, so this one had no units before.
          have new : listedIn rest file = [] :=
            listedIn_of_below fun other member => String.lt_trans below (firstBelow other member)
          simp [listedIn_cons, new, differ.symm]
        · simp [listedIn_cons, here]
      · rw [listedIn_cons, listedIn_cons, inductionHypothesis restRise]
        by_cases first : firstFile = asked
        · subst first
          simp [differ]
        · simp [first]

/-! ## All units -/

theorem pathsRise_foldl (pairs : List (String × String)) {known : KnownFiles}
    (rise : PathsRise known.files) :
    PathsRise (pairs.foldl (fun known p => known.insert p.1 p.2) known).files := by
  induction pairs generalizing known with
  | nil => exact rise
  | cons p pairs inductionHypothesis => exact inductionHypothesis (rise.insertInto p.1 p.2)

theorem mem_paths_foldl_iff (pairs : List (String × String)) (known : KnownFiles) (path : String) :
    path ∈ (pairs.foldl (fun known p => known.insert p.1 p.2) known).paths ↔
      path ∈ known.paths ∨ ∃ name, (path, name) ∈ pairs := by
  induction pairs generalizing known with
  | nil => simp
  | cons p pairs inductionHypothesis =>
    obtain ⟨file, unit⟩ := p
    rw [List.foldl_cons, inductionHypothesis]
    simp only [paths, insert, mem_paths_insertInto_iff, List.mem_cons, Prod.mk.injEq, exists_or]
    constructor
    · rintro ((rfl | old) | later)
      · exact .inr (.inl ⟨unit, rfl, rfl⟩)
      · exact .inl old
      · exact .inr (.inr later)
    · rintro (old | ⟨_, rfl, -⟩ | later)
      · exact .inl (.inr old)
      · exact .inl (.inl rfl)
      · exact .inr later

theorem mem_unitsIn_foldl_iff (pairs : List (String × String)) {known : KnownFiles}
    (rise : PathsRise known.files) (file name : String) :
    name ∈ (pairs.foldl (fun known p => known.insert p.1 p.2) known).unitsIn file ↔
      name ∈ known.unitsIn file ∨ (file, name) ∈ pairs := by
  induction pairs generalizing known with
  | nil => simp
  | cons p pairs inductionHypothesis =>
    have step : name ∈ (known.insert p.1 p.2).unitsIn file ↔
        name ∈ known.unitsIn file ∨ (file, name) = p := by
      change name ∈ listedIn (insertInto p.1 p.2 known.files) file ↔
        name ∈ listedIn known.files file ∨ _
      rw [listedIn_insertInto rise]
      split
      · rename_i here
        simp [← here, Prod.ext_iff]
      · rename_i elsewhere
        simp [Prod.ext_iff, Ne.symm elsewhere]
    have stillRise : PathsRise (known.insert p.1 p.2).files := rise.insertInto p.1 p.2
    rw [List.foldl_cons, inductionHypothesis stillRise, step, List.mem_cons, or_assoc]

section

variable (pairs : List (String × String))

theorem paths_ofPairs_rise : (ofPairs pairs).paths.Pairwise (· < ·) :=
  List.pairwise_map.mpr (pathsRise_foldl pairs .nil)

theorem mem_paths_ofPairs_iff (path : String) :
    path ∈ (ofPairs pairs).paths ↔ ∃ name, (path, name) ∈ pairs := by
  rw [ofPairs, mem_paths_foldl_iff]
  simp [paths, empty]

/-- A unit is found under its file if and only if its pair was put in. -/
theorem find_ofPairs_eq (file name : String) :
    (ofPairs pairs).find file name =
      if (file, name) ∈ pairs then some (nodeId file name) else none := by
  have known : name ∈ (ofPairs pairs).unitsIn file ↔ name ∈ empty.unitsIn file ∨ (file, name) ∈ pairs :=
    mem_unitsIn_foldl_iff pairs .nil file name
  unfold find
  simp only [List.contains_iff_mem, known]
  simp [unitsIn, empty]

end

end CallAtlas.KnownFiles
