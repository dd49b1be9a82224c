import CallAtlas.Proofs.Declarations

/-!
# One rule for names that are declared several times

A declaration counts if none with its name stands behind it (`IsLastAt`).  `lastDeclarations` keeps the
declarations at just these positions, in their order and each with its own calls (`exists_lastPositions`), so every
declared name is left once.  Asking a file for one unit, or an extraction for the calls of one unit, gives what is
kept under that name (`Answers`), and it makes no difference to the units of a file whether their calls are looked
for (`lastDeclarations_exact`).
-/

namespace CallAtlas

/-! ## Positions that count -/

/-- At the position `i` a name is declared for the last time. -/
def IsLastAt (units : List (CodeUnit × List CallSite)) (i : Nat) : Prop :=
  ∃ unit, units[i]? = some unit ∧
    ∀ j later, i < j → units[j]? = some later → later.1.name ≠ unit.1.name

section

variable {first : CodeUnit × List CallSite} {rest : List (CodeUnit × List CallSite)}

theorem isLastAt_cons_zero :
    IsLastAt (first :: rest) 0 ↔ (rest.any (·.1.name == first.1.name)) = false := by
  simp only [IsLastAt, List.getElem?_cons_zero, Option.some.injEq, exists_eq_left', List.any_eq_false, beq_iff_eq]
  constructor
  · intro noneLater later member
    obtain ⟨j, isLater⟩ := List.mem_iff_getElem?.mp member
    exact noneLater (j + 1) later (Nat.succ_pos j) isLater
  · intro noneLater j later behind isLater
    obtain ⟨k, rfl⟩ := Nat.exists_eq_succ_of_ne_zero (Nat.ne_of_gt behind)
    exact noneLater later (List.mem_iff_getElem?.mpr ⟨k, isLater⟩)

theorem isLastAt_cons_succ {i : Nat} : IsLastAt (first :: rest) (i + 1) ↔ IsLastAt rest i := by
  refine exists_congr fun unit => and_congr_right fun _ => ⟨?_, ?_⟩
  · intro noneLater j later behind isLater
    exact noneLater (j + 1) later (Nat.succ_lt_succ behind) isLater
  · intro noneLater j later behind isLater
    cases j with
    | zero => cases behind
    | succ j => exact noneLater j later (Nat.lt_of_succ_lt_succ behind) isLater

end

/-- What is kept are the declarations at the positions that count. -/
theorem exists_lastPositions (units : List (CodeUnit × List CallSite)) :
    ∃ kept : List Nat, kept.Pairwise (· < ·) ∧ (∀ i, i ∈ kept ↔ IsLastAt units i) ∧
      lastDeclarations units = kept.filterMap (units[·]?) := by
  induction units with
  | nil => exact ⟨[], .nil, by simp [IsLastAt], rfl⟩
  | cons first rest inductionHypothesis =>
    obtain ⟨kept, sorted, keptIff, listed⟩ := inductionHypothesis
    have shifted : (kept.map (· + 1)).Pairwise (· < ·) :=
      List.pairwise_map.mpr (sorted.imp Nat.succ_lt_succ)
    have shiftedIff (i : Nat) : i ∈ kept.map (· + 1) ↔ ∃ k, i = k + 1 ∧ IsLastAt (first :: rest) i := by
      simp only [List.mem_map, keptIff]
      constructor
      · rintro ⟨k, isLast, rfl⟩
        exact ⟨k, rfl, isLastAt_cons_succ.mpr isLast⟩
      · rintro ⟨k, rfl, isLast⟩
        exact ⟨k, isLastAt_cons_succ.mp isLast, rfl⟩
    have listedRest : (kept.map (· + 1)).filterMap ((first :: rest)[·]?) = lastDeclarations rest := by
      rw [listed, List.filterMap_map]
      rfl
    rw [lastDeclarations_cons]
    split
    · rename_i again
      refine ⟨kept.map (· + 1), shifted, fun i => ?_, listedRest.symm⟩
      rw [shiftedIff]
      cases i with
      | zero => simp [isLastAt_cons_zero, again]
      | succ i => simp
    · rename_i alone
      refine ⟨0 :: kept.map (· + 1), List.pairwise_cons.mpr ⟨?_, shifted⟩, fun i => ?_, ?_⟩
      · intro i member
        obtain ⟨k, rfl, -⟩ := (shiftedIff i).mp member
        exact Nat.succ_pos k
      · rw [List.mem_cons, shiftedIff]
        cases i with
        | zero => simpa [isLastAt_cons_zero] using alone
        | succ i => simp
      · rw [List.filterMap_cons, List.getElem?_cons_zero, listedRest]

/-! ## Asking for a name -/

/-- The unit and the calls that belong to a name: those of the one declaration that is kept under it, or none. -/
inductive Answers (e : Extraction) (name : String) : Option CodeUnit → List CallSite → Prop where
  | declared {unit : CodeUnit × List CallSite} :
      (lastDeclarations e.units).filter (·.1.name = name) = [unit] → Answers e name (some unit.1) unit.2
  | undeclared : (∀ unit ∈ e.units, unit.1.name ≠ name) → Answers e name none []

theorem Extraction.answers (e : Extraction) (name : String) :
    Answers e name (unitNamed name (e.units.map (·.1))) (e.callSites name) := by
  cases found : e.lastNamed name with
  | some unit =>
    obtain ⟨kept, rfl⟩ := (lastNamed_eq_some_iff e name unit).mp found
    have calls : e.callSites unit.1.name = unit.2 := by
      rw [Extraction.lastNamed] at found
      simp [Extraction.callSites, found]
    rw [unitNamed_map_of_lastNamed found, calls]
    exact .declared (filter_key_eq_singleton (List.pairwise_map.mpr (lastDeclarations_names e.units)) kept)
  | none =>
    rw [Extraction.lastNamed] at found
    have nowhere : ∀ unit ∈ e.units, unit.1.name ≠ name := by simpa using found
    have noUnit : unitNamed name (e.units.map (·.1)) = none := by
      rw [unitNamed_eq_none_iff]
      simpa using nowhere
    have noCalls : e.callSites name = [] := by simp [Extraction.callSites, found]
    rw [noUnit, noCalls]
    exact .undeclared nowhere

/-- Of every name, the last declaration counts, whichever way one asks for it: in what is kept of an extraction, in
    the unit that a file is asked for, and in the calls made inside of it.  The units and the issues of a file are
    the same with and without calls. -/
theorem lastDeclarations_exact :
    (∀ e : Extraction,
      (∃ kept : List Nat, kept.Pairwise (· < ·) ∧ (∀ i, i ∈ kept ↔ IsLastAt e.units i) ∧
        lastDeclarations e.units = kept.filterMap (e.units[·]?)) ∧
      ∀ name, Answers e name (unitNamed name (e.units.map (·.1))) (e.callSites name)) ∧
    (∀ s : ParsedSource, (Extraction.ofSource s).units.map (·.1) = s.units ∧
      (Extraction.ofSource s).issues = s.issues ∧
      ∀ name, Answers (Extraction.ofSource s) name (unitNamed name s.units)
        ((Extraction.ofSource s).callSites name)) ∧
    ∀ (tree : FileTree) (limit : Nat) (path : String),
      unitsOfFile tree limit path =
        (Extraction.ofFile tree limit path).map (fun e => (e.units.map (·.1), e.issues)) ∧
      ∀ name, unitOfFile tree limit path name =
        (Extraction.ofFile tree limit path).map fun e => unitNamed name (e.units.map (·.1)) := by
  have sameUnits (s : ParsedSource) : (Extraction.ofSource s).units.map (·.1) = s.units :=
    s.unitsWithCalls_units
  refine ⟨fun e => ⟨exists_lastPositions e.units, e.answers⟩, fun s => ⟨sameUnits s, rfl, fun name => ?_⟩, ?_⟩
  · rw [← sameUnits s]
    exact (Extraction.ofSource s).answers name
  · intro tree limit path
    cases read : ParsedSource.ofFile tree limit path with
    | error e => simp [unitOfFile, unitsOfFile, Extraction.ofFile, read, Except.map]
    | ok s =>
      have issues : (Extraction.ofSource s).issues = s.issues := rfl
      simp [unitOfFile, unitsOfFile, Extraction.ofFile, read, Except.map, sameUnits, issues]

end CallAtlas
