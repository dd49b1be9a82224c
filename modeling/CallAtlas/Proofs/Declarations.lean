import CallAtlas.Graph.Facts

/-!
# Names that are declared several times

The last declaration of a name counts.  There are two ways to ask for it: `lastDeclarations` keeps the
last declaration of every name of a file, and `lastNamed` looks one name up from the end.  They agree
(`lastNamed_eq_some_iff`), and what is kept has every name once (`lastDeclarations_names`).  Both give the
declaration of a name behind which no other stands (`unitNamed_eq_some_iff`).
-/

namespace CallAtlas

/-- The last declaration called `name`, with the calls made inside it. -/
def Extraction.lastNamed (e : Extraction) (name : String) : Option (CodeUnit × List CallSite) :=
  e.units.reverse.find? (·.1.name == name)

theorem lastDeclarations_cons (first : CodeUnit × List CallSite)
    (rest : List (CodeUnit × List CallSite)) :
    lastDeclarations (first :: rest) =
      if rest.any (·.1.name == first.1.name) then lastDeclarations rest
      else first :: lastDeclarations rest := rfl

theorem mem_of_mem_lastDeclarations {units : List (CodeUnit × List CallSite)}
    {unit : CodeUnit × List CallSite} (kept : unit ∈ lastDeclarations units) : unit ∈ units := by
  induction units with
  | nil => cases kept
  | cons first rest inductionHypothesis =>
    rw [lastDeclarations_cons] at kept
    split at kept
    · exact List.mem_cons_of_mem _ (inductionHypothesis kept)
    · rcases List.mem_cons.mp kept with rfl | kept
      · exact List.mem_cons_self
      · exact List.mem_cons_of_mem _ (inductionHypothesis kept)

theorem lastDeclarations_names (units : List (CodeUnit × List CallSite)) :
    (lastDeclarations units).Pairwise (fun a b => a.1.name ≠ b.1.name) := by
  induction units with
  | nil => exact .nil
  | cons first rest inductionHypothesis =>
    rw [lastDeclarations_cons]
    split
    · exact inductionHypothesis
    · rename_i alone
      refine .cons (fun later kept sameName => alone ?_) inductionHypothesis
      exact List.any_eq_true.mpr ⟨later, mem_of_mem_lastDeclarations kept, by simp [sameName]⟩

/-- Where all keys are different, every key is found once. -/
theorem filter_key_eq_singleton {α β : Type} [DecidableEq β] {key : α → β} {items : List α} {item : α}
    (different : (items.map key).Nodup) (member : item ∈ items) :
    items.filter (fun other => key other = key item) = [item] := by
  obtain ⟨before, after, rfl⟩ := List.append_of_mem member
  obtain ⟨-, behind, apart⟩ := List.pairwise_append.mp (List.pairwise_map.mp different)
  have noneBefore : before.filter (fun other => key other = key item) = [] := by
    simpa [List.filter_eq_nil_iff] using fun other inBefore => apart other inBefore item List.mem_cons_self
  have noneAfter : after.filter (fun other => key other = key item) = [] := by
    simpa [List.filter_eq_nil_iff] using fun other inAfter =>
      Ne.symm ((List.pairwise_cons.mp behind).1 other inAfter)
  simp [List.filter_append, noneBefore, noneAfter]

/-- From the end, the first declaration of a name is the one that is kept. -/
theorem find_reverse_eq_some_iff (units : List (CodeUnit × List CallSite)) (name : String)
    (unit : CodeUnit × List CallSite) :
    units.reverse.find? (·.1.name == name) = some unit ↔
      unit ∈ lastDeclarations units ∧ unit.1.name = name := by
  induction units with
  | nil => simp [lastDeclarations]
  | cons first rest inductionHypothesis =>
    rw [List.reverse_cons, List.find?_append, Option.or_eq_some_iff, inductionHypothesis,
      List.find?_eq_none, lastDeclarations_cons]
    -- The first declaration counts if and only if no later one has its name.
    by_cases again : (rest.any (·.1.name == first.1.name)) = true
    · simp only [again, ↓reduceIte, or_iff_left_iff_imp, List.find?_singleton]
      rintro ⟨noneLater, found⟩
      obtain ⟨later, member, sameName⟩ := List.any_eq_true.mp again
      split at found
      · rename_i named
        exact absurd (by simp_all) (noneLater later (List.mem_reverse.mpr member))
      · cases found
    · simp only [again, Bool.false_eq_true, ↓reduceIte, List.find?_singleton, List.mem_cons]
      constructor
      · rintro (⟨kept, named⟩ | ⟨-, found⟩)
        · exact ⟨.inr kept, named⟩
        · split at found
          · rename_i named
            cases found
            exact ⟨.inl rfl, by simpa using named⟩
          · cases found
      · rintro ⟨rfl | kept, named⟩
        · refine .inr ⟨fun later member sameName => again ?_, by simp [named]⟩
          exact List.any_eq_true.mpr ⟨later, List.mem_reverse.mp member, by simpa [named] using sameName⟩
        · exact .inl ⟨kept, named⟩

/-- The two ways to ask for the last declaration of a name agree. -/
theorem lastNamed_eq_some_iff (e : Extraction) (name : String) (unit : CodeUnit × List CallSite) :
    e.lastNamed name = some unit ↔ unit ∈ lastDeclarations e.units ∧ unit.1.name = name :=
  find_reverse_eq_some_iff e.units name unit

/-- Every name that is declared is kept. -/
theorem exists_mem_lastDeclarations_iff (units : List (CodeUnit × List CallSite)) (name : String) :
    (∃ unit ∈ lastDeclarations units, unit.1.name = name) ↔ ∃ unit ∈ units, unit.1.name = name := by
  constructor
  · rintro ⟨unit, kept, named⟩
    exact ⟨unit, mem_of_mem_lastDeclarations kept, named⟩
  · rintro ⟨unit, member, named⟩
    have found : (units.reverse.find? (·.1.name == name)).isSome = true :=
      List.find?_isSome.mpr ⟨unit, List.mem_reverse.mpr member, by simp [named]⟩
    obtain ⟨last, isLast⟩ := Option.isSome_iff_exists.mp found
    exact ⟨last, (find_reverse_eq_some_iff units name last).mp isLast⟩

/-! ## Units without their calls -/

/-- `u` is the last of the units called `name`. -/
def IsLastNamed (name : String) (units : List CodeUnit) (u : CodeUnit) : Prop :=
  u.name = name ∧ ∃ before after, units = before ++ u :: after ∧ ∀ later ∈ after, later.name ≠ name

theorem unitNamed_eq_some_iff (name : String) (units : List CodeUnit) (u : CodeUnit) :
    unitNamed name units = some u ↔ IsLastNamed name units u := by
  unfold unitNamed IsLastNamed
  rw [List.find?_eq_some_iff_append]
  simp only [beq_iff_eq, Bool.not_eq_eq_eq_not, Bool.not_true, beq_eq_false_iff_ne, ne_eq]
  refine and_congr_right fun _ => ⟨?_, ?_⟩
  · rintro ⟨after, before, shape, others⟩
    refine ⟨before.reverse, after.reverse, ?_, fun later member => others later (by simpa using member)⟩
    simpa using congrArg List.reverse shape
  · rintro ⟨before, after, shape, others⟩
    refine ⟨after.reverse, before.reverse, ?_, fun later member => others later (by simpa using member)⟩
    simp [shape]

theorem unitNamed_eq_none_iff (name : String) (units : List CodeUnit) :
    unitNamed name units = none ↔ ∀ u ∈ units, u.name ≠ name := by
  simp [unitNamed]

/-- The units of a file do not depend on whether their calls are asked for. -/
theorem ParsedSource.unitsWithCalls_units (source : ParsedSource) :
    source.unitsWithCalls.map (·.1) = source.units := by
  simp [unitsWithCalls, units, Function.comp_def]

theorem unitNamed_map_of_lastNamed {e : Extraction} {name : String} {unit : CodeUnit × List CallSite}
    (found : e.lastNamed name = some unit) : unitNamed name (e.units.map (·.1)) = some unit.1 := by
  unfold unitNamed
  rw [← List.map_reverse, List.find?_map, Option.map_eq_some_iff]
  exact ⟨unit, found, rfl⟩

theorem unitNamed_of_lastNamed {source : ParsedSource} {name : String}
    {unit : CodeUnit × List CallSite}
    (found : (Extraction.ofSource source).lastNamed name = some unit) :
    unitNamed name source.units = some unit.1 := by
  rw [← source.unitsWithCalls_units]
  exact unitNamed_map_of_lastNamed found

end CallAtlas
