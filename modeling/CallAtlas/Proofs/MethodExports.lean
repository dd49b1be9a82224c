import CallAtlas.Proofs.ReportedDeclarations

/-!
# The exports of methods

A unit is exported if the node at which it is found stands in an export, or if its file exports its name somewhere else
(`exported_unitOf_iff`).  A method is found at its class, so an export around the class counts for both.  An export by
name counts for the class alone, since the name of the method is another one (`exported_method_iff`).
-/

namespace CallAtlas

open Syntax Syntax.Tree

/-- The file exports a name apart from its declaration: in a list, or as the first of its default exports. -/
inductive ExportsName (source : String) (root : Tree) (name : String) : Prop where
  | listed {statement clause spec n : Tree} : statement ∈ root.children → isOwnExport statement = true →
      statement.childOf .exportClause = some clause → spec ∈ clause.children → spec.childIn .name = some n →
      n.text source = name → ExportsName source root name
  | default {before after : List Tree} {statement : Tree} : root.children = before ++ statement :: after →
      (∀ t ∈ before, defaultNameOf source t = none) → defaultNameOf source statement = some (some name) →
      ExportsName source root name

/-- The unit `m` is a method in the body of the unit `c`. -/
def Candidate.MethodOf (m c : Candidate) : Prop :=
  m.declaration.kind = .methodDefinition ∧
    ∃ i j, c.declaration.indexIn .body = some i ∧ m.place = c.place ++ [i, j]

/-! ## Names -/

section

variable {source : String} {root : Tree} {name : String}

theorem mem_listedNames_iff : name ∈ listedNames source root ↔
    ∃ statement ∈ root.children, isOwnExport statement = true ∧ ∃ clause, statement.childOf .exportClause = some clause ∧
      ∃ spec ∈ clause.children, ∃ n, spec.childIn .name = some n ∧ n.text source = name := by
  have mem_ownSpecifiers (statement spec : Tree) : spec ∈ ownSpecifiers statement ↔
      ∃ clause, statement.childOf .exportClause = some clause ∧ spec ∈ clause.children := by
    cases inStatement : statement.childOf .exportClause <;> simp [ownSpecifiers, inStatement]
  simp only [listedNames, List.mem_flatMap, List.mem_filter, List.mem_filterMap, mem_ownSpecifiers,
    Option.map_eq_some_iff]
  grind

theorem defaultName_eq_some_iff : defaultName source root = some name ↔
    ∃ before statement after, root.children = before ++ statement :: after ∧
      (∀ t ∈ before, defaultNameOf source t = none) ∧ defaultNameOf source statement = some (some name) := by
  rw [defaultName, Option.join_eq_some_iff, List.findSome?_eq_some_iff]
  grind

theorem exportsName_iff : ExportsName source root name ↔
    name ∈ listedNames source root ∨ defaultName source root = some name := by
  rw [mem_listedNames_iff, defaultName_eq_some_iff]
  constructor
  · rintro (⟨inFile, isOwn, inStatement, inClause, hasName, spelled⟩ | ⟨split, isFirst, isDefault⟩)
    · exact .inl ⟨_, inFile, isOwn, _, inStatement, _, inClause, _, hasName, spelled⟩
    · exact .inr ⟨_, _, _, split, isFirst, isDefault⟩
  · rintro (⟨_, inFile, isOwn, _, inStatement, _, inClause, _, hasName, spelled⟩ | ⟨_, _, _, split, isFirst, isDefault⟩)
    · exact .listed inFile isOwn inStatement inClause hasName spelled
    · exact .default split isFirst isDefault

end

/-! ## Flags -/

section

variable {s : ParsedSource} {c m : Candidate}

theorem exported_unitOf_iff (member : c ∈ s.candidates) :
    (s.unitOf c).exported = true ↔ StandsInExport s.root c.foundAt ∨ ExportsName s.text s.root c.name := by
  obtain ⟨r, about⟩ := Candidate.exists_isAbout member
  obtain ⟨front, n, short, isFound, -⟩ := Candidate.exists_foundAt member
  obtain ⟨node, found⟩ := isFound.finder_at?
  have own : c.exported = true ↔ StandsInExport s.root c.foundAt := by
    rw [about.exported, (exportFlags_trailTo found).1]
  rw [exportsName_iff, ← own]
  simp [ParsedSource.unitOf, ParsedSource.markExports, ParsedSource.unitAlone, or_assoc]

/-- A method is found at its class, and called by the name of the class. -/
theorem Candidate.MethodOf.found (inC : c ∈ s.candidates) (inM : m ∈ s.candidates) (isMethod : m.MethodOf c) :
    IsClassAt s.root c.place c.declaration ∧ (∃ short, m.name = c.name ++ "." ++ short) ∧
      c.foundAt = c.place ∧ m.foundAt = c.place := by
  obtain ⟨isKind, i, j, -, below⟩ := isMethod
  have above : m.foundAt = c.place := by simp [Candidate.foundAt, finder, isKind, below]
  have atC := (Candidate.foundAt_cases inC).1
  obtain ⟨front, n, short, isFound, -, named⟩ := Candidate.exists_foundAt inM
  rw [above, below] at isFound
  -- Only a method stands at another place than the one where it is found.
  generalize atPlace : c.place ++ [i, j] = q, some n = name? at isFound
  cases isFound with
  | function | class_ | variable_ => simp at atPlace
  | method atC' isClass hasName isName =>
    obtain rfl := Option.some.inj (atC.symm.trans atC')
    have isFoundAlone : FoundAt s.text s.root c.place c.place c.declaration "" _ := .class_ atC isClass hasName
    have foundAlone : c.foundAt = c.place := isFoundAlone.eq_finder.symm
    -- The class is found under the name that its methods have in front.
    obtain ⟨front', n', short', isFound', isName', named'⟩ := Candidate.exists_foundAt inC
    rw [foundAlone] at isFound'
    obtain ⟨_, hasName', ⟨-, -, rfl, same⟩ | ⟨_, -, inBody, -⟩⟩ := isFound'.of_isClassAt atC isClass
    · obtain rfl := Option.some.inj same
      obtain rfl := Option.some.inj (hasName.symm.trans hasName')
      have sameName : c.name = _ := named'.trans (String.empty_append.trans (isName'.1.symm.trans isName.1))
      exact ⟨isClass, ⟨short, by rw [named, sameName]⟩, foundAlone, above⟩
    · obtain ⟨_, _, _, same, -⟩ := (mem_membersAt_iff _ _ _ _).mp inBody
      simp at same

end

/-- Of a class and its method, both are exported if the class stands in an export, and each is if the file exports its
    name.  So they differ where the class is exported by its name alone. -/
theorem exported_method_iff (s : ParsedSource) (c m : Candidate) (inC : c ∈ s.candidates) (inM : m ∈ s.candidates)
    (isMethod : m.MethodOf c) :
    IsClassAt s.root c.place c.declaration ∧ (∃ short, m.name = c.name ++ "." ++ short) ∧
    ((s.unitOf c).exported = true ↔ StandsInExport s.root c.place ∨ ExportsName s.text s.root c.name) ∧
    ((s.unitOf m).exported = true ↔ StandsInExport s.root c.place ∨ ExportsName s.text s.root m.name) ∧
    ((s.unitOf m).exported = (s.unitOf c).exported ↔
      StandsInExport s.root c.place ∨ (ExportsName s.text s.root m.name ↔ ExportsName s.text s.root c.name)) := by
  obtain ⟨isClass, named, foundC, foundM⟩ := isMethod.found inC inM
  have ofClass := exported_unitOf_iff inC
  have ofMethod := exported_unitOf_iff inM
  rw [foundC] at ofClass
  rw [foundM] at ofMethod
  refine ⟨isClass, named, ofClass, ofMethod, ?_⟩
  -- Outside of an export, the flags are the two names.
  rw [Bool.eq_iff_iff, ofClass, ofMethod]
  by_cases inExport : StandsInExport s.root c.place <;> simp [inExport]

/-- A class that is exported where it stands. -/
def exportedClass : ParsedSource :=
  let text := "export default class C \x7b m() \x7b\x7d \x7d\n"
  ⟨"a.ts", text, Tree.ofText .typeScript text⟩

theorem exportedClass_flags : ∃ c ∈ exportedClass.candidates, ∃ m ∈ exportedClass.candidates, m.MethodOf c ∧
    (exportedClass.unitOf c).exported = true ∧ (exportedClass.unitOf m).exported = true := by
  have facts : (exportedClass.root.at? [0]).map (·.kind) = some .exportStatement ∧
      ∃ c ∈ exportedClass.candidates, ∃ m ∈ exportedClass.candidates, c.place = [0, 2] ∧
        c.declaration.indexIn .body = some 2 ∧ m.place = [0, 2, 2, 1] ∧ m.declaration.kind = .methodDefinition := by
    decide +kernel
  obtain ⟨atFront, c, inC, m, inM, placeC, hasBody, placeM, isKind⟩ := facts
  obtain ⟨statement, found, isExport⟩ := Option.map_eq_some_iff.mp atFront
  have isMethod : m.MethodOf c := ⟨isKind, 2, 1, hasBody, by rw [placeC, placeM]; rfl⟩
  have inExport : StandsInExport exportedClass.root c.place := ⟨[0], 2, statement, placeC, found, isExport⟩
  obtain ⟨-, -, ofClass, ofMethod, -⟩ := exported_method_iff exportedClass c m inC inM isMethod
  exact ⟨c, inC, m, inM, isMethod, ofClass.mpr (.inl inExport), ofMethod.mpr (.inl inExport)⟩

/-- A class that is exported by its name. -/
def listedClass : ParsedSource :=
  let text := "class C \x7b m() \x7b\x7d \x7d\nexport \x7b C \x7d;\n"
  ⟨"a.ts", text, Tree.ofText .typeScript text⟩

/-- The class is exported, and its method is not. -/
theorem listedClass_flags : ∃ c ∈ listedClass.candidates, ∃ m ∈ listedClass.candidates, m.MethodOf c ∧
    (listedClass.unitOf c).exported = true ∧ (listedClass.unitOf m).exported = false := by
  have facts : ∃ c ∈ listedClass.candidates, ∃ m ∈ listedClass.candidates, c.place = [0] ∧
      c.declaration.indexIn .body = some 2 ∧ m.place = [0, 2, 1] ∧ m.declaration.kind = .methodDefinition ∧
        (listedClass.unitOf c).exported = true ∧ (listedClass.unitOf m).exported = false := by
    decide +kernel
  obtain ⟨c, inC, m, inM, placeC, hasBody, placeM, isKind, flags⟩ := facts
  exact ⟨c, inC, m, inM, ⟨isKind, 2, 1, hasBody, by rw [placeC, placeM]; rfl⟩, flags⟩

end CallAtlas
