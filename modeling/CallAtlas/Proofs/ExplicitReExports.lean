import CallAtlas.Proofs.EdgesPerSource
import CallAtlas.Proofs.ReExportChains
import CallAtlas.Proofs.SearchViews

/-!
# Explicit re-exports beside stars

A barrel passes on a name that it does not have.  In modules of the language an explicit re-export of the
name goes before every `export *`.  The search takes the re-exports in the order in which they stand, so
the explicit one is taken if no star before it has the name, and otherwise the first such star is
(`resolveCall_explicit`).  Stars after it never matter.
-/

namespace CallAtlas

open Text

/-- A loaded file that does not have the name itself and passes it on by exactly one explicit re-export,
    which leads to a loaded file that provides what it asks for. -/
structure Barrel (facts : List FileFacts) (resolve : String → String → Option String)
    (name : String) where
  path : String
  file : FileFacts
  loaded : facts.find? (fun f => samePath f.path path) = some file
  notHere : ∀ id, ¬ Provides facts file name id
  before : List ReExport
  explicit : ReExport
  after : List ReExport
  declared : file.reExports = before ++ explicit :: after
  named : explicit.exportedName = name
  onlyBefore : ∀ r ∈ before, r.exportedName ≠ name
  onlyAfter : ∀ r ∈ after, r.exportedName ≠ name
  originPath : String
  leads : resolve file.path explicit.specifier = some originPath
  origin : FileFacts
  originLoaded : facts.find? (fun f => samePath f.path originPath) = some origin
  /-- What the explicit re-export means. -/
  id : String
  provided : Provides facts origin explicit.nameInModule id

/-- The file does not have the name, and the only import that binds it is one of that name from the file
    at the path. -/
structure FileFacts.ImportsFrom (f : FileFacts) (facts : List FileFacts)
    (resolve : String → String → Option String) (name path : String) : Prop where
  notHere : ∀ g ∈ facts, ∀ u ∈ g.units, nodeId g.relative u.1.name ≠ nodeId f.relative name
  bound : ∃ i ∈ f.imports, i.kind = .named ∧ i.localName = name ∧ i.nameInModule = name ∧
    resolve f.path i.specifier = some path ∧ ∀ j ∈ f.imports, j.localName = name → j = i

/-- The re-export of the file is a star, and leads to the id under the name. -/
def StarGives (facts : List FileFacts) (resolve : String → String → Option String) (f : FileFacts)
    (name : String) (r : ReExport) (id : String) : Prop :=
  r.exportedName = "*" ∧ name ≠ "default" ∧ ∃ target, resolve f.path r.specifier = some target ∧
    FirstChain facts resolve (Provides facts) 4 target name id

/-- The first star among the re-exports that leads anywhere under the name leads to the id. -/
def FirstStar (facts : List FileFacts) (resolve : String → String → Option String) (f : FileFacts)
    (name : String) (reExports : List ReExport) (id : String) : Prop :=
  ∃ earlier r later, reExports = earlier ++ r :: later ∧ StarGives facts resolve f name r id ∧
    ∀ r' ∈ earlier, ∀ id', ¬ StarGives facts resolve f name r' id'

/-! ## What a bare call asks of an import -/

theorem length_lt_of_cutAt {p : Char → Bool} {cs head rest : List Char}
    (cut : cutAt p cs = some (head, rest)) : rest.length < cs.length := by
  unfold cutAt at cut
  split at cut
  · cases cut
  · rename_i c after dropped
    simp only [Option.some.injEq, Prod.mk.injEq] at cut
    have shorter := (List.dropWhile_suffix (fun c => !p c) (l := cs)).length_le
    rw [dropped, List.length_cons, cut.2] at shorter
    omega

/-- A bare call asks nothing of a module that is imported as a whole. -/
theorem importedName_bare (i : Import) (name inner : String) :
    Scope.importedName i name name = some inner ↔
      i.kind ≠ .namespace ∧ i.localName = name ∧ i.nameInModule = inner := by
  unfold Scope.importedName
  split
  · rename_i whole
    simp only [whole, ne_eq, not_true_eq_false, false_and, iff_false]
    split
    · rename_i object member cut
      have shorter := length_lt_of_cutAt cut
      have notWhole : String.ofList member ≠ name := by
        rintro rfl
        simp at shorter
      simp [notWhole]
    · simp
  · rename_i kind
    simp [kind]
  · rename_i kind
    simp [kind]

section

variable {facts : List FileFacts} {resolve : String → String → Option String} {name : String}

/-- The call asks the file at the path for the name. -/
theorem FileFacts.ImportsFrom.resolveCall_value {f : FileFacts} {path : String}
    (imports : f.ImportsFrom facts resolve name path) (caller : CodeUnit) :
    ((Scope.ofFacts facts resolve).resolveCall f caller name name).value =
      ((Scope.ofFacts facts resolve).lookupExport maxHops path name).value := by
  obtain ⟨i, member, kind, isLocal, isInner, leads, only⟩ := imports.bound
  have notHere : (Scope.ofFacts facts resolve).localTarget f caller name name = none := by
    simp only [Scope.localTarget, beq_self_eq_true, ↓reduceIte]
    rw [Option.eq_none_iff_forall_ne_some]
    intro id found
    rw [Scope.definedIn_eq_some_iff, isNode_ofFacts_iff] at found
    obtain ⟨rfl, g, loaded, u, inFile, same⟩ := found
    exact imports.notHere g loaded u inFile same
  rw [Scope.resolveCall_value, notHere, Option.none_or, findSome_eq_of_only member]
  · have asks : Scope.importedName i name name = some name := by
      rw [importedName_bare, kind]
      exact ⟨by simp, isLocal, isInner⟩
    have leads : (Scope.ofFacts facts resolve).resolve f.path i.specifier = some path := leads
    rw [Scope.importTarget_value, asks, Option.bind_some, leads, Option.bind_some]
  · intro j inFile found
    rw [Scope.importTarget_value] at found
    cases asked : Scope.importedName j name name with
    | none => simp [asked] at found
    | some inner => exact only j inFile ((importedName_bare j name inner).mp asked).2.1

/-! ## What the re-exports of a barrel lead to -/

/-- What the search finds through one re-export. -/
def Scope.throughReExport (s : Scope) (hops : Nat) (f : FileFacts) (name : String) (r : ReExport) :
    Option String :=
  (Scope.passedOn r name).bind fun inner =>
    (s.resolve f.path r.specifier).bind fun target => (s.lookupExport hops target inner).value

theorem throughReExport_star {f : FileFacts} {r : ReExport} (other : r.exportedName ≠ name)
    (id : String) :
    (Scope.ofFacts facts resolve).throughReExport 4 f name r = some id ↔
      StarGives facts resolve f name r id := by
  unfold Scope.throughReExport StarGives
  rw [Option.bind_eq_some_iff]
  simp only [← ReExport.passesOn_iff, Option.bind_eq_some_iff, lookupExport_eq_some_iff]
  constructor
  · rintro ⟨inner, passes, target, leads, first⟩
    rcases passes with ⟨same, -⟩ | ⟨-, star, notDefault, rfl⟩
    · exact absurd same other
    · exact ⟨star, notDefault, target, leads, first⟩
  · rintro ⟨star, notDefault, target, leads, first⟩
    exact ⟨name, .inr ⟨other, star, notDefault, rfl⟩, target, leads, first⟩

theorem findSome_throughReExport_iff {f : FileFacts} {reExports : List ReExport}
    (others : ∀ r ∈ reExports, r.exportedName ≠ name) (id : String) :
    reExports.findSome? ((Scope.ofFacts facts resolve).throughReExport 4 f name) = some id ↔
      FirstStar facts resolve f name reExports id := by
  rw [List.findSome?_eq_some_iff]
  constructor
  · rintro ⟨earlier, r, later, rfl, found, lost⟩
    refine ⟨earlier, r, later, rfl, (throughReExport_star (others r (by simp)) id).mp found, ?_⟩
    intro r' member id' gives
    have found' := (throughReExport_star (others r' (by simp [member])) id').mpr gives
    rw [lost r' member] at found'
    cases found'
  · rintro ⟨earlier, r, later, rfl, gives, lost⟩
    refine ⟨earlier, r, later, rfl, (throughReExport_star (others r (by simp)) id).mpr gives, ?_⟩
    intro r' member
    rw [Option.eq_none_iff_forall_ne_some]
    intro id' found
    exact lost r' member id' ((throughReExport_star (others r' (by simp [member])) id').mp found)

namespace Barrel

variable (barrel : Barrel facts resolve name)

theorem throughReExport_explicit :
    (Scope.ofFacts facts resolve).throughReExport 4 barrel.file name barrel.explicit =
      some barrel.id := by
  have leads : (Scope.ofFacts facts resolve).resolve barrel.file.path barrel.explicit.specifier =
      some barrel.originPath := barrel.leads
  have passes : Scope.passedOn barrel.explicit name = some barrel.explicit.nameInModule := by
    simp [Scope.passedOn, barrel.named]
  rw [Scope.throughReExport, passes, Option.bind_some, leads, Option.bind_some,
    lookupExport_eq_some_iff]
  exact firstChain_of_provided 4 barrel.originLoaded barrel.provided

/-- Only the re-exports before the explicit one are asked before it. -/
theorem lookupExport_eq :
    ((Scope.ofFacts facts resolve).lookupExport maxHops barrel.path name).value =
      (barrel.before.findSome?
        ((Scope.ofFacts facts resolve).throughReExport 4 barrel.file name)).or (some barrel.id) := by
  have atPath : (Scope.ofFacts facts resolve).factsAt barrel.path = some barrel.file := barrel.loaded
  have notHere := (not_provides_iff resolve barrel.file name).mp barrel.notHere
  calc ((Scope.ofFacts facts resolve).lookupExport maxHops barrel.path name).value
    _ = barrel.file.reExports.findSome?
          ((Scope.ofFacts facts resolve).throughReExport 4 barrel.file name) := by
      rw [maxHops, Scope.lookupExport_succ, atPath, Option.bind_some, notHere, Option.none_or]
      rfl
    _ = _ := by
      rw [barrel.declared, List.findSome?_append, List.findSome?_cons,
        barrel.throughReExport_explicit]

end Barrel

/-- A call of a name that is imported from a barrel reaches what the first star that has the name leads
    to, of the stars before the explicit re-export, and if there is none, what the explicit re-export
    means.  So it reaches the latter exactly if no star before it leads elsewhere. -/
theorem resolveCall_explicit (barrel : Barrel facts resolve name) {f : FileFacts}
    (imports : f.ImportsFrom facts resolve name barrel.path) (caller : CodeUnit) :
    (((Scope.ofFacts facts resolve).resolveCall f caller name name).value = some barrel.id ↔
      ∀ other, FirstStar facts resolve barrel.file name barrel.before other → other = barrel.id) ∧
    ∀ other, FirstStar facts resolve barrel.file name barrel.before other →
      ((Scope.ofFacts facts resolve).resolveCall f caller name name).value = some other := by
  rw [imports.resolveCall_value, barrel.lookupExport_eq]
  simp only [← findSome_throughReExport_iff barrel.onlyBefore]
  cases barrel.before.findSome? ((Scope.ofFacts facts resolve).throughReExport 4 barrel.file name) with
  | none => simp
  | some found => simp

end

/-! ## A barrel with a star and an explicit re-export -/

/-- A file with an exported function and nothing else. -/
def functionFile (path relative name : String) : FileFacts :=
  { path
    relative
    units := [(⟨name, .function, path, "()", "\x7b\x7d", "function " ++ name ++ "() \x7b\x7d", 1, 1,
      false, true, false, none⟩, [])]
    imports := []
    reExports := [] }

/-- The barrel passes on a name of `a.ts`, and all names of `b.ts`, which has the same name. -/
def barrelFile (starFirst : Bool) : FileFacts :=
  { path := "/p/c.ts"
    relative := "c.ts"
    units := []
    imports := []
    reExports := if starFirst then [⟨"*", "*", "./b"⟩, ⟨"f", "f", "./a"⟩]
      else [⟨"f", "f", "./a"⟩, ⟨"*", "*", "./b"⟩] }

def barrelCaller : FileFacts :=
  { functionFile "/p/main.ts" "main.ts" "m" with imports := [⟨"f", "f", "./c", .named⟩] }

def barrelFacts (starFirst : Bool) : List FileFacts :=
  [functionFile "/p/a.ts" "a.ts" "f", functionFile "/p/b.ts" "b.ts" "f", barrelFile starFirst,
    barrelCaller]

def barrelResolve (_ specifier : String) : Option String :=
  [("./a", "/p/a.ts"), ("./b", "/p/b.ts"), ("./c", "/p/c.ts")].lookup specifier

def barrelWith (starFirst : Bool) : Barrel (barrelFacts starFirst) barrelResolve "f" where
  path := "/p/c.ts"
  file := barrelFile starFirst
  loaded := by cases starFirst <;> rfl
  notHere := by
    rw [not_provides_iff barrelResolve]
    revert starFirst
    decide
  before := if starFirst then [⟨"*", "*", "./b"⟩] else []
  explicit := ⟨"f", "f", "./a"⟩
  after := if starFirst then [] else [⟨"*", "*", "./b"⟩]
  declared := by cases starFirst <;> rfl
  named := rfl
  onlyBefore := by revert starFirst; decide
  onlyAfter := by revert starFirst; decide
  originPath := "/p/a.ts"
  leads := rfl
  origin := functionFile "/p/a.ts" "a.ts" "f"
  originLoaded := by cases starFirst <;> rfl
  id := "a.ts:f"
  provided := by
    rw [provides_iff barrelResolve]
    revert starFirst
    decide

theorem barrelCaller_importsFrom (starFirst : Bool) :
    barrelCaller.ImportsFrom (barrelFacts starFirst) barrelResolve "f" (barrelWith starFirst).path := by
  constructor
  · revert starFirst
    decide
  · revert starFirst
    decide

/-- With the star last, the call reaches what the explicit re-export means. -/
theorem resolveCall_explicit_starLast :
    barrelCaller.ImportsFrom (barrelFacts false) barrelResolve "f" (barrelWith false).path ∧
    ∀ caller, ((Scope.ofFacts (barrelFacts false) barrelResolve).resolveCall barrelCaller caller
      "f" "f").value = some "a.ts:f" := by
  refine ⟨barrelCaller_importsFrom false, fun caller => ?_⟩
  apply (resolveCall_explicit (barrelWith false) (barrelCaller_importsFrom false) caller).1.mpr
  rintro other ⟨earlier, r, later, split, -⟩
  simp [barrelWith] at split

/-- With the star first, the call reaches a unit of another file. -/
theorem resolveCall_starFirst :
    barrelCaller.ImportsFrom (barrelFacts true) barrelResolve "f" (barrelWith true).path ∧
    (barrelWith true).id = "a.ts:f" ∧
    ∀ caller, ((Scope.ofFacts (barrelFacts true) barrelResolve).resolveCall barrelCaller caller
      "f" "f").value = some "b.ts:f" := by
  refine ⟨barrelCaller_importsFrom true, rfl, fun caller => ?_⟩
  rw [(barrelCaller_importsFrom true).resolveCall_value]
  decide +kernel

end CallAtlas
