import CallAtlas.Proofs.EdgesPerSource
import CallAtlas.Proofs.FoundDeclarations
import CallAtlas.Proofs.ReExportChains
import CallAtlas.Proofs.SearchViews
import CallAtlas.Proofs.SourceFiles

/-!
# Calls of imported units

A call through an import should reach a unit that its module exports.  What is exported by default is
exported (`exported_of_defaultExport`), so a search that ends with a default export is right.  For every
other name the search takes the unit that the last file has under it, exported or not, and does not look
further: the call reaches an exported unit unless that file keeps its unit of the name to itself
(`resolveCall_imported`).
-/

namespace CallAtlas

open Syntax

/-! ## Default exports are exports -/

theorem exportFlags_sound (trail : Trail) (byDefault : (exportFlags trail).2 = true) :
    (exportFlags trail).1 = true := by
  unfold exportFlags at byDefault ⊢
  split at byDefault
  · split at byDefault <;> simp_all
  · cases byDefault

theorem Declares.exported_of_defaultExport {source : String} {components : Bool} {trail : Trail} {t : Tree}
    {c : Candidate} (declares : Declares source components trail t c) (byDefault : c.defaultExport = true) :
    c.exported = true := by
  cases declares with
  | function => exact exportFlags_sound trail byDefault
  | class_ => exact exportFlags_sound trail byDefault
  | method => cases byDefault
  | variable_ => exact exportFlags_sound trail byDefault

theorem markExports_sound (u : CodeUnit) (sound : u.defaultExport = true → u.exported = true)
    (listed : List String) (default? : Option String) :
    (ParsedSource.markExports listed default? u).defaultExport = true →
      (ParsedSource.markExports listed default? u).exported = true := by
  simp only [ParsedSource.markExports, Bool.or_eq_true]
  rintro (byDefault | isDefault)
  · exact .inl (.inl (sound byDefault))
  · exact .inr isDefault

theorem ParsedSource.unitsWithCalls_sound (s : ParsedSource) :
    ∀ u ∈ s.unitsWithCalls, u.1.defaultExport = true → u.1.exported = true := by
  intro u member
  obtain ⟨c, candidate, rfl⟩ := List.mem_map.mp member
  obtain ⟨_, _, _, declares⟩ := exists_declares_of_mem_candidates candidate
  exact markExports_sound (s.unitAlone c) declares.exported_of_defaultExport _ _

variable {tree : FileTree} {root : String} {config : Config} {cache : AliasCache} {files : List String}

/-- What a file of a build exports by default is exported. -/
theorem exported_of_defaultExport {f : FileFacts} (loaded : f ∈ builtFacts tree root config files)
    {u : CodeUnit × List CallSite} (member : u ∈ f.units) (byDefault : u.1.defaultExport = true) :
    u.1.exported = true := by
  obtain ⟨file, -, e, read, rfl⟩ := (mem_loadedFacts_iff ..).mp loaded
  obtain ⟨source, -, rfl⟩ := extraction_ofFile_eq_ok read
  exact source.unitsWithCalls_sound u (mem_of_mem_lastDeclarations member) byDefault

/-! ## Where a search ends -/

/-- The search for the name in the file at the path comes to the file `last`, and asks it for `asked`:
    no file before has what it is asked for, and each passes it on to the next. -/
inductive Leads (facts : List FileFacts) (resolve : String → String → Option String) :
    String → String → FileFacts → String → Prop
  | here {path name : String} {f : FileFacts}
      (loaded : facts.find? (fun f => samePath f.path path) = some f) :
      Leads facts resolve path name f name
  | onward {path name inner target asked : String} {f last : FileFacts} {r : ReExport}
      (loaded : facts.find? (fun f => samePath f.path path) = some f)
      (notHere : ∀ id, ¬ Provides facts f name id)
      (declared : r ∈ f.reExports) (passes : r.PassesOn name inner)
      (leads : resolve f.path r.specifier = some target)
      (rest : Leads facts resolve target inner last asked) :
      Leads facts resolve path name last asked

/-- A call in the file asks some import for a name, and the search for it comes to the file `last`. -/
def FileFacts.ImportLeads (f : FileFacts) (facts : List FileFacts)
    (resolve : String → String → Option String) (name expression : String) (last : FileFacts)
    (asked : String) : Prop :=
  ∃ i ∈ f.imports, ∃ inner target, Scope.importedName i name expression = some inner ∧
    resolve f.path i.specifier = some target ∧ Leads facts resolve target inner last asked

theorem Chain.exists_last {facts : List FileFacts} {resolve : String → String → Option String}
    {path name id : String} {route : List Nat}
    (chain : Chain facts resolve (Provides facts) path name route id) :
    ∃ last asked, Leads facts resolve path name last asked ∧ last ∈ facts ∧
      Provides facts last asked id := by
  induction chain with
  | @provided path name id f loaded provided =>
    exact ⟨f, name, .here loaded, List.mem_of_find?_eq_some loaded, provided⟩
  | passedOn loaded notHere declared passes leads _ inductionHypothesis =>
    obtain ⟨last, asked, rest, isLoaded, provided⟩ := inductionHypothesis
    exact ⟨last, asked, .onward loaded notHere (List.mem_of_getElem? declared) passes leads rest,
      isLoaded, provided⟩

theorem exists_last_of_resolveCall {facts : List FileFacts}
    {resolve : String → String → Option String} {f : FileFacts} {caller : CodeUnit}
    {name expression id : String}
    (imported : (Scope.ofFacts facts resolve).localTarget f caller name expression = none)
    (found : ((Scope.ofFacts facts resolve).resolveCall f caller name expression).value = some id) :
    ∃ last asked, f.ImportLeads facts resolve name expression last asked ∧ last ∈ facts ∧
      Provides facts last asked id := by
  rw [Scope.resolveCall_value, imported, Option.none_or] at found
  obtain ⟨i, member, found⟩ := List.exists_of_findSome?_eq_some found
  rw [Scope.importTarget_value, Option.bind_eq_some_iff] at found
  obtain ⟨inner, asks, found⟩ := found
  obtain ⟨target, leads, found⟩ := Option.bind_eq_some_iff.mp found
  obtain ⟨route, -, chain, -⟩ := firstChain_of_lookupExport maxHops found
  obtain ⟨last, asked, rest, loaded, provided⟩ := chain.exists_last
  exact ⟨last, asked, ⟨i, member, inner, target, asks, leads, rest⟩, loaded, provided⟩

/-! ## What it ends with -/

/-- Some unit with the id is exported. -/
def IsExported (facts : List FileFacts) (id : String) : Prop :=
  ∃ g ∈ facts, ∃ u ∈ g.units, nodeId g.relative u.1.name = id ∧ u.1.exported = true

/-- The file has a unit of the name, going by its id, and does not export it. -/
def KeepsPrivate (facts : List FileFacts) (f : FileFacts) (name : String) : Prop :=
  name ≠ "default" ∧
    ∃ g ∈ facts, ∃ u ∈ g.units, nodeId g.relative u.1.name = nodeId f.relative name ∧ u.1.exported = false

instance (facts : List FileFacts) (id : String) : Decidable (IsExported facts id) :=
  inferInstanceAs (Decidable
    (∃ g ∈ facts, ∃ u ∈ g.units, nodeId g.relative u.1.name = id ∧ u.1.exported = true))

theorem isExported_or_keepsPrivate {last : FileFacts} (loaded : last ∈ builtFacts tree root config files)
    {asked id : String} (provided : Provides (builtFacts tree root config files) last asked id) :
    IsExported (builtFacts tree root config files) id ∨
      KeepsPrivate (builtFacts tree root config files) last asked := by
  rcases provided with ⟨-, u, found, rfl⟩ | ⟨notDefault, rfl, g, gLoaded, u, member, same⟩
  · have member := List.mem_of_find?_eq_some found
    have byDefault : u.1.defaultExport = true := by simpa using List.find?_some found
    exact .inl ⟨last, loaded, u, member, rfl, exported_of_defaultExport loaded member byDefault⟩
  · cases exported : u.1.exported with
    | true => exact .inl ⟨g, gLoaded, u, member, same, exported⟩
    | false => exact .inr ⟨notDefault, g, gLoaded, u, member, same, exported⟩

theorem not_isExported_of_keepsPrivate
    (distinct : IdsDetermineUnits (builtFacts tree root config files)) {last : FileFacts}
    {asked id : String} (provided : Provides (builtFacts tree root config files) last asked id)
    (keeps : KeepsPrivate (builtFacts tree root config files) last asked) :
    ¬ IsExported (builtFacts tree root config files) id := by
  obtain ⟨notDefault, g, gLoaded, u, uMember, uId, notExported⟩ := keeps
  rcases provided with ⟨isDefault, -⟩ | ⟨-, rfl, -⟩
  · exact absurd isDefault notDefault
  · rintro ⟨h, hLoaded, v, vMember, vId, exported⟩
    obtain ⟨-, rfl⟩ := unit_of_id distinct gLoaded hLoaded uMember vMember (uId.trans vId.symm)
    rw [exported] at notExported
    cases notExported

/-- What a call through an import reaches is provided by the file at which the search ends.  It is
    exported, unless that file keeps its unit of the name to itself; then, where ids tell units apart, it
    is not. -/
theorem resolveCall_imported (f : FileFacts) (caller : CodeUnit) (name expression id : String)
    (imported : (builtScope tree root config cache files).localTarget f caller name expression = none)
    (found : ((builtScope tree root config cache files).resolveCall f caller name expression).value =
      some id) :
    ∃ last asked,
      f.ImportLeads (builtFacts tree root config files) (Specifier.resolve tree config.resolution cache)
        name expression last asked ∧
      Provides (builtFacts tree root config files) last asked id ∧
      (IsExported (builtFacts tree root config files) id ∨
        KeepsPrivate (builtFacts tree root config files) last asked) ∧
      (IdsDetermineUnits (builtFacts tree root config files) →
        KeepsPrivate (builtFacts tree root config files) last asked →
          ¬ IsExported (builtFacts tree root config files) id) := by
  obtain ⟨last, asked, leads, loaded, provided⟩ := exists_last_of_resolveCall imported found
  exact ⟨last, asked, leads, provided, isExported_or_keepsPrivate loaded provided,
    fun distinct keeps => not_isExported_of_keepsPrivate distinct provided keeps⟩

/-! ## A name that two files have -/

/-- A module that passes on all of `b.ts` and then all of `a.ts`.  Both have the function `f`, and `a.ts`
    exports it. -/
def sharedNameTree (exported : Bool) : FileTree :=
  ⟨[(["p"], .directory),
    (["p", "a.ts"], .file "export function f()\x7b\x7d".toUTF8),
    (["p", "b.ts"], .file (if exported then "export function f()\x7b\x7d"
      else "function f()\x7b\x7d").toUTF8),
    (["p", "c.ts"], .file "export*from'./b';export*from'./a'".toUTF8),
    (["p", "main.ts"], .file "import\x7bf\x7dfrom'./c';export function m()\x7bf()\x7d".toUTF8)]⟩

def sharedNameFacts (exported : Bool) : List FileFacts :=
  builtFacts (sharedNameTree exported) "/p" Config.standard ["a.ts", "b.ts", "c.ts", "main.ts"]

def sharedNameScope (exported : Bool) : Scope :=
  builtScope (sharedNameTree exported) "/p" Config.standard .empty ["a.ts", "b.ts", "c.ts", "main.ts"]

/-- The call in `main.ts` goes through the import and reaches `b.ts`, whether or not `b.ts` exports its
    function. -/
theorem sharedName_call (exported : Bool) :
    (∃ f ∈ sharedNameFacts exported, ∃ u ∈ f.units,
      (sharedNameScope exported).localTarget f u.1 "f" "f" = none ∧
      ((sharedNameScope exported).resolveCall f u.1 "f" "f").value = some "b.ts:f") ∧
    IsExported (sharedNameFacts exported) "a.ts:f" ∧
    if exported then ∀ g ∈ sharedNameFacts exported, ∀ u ∈ g.units, u.1.exported = true
    else ¬ IsExported (sharedNameFacts exported) "b.ts:f" := by
  revert exported
  decide +kernel

theorem resolveCall_imported_shared :
    (∃ f ∈ sharedNameFacts true, ∃ u ∈ f.units,
      (sharedNameScope true).localTarget f u.1 "f" "f" = none ∧
      ((sharedNameScope true).resolveCall f u.1 "f" "f").value = some "b.ts:f") ∧
    IsExported (sharedNameFacts true) "b.ts:f" := by
  obtain ⟨call, -, allExported⟩ := sharedName_call true
  refine ⟨call, ?_⟩
  obtain ⟨f, -, u, -, imported, found⟩ := call
  obtain ⟨last, asked, -, -, either, -⟩ := resolveCall_imported f u.1 "f" "f" "b.ts:f" imported found
  rcases either with exported | ⟨-, g, loaded, v, member, -, notExported⟩
  · exact exported
  · rw [allExported g loaded v member] at notExported
    cases notExported

/-- The call reaches the function that `b.ts` keeps to itself, and not the one that `a.ts` exports. -/
theorem resolveCall_private :
    (∃ f ∈ sharedNameFacts false, ∃ u ∈ f.units,
      (sharedNameScope false).localTarget f u.1 "f" "f" = none ∧
      ((sharedNameScope false).resolveCall f u.1 "f" "f").value = some "b.ts:f") ∧
    ¬ IsExported (sharedNameFacts false) "b.ts:f" ∧ IsExported (sharedNameFacts false) "a.ts:f" := by
  obtain ⟨call, inA, notInB⟩ := sharedName_call false
  exact ⟨call, notInB, inA⟩

end CallAtlas
