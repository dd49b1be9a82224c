import CallAtlas.Proofs.ExplicitReExports

/-!
# The tiers of a call

What a call reaches is decided in three tiers, and `Reaches` has one rule for each way through them: a
bare call reaches the unit of its own file, or else what the first import of the name that leads anywhere
leads to; `this.name` reaches another method of the class; `ns.name` goes through the modules that are
imported as `ns`.  The search follows these rules and no others (`resolveCall_exact`).

The unit of the own file is found by its id.  Two files whose paths differ only in the sort of slash have
the same path within the project, and then a call can reach a unit of the other one without any import
(`resolveCall_sharedPath`).
-/

namespace CallAtlas

open Text

/-- The id is made of the path of the file and the name, and a loaded unit has it. -/
def HasId (facts : List FileFacts) (f : FileFacts) (name id : String) : Prop :=
  id = nodeId f.relative name ∧ ∃ g ∈ facts, ∃ u ∈ g.units, nodeId g.relative u.1.name = id

/-- A unit of the file has the name, and the id is its id. -/
def FileFacts.Declares (f : FileFacts) (name id : String) : Prop :=
  id = nodeId f.relative name ∧ ∃ u ∈ f.units, u.1.name = name

/-- The caller is a method, and its class has the name under the id. -/
def InClassOf (declares : String → String → Prop) (caller : CodeUnit) (name id : String) : Prop :=
  ∃ owner method, caller.kind = .method ∧ caller.name = owner ++ "." ++ method ∧
    '.' ∉ owner.toList ∧ declares (owner ++ "." ++ name) id

/-- The module of the import is found, and exports the id under the name. -/
def Scope.ImportGives (s : Scope) (f : FileFacts) (i : Import) (name id : String) : Prop :=
  ∃ target, s.resolve f.path i.specifier = some target ∧
    (s.lookupExport maxHops target name).value = some id

/-- Of the imports that satisfy `binds`, in their order, the first whose module gives anything under the
    name `asked` of it gives the id. -/
def Scope.FirstImport (s : Scope) (f : FileFacts) (binds : Import → Prop) (asked : Import → String)
    (id : String) : Prop :=
  ∃ before i after, f.imports = before ++ i :: after ∧ binds i ∧ s.ImportGives f i (asked i) id ∧
    ∀ j ∈ before, binds j → ∀ other, ¬ s.ImportGives f j (asked j) other

/-- A call of `expression`, whose last part is `name`, reaches the id from the unit `caller` of the file.
    What the file has under which name is said by `declares`. -/
inductive Reaches (s : Scope) (declares : String → String → Prop) (f : FileFacts) (caller : CodeUnit)
    (name : String) : String → String → Prop
  | own {id : String} (here : declares name id) : Reaches s declares f caller name name id
  | imported {id : String} (notHere : ∀ other, ¬ declares name other)
      (first : s.FirstImport f (fun i => i.kind ≠ .namespace ∧ i.localName = name) (·.nameInModule) id) :
      Reaches s declares f caller name name id
  | sibling {id : String} (inClass : InClassOf declares caller name id) :
      Reaches s declares f caller name ("this." ++ name) id
  | member {object id : String} (oneStep : '.' ∉ object.toList)
      (notInClass : object = "this" → ∀ other, ¬ InClassOf declares caller name other)
      (first : s.FirstImport f (fun i => i.kind = .namespace ∧ i.localName = object) (fun _ => name) id) :
      Reaches s declares f caller name (object ++ "." ++ name) id

/-! ## Names with points -/

/-- A text is cut at its first point into what stands before and behind it. -/
theorem cutAt_point_eq_some_iff (text : String) (front back : List Char) :
    cutAt (· = '.') text.toList = some (front, back) ↔
      text = String.ofList front ++ "." ++ String.ofList back ∧ '.' ∉ front := by
  rw [cutAt_eq_some_iff]
  have whole : text = String.ofList front ++ "." ++ String.ofList back ↔
      text.toList = front ++ '.' :: back := by
    rw [← String.toList_inj]
    simp [String.toList_append]
  rw [whole]
  constructor
  · rintro ⟨c, split, isPoint, free⟩
    obtain rfl : c = '.' := by simpa using isPoint
    exact ⟨split, fun member => by simpa using free '.' member⟩
  · rintro ⟨split, free⟩
    refine ⟨'.', split, by simp, fun x member => ?_⟩
    have notPoint : x ≠ '.' := by
      rintro rfl
      exact free member
    simpa using notPoint

theorem classOf?_eq_some_iff (u : CodeUnit) (owner : String) :
    Scope.classOf? u = some owner ↔
      u.kind = .method ∧ ∃ method, u.name = owner ++ "." ++ method ∧ '.' ∉ owner.toList := by
  unfold Scope.classOf?
  rw [Option.ite_none_right_eq_some, Option.map_eq_some_iff]
  refine and_congr_right fun _ => ?_
  constructor
  · rintro ⟨⟨front, back⟩, cut, rfl⟩
    obtain ⟨named, free⟩ := (cutAt_point_eq_some_iff u.name front back).mp cut
    exact ⟨String.ofList back, named, by simpa using free⟩
  · rintro ⟨method, named, free⟩
    refine ⟨(owner.toList, method.toList), ?_, by simp⟩
    rw [cutAt_point_eq_some_iff]
    exact ⟨by simpa using named, free⟩

/-- A name is shorter than what it is a member of. -/
theorem member_ne_name (object name : String) : object ++ "." ++ name ≠ name := by
  intro same
  have lengths := congrArg String.length same
  simp only [String.length_append] at lengths
  have point : ".".length = 1 := rfl
  omega

theorem object_inj {object other name : String} (same : object ++ "." ++ name = other ++ "." ++ name) :
    object = other := by
  rw [String.append_assoc, String.append_assoc] at same
  exact (String.append_left_inj _).mp same

/-! ## The own file -/

section

variable {facts : List FileFacts} {resolve : String → String → Option String} {f : FileFacts}

theorem definedIn_eq_some_iff_hasId (name id : String) :
    (Scope.ofFacts facts resolve).definedIn f name = some id ↔ HasId facts f name id := by
  rw [Scope.definedIn_eq_some_iff, isNode_ofFacts_iff, HasId]

theorem localTarget_bare (caller : CodeUnit) (name : String) :
    (Scope.ofFacts facts resolve).localTarget f caller name name =
      (Scope.ofFacts facts resolve).definedIn f name := by
  simp [Scope.localTarget]

theorem localTarget_this (caller : CodeUnit) (name id : String) :
    (Scope.ofFacts facts resolve).localTarget f caller name ("this." ++ name) = some id ↔
      InClassOf (HasId facts f) caller name id := by
  have notBare : ("this." ++ name == name) = false := by
    rw [beq_eq_false_iff_ne]
    exact member_ne_name "this" name
  unfold Scope.localTarget InClassOf
  simp only [notBare, Bool.false_eq_true, ↓reduceIte, beq_self_eq_true, Option.bind_eq_some_iff,
    classOf?_eq_some_iff, definedIn_eq_some_iff_hasId]
  constructor
  · rintro ⟨owner, ⟨isMethod, method, named, free⟩, here⟩
    exact ⟨owner, method, isMethod, named, free, here⟩
  · rintro ⟨owner, method, isMethod, named, free, here⟩
    exact ⟨owner, ⟨isMethod, method, named, free⟩, here⟩

theorem localTarget_other (s : Scope) (caller : CodeUnit) {name expression : String}
    (notBare : expression ≠ name) (notThis : expression ≠ "this." ++ name) :
    s.localTarget f caller name expression = none := by
  simp [Scope.localTarget, notBare, notThis]

end

/-! ## Imports -/

/-- A member of an object asks for its name in the modules that are imported as the object. -/
theorem importedName_member (i : Import) {object : String} (oneStep : '.' ∉ object.toList)
    (name inner : String) :
    Scope.importedName i name (object ++ "." ++ name) = some inner ↔
      (i.kind = .namespace ∧ i.localName = object) ∧ inner = name := by
  have cut : cutAt (· = '.') (object ++ "." ++ name).toList = some (object.toList, name.toList) := by
    rw [cutAt_point_eq_some_iff]
    exact ⟨by simp, oneStep⟩
  have notBare : (object ++ "." ++ name == name) = false := by
    rw [beq_eq_false_iff_ne]
    exact member_ne_name object name
  unfold Scope.importedName
  split
  · rename_i whole
    simp only [cut, String.ofList_toList, beq_self_eq_true, Bool.and_true, beq_iff_eq,
      Option.ite_none_right_eq_some, Option.some.injEq, whole, true_and]
    exact and_congr eq_comm eq_comm
  · rename_i kind
    simp [kind, notBare]
  · rename_i kind
    simp [kind, notBare]

/-- An import is asked for something by a bare call of its name, or as the object of a member. -/
theorem exists_importedName {i : Import} {name expression inner : String}
    (asked : Scope.importedName i name expression = some inner) :
    expression = name ∨ ∃ object, expression = object ++ "." ++ name ∧ '.' ∉ object.toList := by
  unfold Scope.importedName at asked
  split at asked
  · split at asked
    · rename_i front back cut
      rw [Option.ite_none_right_eq_some, Bool.and_eq_true, beq_iff_eq, beq_iff_eq] at asked
      obtain ⟨split, free⟩ := (cutAt_point_eq_some_iff expression front back).mp cut
      rw [asked.1.2] at split
      exact .inr ⟨String.ofList front, split, by simpa using free⟩
    · cases asked
  · rw [Option.ite_none_right_eq_some, Bool.and_eq_true, beq_iff_eq] at asked
    exact .inl asked.1.1
  · rw [Option.ite_none_right_eq_some, Bool.and_eq_true, beq_iff_eq] at asked
    exact .inl asked.1.1

section

variable {s : Scope} {f : FileFacts} {name expression : String} {binds : Import → Prop}
  {asked : Import → String}

theorem importTarget_eq_some_iff
    (asks : ∀ i inner, Scope.importedName i name expression = some inner ↔ binds i ∧ inner = asked i)
    (i : Import) (id : String) :
    (s.importTarget f name expression i).value = some id ↔ binds i ∧ s.ImportGives f i (asked i) id := by
  rw [Scope.importTarget_value, Option.bind_eq_some_iff]
  simp only [asks, Option.bind_eq_some_iff]
  constructor
  · rintro ⟨_, ⟨binding, rfl⟩, gives⟩
    exact ⟨binding, gives⟩
  · rintro ⟨binding, gives⟩
    exact ⟨asked i, ⟨binding, rfl⟩, gives⟩

/-- An import whose module is not found or does not have the name is passed over. -/
theorem findSome_importTarget_iff
    (asks : ∀ i inner, Scope.importedName i name expression = some inner ↔ binds i ∧ inner = asked i)
    (id : String) :
    f.imports.findSome? (fun i => (s.importTarget f name expression i).value) = some id ↔
      s.FirstImport f binds asked id := by
  rw [List.findSome?_eq_some_iff]
  unfold Scope.FirstImport
  simp only [Option.eq_none_iff_forall_ne_some, ne_eq, importTarget_eq_some_iff asks, not_and]
  constructor
  · rintro ⟨before, i, after, listed, ⟨binding, gives⟩, lost⟩
    exact ⟨before, i, after, listed, binding, gives,
      fun j member isBound other => lost j member other isBound⟩
  · rintro ⟨before, i, after, listed, binding, gives, lost⟩
    exact ⟨before, i, after, listed, ⟨binding, gives⟩,
      fun j member other isBound => lost j member isBound other⟩

end

theorem asks_bare (name : String) (i : Import) (inner : String) :
    Scope.importedName i name name = some inner ↔
      (i.kind ≠ .namespace ∧ i.localName = name) ∧ inner = i.nameInModule := by
  rw [importedName_bare, and_assoc, eq_comm (a := inner)]

/-! ## All tiers -/

section

variable {facts : List FileFacts} {resolve : String → String → Option String} {f : FileFacts}
  {caller : CodeUnit} {name expression id : String}

theorem reaches_of_resolveCall
    (found : ((Scope.ofFacts facts resolve).resolveCall f caller name expression).value = some id) :
    Reaches (Scope.ofFacts facts resolve) (HasId facts f) f caller name expression id := by
  rw [Scope.resolveCall_value] at found
  rcases Option.or_eq_some_iff.mp found with inFile | ⟨notInFile, imported⟩
  · -- In the own file only a bare name and a member of `this` are looked for.
    by_cases bare : expression = name
    · subst bare
      rw [localTarget_bare, definedIn_eq_some_iff_hasId] at inFile
      exact .own inFile
    · by_cases this : expression = "this." ++ name
      · subst this
        exact .sibling ((localTarget_this caller name id).mp inFile)
      · rw [localTarget_other _ caller bare this] at inFile
        cases inFile
  · obtain ⟨i, -, gives⟩ := List.exists_of_findSome?_eq_some imported
    rw [Scope.importTarget_value, Option.bind_eq_some_iff] at gives
    obtain ⟨inner, asked, -⟩ := gives
    -- One import was asked, so every other one is asked in the same way.
    rcases exists_importedName asked with rfl | ⟨object, rfl, oneStep⟩
    · rw [localTarget_bare, Option.eq_none_iff_forall_ne_some] at notInFile
      simp only [ne_eq, definedIn_eq_some_iff_hasId] at notInFile
      exact .imported notInFile ((findSome_importTarget_iff (asks_bare _) id).mp imported)
    · refine .member oneStep ?_
        ((findSome_importTarget_iff (importedName_member · oneStep name) id).mp imported)
      rintro rfl other inClass
      have inFile : (Scope.ofFacts facts resolve).localTarget f caller name ("this." ++ name) =
          some other := (localTarget_this caller name other).mpr inClass
      rw [show "this." ++ name = "this" ++ "." ++ name from rfl, notInFile] at inFile
      cases inFile

theorem resolveCall_of_reaches
    (reaches : Reaches (Scope.ofFacts facts resolve) (HasId facts f) f caller name expression id) :
    ((Scope.ofFacts facts resolve).resolveCall f caller name expression).value = some id := by
  rw [Scope.resolveCall_value, Option.or_eq_some_iff]
  cases reaches with
  | own here => exact .inl (by rw [localTarget_bare, definedIn_eq_some_iff_hasId]; exact here)
  | imported notHere first =>
    refine .inr ⟨?_, (findSome_importTarget_iff (asks_bare name) id).mpr first⟩
    rw [localTarget_bare, Option.eq_none_iff_forall_ne_some]
    simpa only [ne_eq, definedIn_eq_some_iff_hasId] using notHere
  | sibling inClass => exact .inl ((localTarget_this caller name id).mpr inClass)
  | @member object _ oneStep notInClass first =>
    refine .inr ⟨?_, (findSome_importTarget_iff (importedName_member · oneStep name) id).mpr first⟩
    by_cases this : object = "this"
    · subst this
      rw [Option.eq_none_iff_forall_ne_some]
      intro other inFile
      exact notInClass rfl other ((localTarget_this caller name other).mp inFile)
    · exact localTarget_other _ caller (member_ne_name object name) fun same => this (object_inj same)

theorem resolveCall_eq_some_iff_reaches :
    ((Scope.ofFacts facts resolve).resolveCall f caller name expression).value = some id ↔
      Reaches (Scope.ofFacts facts resolve) (HasId facts f) f caller name expression id :=
  ⟨reaches_of_resolveCall, resolveCall_of_reaches⟩

/-- A bare call asks the own file, and then the imports of the name. -/
theorem Reaches.of_bare {s : Scope} {declares : String → String → Prop}
    (reaches : Reaches s declares f caller name expression id) (bare : expression = name) :
    declares name id ∨
      s.FirstImport f (fun i => i.kind ≠ .namespace ∧ i.localName = name) (·.nameInModule) id := by
  cases reaches with
  | own here => exact .inl here
  | imported notHere first => exact .inr first
  | sibling inClass => exact absurd bare (member_ne_name "this" name)
  | member oneStep notInClass first => exact absurd bare (member_ne_name _ name)

/-- A member is not looked for in the own file, nor under the names of single imports. -/
theorem Reaches.through_object {s : Scope} {declares : String → String → Prop} {object : String}
    (reaches : Reaches s declares f caller name expression id) (whole : expression = object ++ "." ++ name) :
    (object = "this" ∧ InClassOf declares caller name id) ∨
      ∃ i ∈ f.imports, i.kind = .namespace ∧ i.localName = object ∧ s.ImportGives f i name id := by
  cases reaches with
  | own here => exact absurd whole.symm (member_ne_name object name)
  | imported notHere first => exact absurd whole.symm (member_ne_name object name)
  | sibling inClass => exact .inl ⟨object_inj whole.symm, inClass⟩
  | member oneStep notInClass first =>
    obtain rfl := object_inj whole
    obtain ⟨before, i, after, listed, ⟨kind, named⟩, gives, -⟩ := first
    exact .inr ⟨i, by simp [listed], kind, named, gives⟩

theorem PlainPaths.hasId_iff_declares (plain : PlainPaths facts) (loaded : f ∈ facts) (name id : String) :
    HasId facts f name id ↔ f.Declares name id := by
  refine and_congr_right fun atFile => ?_
  subst atFile
  exact plain.exists_unit_iff loaded name

end

/-- A call reaches what one of the tiers says, and nothing if none of them says anything.  A member of an
    object is reached only in the class of a method or through modules imported as the object.  Where
    the paths of the files are plain, what a file has under a name is its unit of that name. -/
theorem resolveCall_exact (facts : List FileFacts) (resolve : String → String → Option String)
    (f : FileFacts) (caller : CodeUnit) (name expression : String) :
    let s := Scope.ofFacts facts resolve
    (∀ id, (s.resolveCall f caller name expression).value = some id ↔
      Reaches s (HasId facts f) f caller name expression id) ∧
    ((s.resolveCall f caller name expression).value = none ↔
      ∀ id, ¬ Reaches s (HasId facts f) f caller name expression id) ∧
    (∀ object id, (s.resolveCall f caller name (object ++ "." ++ name)).value = some id →
      (object = "this" ∧ InClassOf (HasId facts f) caller name id) ∨
        ∃ i ∈ f.imports, i.kind = .namespace ∧ i.localName = object ∧ s.ImportGives f i name id) ∧
    (PlainPaths facts → f ∈ facts → ∀ name id, HasId facts f name id ↔ f.Declares name id) := by
  intro s
  refine ⟨fun id => resolveCall_eq_some_iff_reaches, ?_, ?_, ?_⟩
  · rw [Option.eq_none_iff_forall_ne_some]
    exact forall_congr' fun id => not_congr resolveCall_eq_some_iff_reaches
  · intro object id found
    exact (reaches_of_resolveCall found).through_object rfl
  · exact fun plain loaded => plain.hasId_iff_declares loaded

/-! ## Two files with one path -/

/-- A file whose name has a backslash, beside one in a directory of the same spelling. -/
def twoSlashesTree : FileTree :=
  ⟨[(["p"], .directory),
    (["p", "a\\b.ts"], .file "function f()\x7bg()\x7d".toUTF8),
    (["p", "a"], .directory),
    (["p", "a", "b.ts"], .file "function g()\x7b\x7d".toUTF8)]⟩

/-- The facts about the two files. -/
def twoSlashesFacts : List FileFacts := loadedFacts twoSlashesTree "/p" 1000 ["a\\b.ts", "a/b.ts"]

/-- The call of `g` reaches a unit of the other file, although `g` is neither declared nor imported. -/
theorem resolveCall_sharedPath :
    ∃ f ∈ twoSlashesFacts, f.imports = [] ∧ f.units.map (·.1.name) = ["f"] ∧
      ∀ caller,
        ((Scope.ofFacts twoSlashesFacts fun _ _ => none).resolveCall f caller "g" "g").value =
            some "a/b.ts:g" ∧
          ∀ id, ¬ Reaches (Scope.ofFacts twoSlashesFacts fun _ _ => none) f.Declares f caller "g" "g" id := by
  have listed : twoSlashesFacts.any (fun f => f.imports == [] && f.units.map (·.1.name) == ["f"] &&
      f.relative == "a/b.ts") = true ∧
      twoSlashesFacts.any (fun f => f.units.any fun u => nodeId f.relative u.1.name == "a/b.ts:g") =
        true := by
    decide +kernel
  obtain ⟨found, other⟩ := listed
  obtain ⟨f, loaded, is⟩ := List.any_eq_true.mp found
  simp only [Bool.and_eq_true, beq_iff_eq] at is
  obtain ⟨⟨noImports, units⟩, path⟩ := is
  obtain ⟨g, gLoaded, hit⟩ := List.any_eq_true.mp other
  obtain ⟨u, inFile, sameId⟩ := List.any_eq_true.mp hit
  refine ⟨f, loaded, noImports, units, fun caller => ⟨?_, ?_⟩⟩
  · rw [resolveCall_eq_some_iff_reaches]
    exact .own ⟨by rw [path]; rfl, g, gLoaded, u, inFile, beq_iff_eq.mp sameId⟩
  · intro id reaches
    rcases reaches.of_bare rfl with ⟨-, v, member, named⟩ | ⟨before, i, after, split, -⟩
    · have inNames : "g" ∈ f.units.map (·.1.name) := List.mem_map.mpr ⟨v, member, named⟩
      rw [units] at inNames
      exact absurd inNames (by decide)
    · simp [noImports] at split

end CallAtlas
