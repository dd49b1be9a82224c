import CallAtlas.Proofs.RememberedAliases

/-!
# What a project file maps names to

Settings declare mappings, each of them a start of names with the targets that they are looked for in
(`Json.Maps`).  The mappings that are kept are those and no others (`mem_mappings_iff`), the longest start first.
So the places that a name may stand for are those of the longest start that it has (`candidates_of_longestStart`), or
none if it has no declared start at all (`candidates_of_unmatched`).  In which order the starts are declared does not
count (`candidates_reordered`).
-/

namespace CallAtlas

open CallAtlas.Path

/-- The texts among the items that end with a star, without it and in their order. -/
inductive Starred : List Json → List String → Prop where
  | nil : Starred [] []
  | keep {target : String} {items : List Json} {targets : List String} : Starred items targets →
      Starred (.string (target ++ "*") :: items) (target :: targets)
  | skip {item : Json} {items : List Json} {targets : List String} :
      (∀ target, item ≠ .string (target ++ "*")) → Starred items targets → Starred (item :: items) targets

/-- The settings map names that begin with `start` to the targets. -/
def Json.Maps (settings : Json) (start : String) (targets : List String) : Prop :=
  ∃ options members items, settings.member? "compilerOptions" = some options ∧
    options.member? "paths" = some (.object members) ∧
    Json.lookup (start ++ "*") members = some (.array items) ∧ Starred items targets ∧ targets ≠ []

/-- The directory that targets are seen from, for settings in the given directory. -/
def Json.targetsFrom (directory : String) (settings : Json) : String :=
  match ((settings.member? "compilerOptions").bind (Json.member? "baseUrl")).bind Json.string? with
  | some base => normalize (join directory base)
  | none => directory

/-- Of the declared starts that a name has, this one is the longest. -/
structure LongestStart (settings : Json) (name start rest : String) (targets : List String) : Prop where
  declared : settings.Maps start targets
  split : name = start ++ rest
  longest : ∀ {other : String} {others : List String}, settings.Maps other others →
    other.toList <+: name.toList → other.length ≤ start.length

/-- The name has none of the declared starts. -/
def Unmatched (settings : Json) (name : String) : Prop :=
  ∀ start targets, settings.Maps start targets → ¬ start.toList <+: name.toList

/-! ## One mapping -/

theorem withoutStar?_eq_some_iff (text start : String) :
    withoutStar? text = some start ↔ text = start ++ "*" := by
  unfold withoutStar?
  constructor
  · intro starred
    split at starred
    · rename_i last
      obtain ⟨front, split⟩ := List.getLast?_eq_some_iff.mp (beq_iff_eq.mp last)
      rw [Option.some.injEq] at starred
      rw [← starred, ← String.toList_inj]
      simp [split]
    · cases starred
  · rintro rfl
    simp

theorem string?_bind_withoutStar?_eq_some_iff (item : Json) (target : String) :
    item.string?.bind withoutStar? = some target ↔ item = .string (target ++ "*") := by
  cases item with
  | string text => simp [Json.string?, withoutStar?_eq_some_iff]
  | null | bool _ | integer _ | real _ | array _ | object _ => simp [Json.string?]

theorem starred_filterMap (items : List Json) :
    Starred items (items.filterMap fun item => item.string?.bind withoutStar?) := by
  induction items with
  | nil => exact .nil
  | cons item items inductionHypothesis =>
    cases kept : item.string?.bind withoutStar? with
    | none =>
      simp only [List.filterMap_cons, kept]
      refine .skip (fun target isStarred => ?_) inductionHypothesis
      rw [(string?_bind_withoutStar?_eq_some_iff item target).mpr isStarred] at kept
      cases kept
    | some target =>
      simp only [List.filterMap_cons, kept]
      rw [(string?_bind_withoutStar?_eq_some_iff item target).mp kept]
      exact .keep inductionHypothesis

theorem Starred.unique {items : List Json} {targets others : List String} (first : Starred items targets)
    (second : Starred items others) : targets = others := by
  induction first generalizing others with
  | nil =>
    cases second
    rfl
  | @keep target items targets _ inductionHypothesis =>
    generalize item : Json.string (target ++ "*") = starred at second
    cases second with
    | keep later =>
      rw [Json.string.injEq, String.append_left_inj] at item
      rw [item, inductionHypothesis later]
    | skip notStarred _ => exact absurd item.symm (notStarred target)
  | skip notStarred _ inductionHypothesis =>
    cases second with
    | keep _ => exact absurd rfl (notStarred _)
    | skip _ later => exact inductionHypothesis later

theorem starred_iff (items : List Json) (targets : List String) :
    Starred items targets ↔ (items.filterMap fun item => item.string?.bind withoutStar?) = targets :=
  ⟨(starred_filterMap items).unique, fun same => same ▸ starred_filterMap items⟩

theorem AliasMapping.ofMember?_eq_some_iff (pattern : String) (value : Json) (m : AliasMapping) :
    AliasMapping.ofMember? pattern value = some m ↔
      ∃ items, pattern = m.start ++ "*" ∧ value = .array items ∧ Starred items m.targets ∧
        m.targets ≠ [] := by
  obtain ⟨start, targets⟩ := m
  simp only [starred_iff, ← withoutStar?_eq_some_iff]
  unfold AliasMapping.ofMember?
  cases withoutStar? pattern with
  | none => simp
  | some found =>
    cases value with
    | null | bool _ | integer _ | real _ | string _ | object _ => simp [Json.items?]
    | array items =>
      simp only [Json.items?]
      split
      · rename_i nothing
        simp only [reduceCtorEq, Json.array.injEq, false_iff, not_exists, not_and]
        rintro _ - rfl rfl nonempty
        exact nonempty nothing
      · rename_i something
        simp only [Option.some.injEq, AliasMapping.mk.injEq, Json.array.injEq]
        constructor
        · rintro ⟨rfl, rfl⟩
          exact ⟨items, rfl, rfl, rfl, something⟩
        · rintro ⟨_, rfl, rfl, rfl, -⟩
          exact ⟨rfl, rfl⟩

theorem Json.Maps.unique {settings : Json} {start : String} {targets others : List String}
    (first : settings.Maps start targets) (second : settings.Maps start others) : targets = others := by
  obtain ⟨options, members, items, compiler, paths, looked, starred, -⟩ := first
  obtain ⟨options', members', items', compiler', paths', looked', starred', -⟩ := second
  obtain rfl : options = options' := Option.some.inj (compiler.symm.trans compiler')
  obtain rfl : members = members' := by simpa [paths] using paths'
  obtain rfl : items = items' := by simpa [looked] using looked'
  exact starred.unique starred'

/-! ## All mappings of the settings -/

/-- The mappings that an object of paths declares, in the order of its members. -/
def mappingsIn (members : List (String × Json)) : List AliasMapping :=
  (lastMembers members).filterMap fun m => AliasMapping.ofMember? m.1 m.2

theorem mem_mappingsIn_iff (members : List (String × Json)) (start : String) (targets : List String) :
    ⟨start, targets⟩ ∈ mappingsIn members ↔
      ∃ items, Json.lookup (start ++ "*") members = some (.array items) ∧ Starred items targets ∧
        targets ≠ [] := by
  simp only [mappingsIn, List.mem_filterMap, AliasMapping.ofMember?_eq_some_iff, Prod.exists,
    mem_lastMembers_iff]
  constructor
  · rintro ⟨_, _, looked, items, rfl, rfl, starred⟩
    exact ⟨items, looked, starred⟩
  · rintro ⟨items, looked, starred⟩
    exact ⟨_, _, looked, items, rfl, rfl, starred⟩

theorem Json.maps_iff {settings options : Json} {members : List (String × Json)}
    (compiler : settings.member? "compilerOptions" = some options)
    (paths : options.member? "paths" = some (.object members)) (start : String) (targets : List String) :
    settings.Maps start targets ↔ ⟨start, targets⟩ ∈ mappingsIn members := by
  rw [mem_mappingsIn_iff]
  constructor
  · rintro ⟨options', members', items, compiler', paths', looked, starred⟩
    obtain rfl : options = options' := Option.some.inj (compiler.symm.trans compiler')
    obtain rfl : members = members' := by simpa [paths] using paths'
    exact ⟨items, looked, starred⟩
  · rintro ⟨items, looked, starred⟩
    exact ⟨options, members, items, compiler, paths, looked, starred⟩

theorem PathAliases.ofSettings?_eq_some {directory : String} {settings : Json} {aliases : PathAliases}
    (read : PathAliases.ofSettings? directory settings = some aliases) :
    aliases.baseDir = settings.targetsFrom directory ∧
      ∃ options members, settings.member? "compilerOptions" = some options ∧
        options.member? "paths" = some (.object members) ∧
        aliases.mappings = (mappingsIn members).mergeSort fun a b => b.size ≤ a.size := by
  unfold PathAliases.ofSettings? at read
  cases compiler : settings.member? "compilerOptions" with
  | none => simp [compiler] at read
  | some options =>
    cases paths : options.member? "paths" with
    | none => simp [compiler, paths] at read
    | some value =>
      cases value with
      | null | bool _ | integer _ | real _ | string _ | array _ =>
        simp [compiler, paths, Json.members?] at read
      | object members =>
        simp only [compiler, paths, Json.members?, Option.bind_eq_bind, Option.bind_some] at read
        split at read
        · cases read
        · cases read
          refine ⟨?_, options, members, rfl, paths, rfl⟩
          unfold Json.targetsFrom
          rw [compiler]
          rfl

section

variable {directory : String} {settings : Json} {aliases : PathAliases}

/-- What is kept of settings is what they declare. -/
theorem mem_mappings_iff (read : PathAliases.ofSettings? directory settings = some aliases)
    (start : String) (targets : List String) :
    ⟨start, targets⟩ ∈ aliases.mappings ↔ settings.Maps start targets := by
  obtain ⟨-, options, members, compiler, paths, mappings⟩ := PathAliases.ofSettings?_eq_some read
  rw [mappings, List.mem_mergeSort, Json.maps_iff compiler paths]

theorem mappings_sorted (read : PathAliases.ofSettings? directory settings = some aliases) :
    aliases.mappings.Pairwise fun a b => b.size ≤ a.size := by
  obtain ⟨-, options, members, -, -, mappings⟩ := PathAliases.ofSettings?_eq_some read
  have sorted : ((mappingsIn members).mergeSort fun a b => b.size ≤ a.size).Pairwise
      fun a b => decide (b.size ≤ a.size) = true := by
    apply List.pairwise_mergeSort
    · intro a b c first second
      simp only [decide_eq_true_eq] at *
      omega
    · intro a b
      simp only [Bool.or_eq_true, decide_eq_true_eq]
      omega
  rw [mappings]
  exact sorted.imp fun ordered => by simpa using ordered

/-- Settings without aliases map no name. -/
theorem not_maps_of_ofSettings?_eq_none (read : PathAliases.ofSettings? directory settings = none)
    (start : String) (targets : List String) : ¬ settings.Maps start targets := by
  intro declared
  have ⟨options, members, _, compiler, paths, _⟩ := declared
  have member := (Json.maps_iff compiler paths start targets).mp declared
  simp only [PathAliases.ofSettings?, compiler, paths, Json.members?, Option.bind_eq_bind,
    Option.bind_some] at read
  split at read
  · rename_i nothing
    rw [mappingsIn, nothing] at member
    cases member
  · cases read

/-! ## The longest start -/

/-- Of two starts of one name, the one with fewer bytes is a start of the other. -/
theorem prefix_of_size_le {a b : String} {name : List Char} (aStarts : a.toList <+: name)
    (bStarts : b.toList <+: name) (smaller : a.utf8ByteSize ≤ b.utf8ByteSize) : a.toList <+: b.toList := by
  rcases List.prefix_or_prefix_of_prefix aStarts bStarts with done | ⟨more, longer⟩
  · exact done
  · -- The other way round `a` is `b` with more characters, and there is no room for them.
    obtain rfl : a = b ++ String.ofList more := by
      rw [← String.toList_inj]
      simp [longer]
    rw [String.utf8ByteSize_append] at smaller
    have nothing : (String.ofList more).utf8ByteSize = 0 := by omega
    have empty : String.ofList more = "" := String.utf8ByteSize_eq_zero_iff.mp nothing
    simp [empty]

/-- The start of a name that is found first in the order of the mappings is the longest that it has. -/
theorem longestStart_of_found (read : PathAliases.ofSettings? directory settings = some aliases)
    {name : String} {m : AliasMapping} {rest : List Char}
    (found : (aliases.mappings.findSome? fun m =>
      (Text.stripPrefix? m.start.toList name.toList).map (m, ·)) = some (m, rest)) :
    LongestStart settings name m.start (String.ofList rest) m.targets := by
  obtain ⟨before, chosen, after, listed, stripped, skipped⟩ := List.findSome?_eq_some_iff.mp found
  obtain ⟨_, split, same⟩ := Option.map_eq_some_iff.mp stripped
  cases same
  rw [Text.stripPrefix?_eq_some_iff] at split
  have starts : m.start.toList <+: name.toList := ⟨rest, split.symm⟩
  refine ⟨(mem_mappings_iff read _ _).mp (by simp [listed]), ?_, ?_⟩
  · rw [← String.toList_inj]
    simp [split]
  · intro other others declared otherStarts
    have sorted := mappings_sorted read
    have member := (mem_mappings_iff read _ _).mpr declared
    rw [listed] at sorted member
    have smaller : other.utf8ByteSize ≤ m.start.utf8ByteSize := by
      rcases List.mem_append.mp member with earlier | later
      · -- What stands before the mapping that is found does not match.
        obtain ⟨tail, split'⟩ := otherStarts
        have kept := (Text.stripPrefix?_eq_some_iff other.toList name.toList tail).mpr split'.symm
        simpa [kept] using skipped _ earlier
      · rcases List.mem_cons.mp later with rfl | later
        · exact Nat.le_refl _
        · exact (List.pairwise_cons.mp (List.pairwise_append.mp sorted).2.1).1 _ later
    simpa only [String.length_toList] using (prefix_of_size_le otherStarts starts smaller).length_le

theorem unmatched_of_not_found (read : PathAliases.ofSettings? directory settings = some aliases)
    {name : String}
    (notFound : (aliases.mappings.findSome? fun m =>
      (Text.stripPrefix? m.start.toList name.toList).map (m, ·)) = none) : Unmatched settings name := by
  rintro start targets declared ⟨rest, split⟩
  have missed := List.findSome?_eq_none_iff.mp notFound _ ((mem_mappings_iff read _ _).mpr declared)
  have kept := (Text.stripPrefix?_eq_some_iff start.toList name.toList rest).mpr split.symm
  simp [kept] at missed

theorem LongestStart.starts {name start rest : String} {targets : List String}
    (first : LongestStart settings name start rest targets) : start.toList <+: name.toList := by
  rw [first.split, String.toList_append]
  exact List.prefix_append _ _

theorem LongestStart.unique {name start rest start' rest' : String} {targets targets' : List String}
    (first : LongestStart settings name start rest targets)
    (second : LongestStart settings name start' rest' targets') :
    start = start' ∧ rest = rest' ∧ targets = targets' := by
  have lengths : start.toList.length = start'.toList.length := by
    have shorter := second.longest first.declared first.starts
    have longer := first.longest second.declared second.starts
    simp only [String.length_toList]
    omega
  have same : start = start' := by
    rw [← String.toList_inj]
    exact (List.prefix_of_prefix_length_le first.starts second.starts (by omega)).eq_of_length lengths
  subst same
  refine ⟨rfl, ?_, first.declared.unique second.declared⟩
  have rests := first.split.symm.trans second.split
  rwa [String.append_right_inj] at rests

/-- A name has a longest declared start, if it has any. -/
theorem exists_longestStart_or_unmatched (settings : Json) (name : String) :
    (∃ start rest targets, LongestStart settings name start rest targets) ∨ Unmatched settings name := by
  cases read : PathAliases.ofSettings? "" settings with
  | none => exact .inr fun start targets declared => absurd declared (not_maps_of_ofSettings?_eq_none read _ _)
  | some aliases =>
    cases found : aliases.mappings.findSome? fun m =>
        (Text.stripPrefix? m.start.toList name.toList).map (m, ·) with
    | none => exact .inr (unmatched_of_not_found read found)
    | some chosen => exact .inl ⟨_, _, _, longestStart_of_found read found⟩

theorem candidates_of_longestStart (read : PathAliases.ofSettings? directory settings = some aliases)
    {name start rest : String} {targets : List String}
    (longest : LongestStart settings name start rest targets) :
    aliases.candidates name =
      targets.map fun target => normalize (join (settings.targetsFrom directory) (target ++ rest)) := by
  unfold PathAliases.candidates
  rw [(PathAliases.ofSettings?_eq_some read).1]
  split
  · rename_i found
    obtain ⟨-, rfl, rfl⟩ := longest.unique (longestStart_of_found read found)
    rfl
  · rename_i notFound
    exact absurd longest.starts (unmatched_of_not_found read notFound _ _ longest.declared)

theorem candidates_of_unmatched (read : PathAliases.ofSettings? directory settings = some aliases)
    {name : String} (unmatched : Unmatched settings name) : aliases.candidates name = [] := by
  unfold PathAliases.candidates
  split
  · rename_i found
    have longest := longestStart_of_found read found
    exact absurd longest.starts (unmatched _ _ longest.declared)
  · rfl

end

/-! ## Entries in another order -/

/-- The settings are the same but for the order of the entries of `paths`.  Of several members with one name, only
    the last is an entry. -/
inductive Json.Reordered (settings others : Json) : Prop where
  | paths {options otherOptions : Json} {members otherMembers : List (String × Json)}
      (compiler : settings.member? "compilerOptions" = some options)
      (otherCompiler : others.member? "compilerOptions" = some otherOptions)
      (sameBase : options.member? "baseUrl" = otherOptions.member? "baseUrl")
      (paths : options.member? "paths" = some (.object members))
      (otherPaths : otherOptions.member? "paths" = some (.object otherMembers))
      (entries : (lastMembers members).Perm (lastMembers otherMembers)) : Reordered settings others

theorem Json.Reordered.maps_iff {settings others : Json} (reordered : settings.Reordered others)
    (start : String) (targets : List String) : settings.Maps start targets ↔ others.Maps start targets := by
  obtain ⟨compiler, otherCompiler, -, paths, otherPaths, entries⟩ := reordered
  rw [Json.maps_iff compiler paths, Json.maps_iff otherCompiler otherPaths]
  exact (entries.filterMap _).mem_iff

theorem Json.Reordered.targetsFrom_eq {settings others : Json} (reordered : settings.Reordered others)
    (directory : String) : settings.targetsFrom directory = others.targetsFrom directory := by
  obtain ⟨compiler, otherCompiler, sameBase, -, -, -⟩ := reordered
  simp only [Json.targetsFrom, compiler, otherCompiler, Option.bind_some, sameBase]

section

variable {settings others : Json} {name start rest : String} {targets : List String}

theorem LongestStart.reorder (reordered : settings.Reordered others)
    (longest : LongestStart settings name start rest targets) :
    LongestStart others name start rest targets := by
  refine ⟨(reordered.maps_iff _ _).mp longest.declared, longest.split, ?_⟩
  intro other otherTargets declared starts
  exact longest.longest ((reordered.maps_iff _ _).mpr declared) starts

theorem Unmatched.reorder (reordered : settings.Reordered others) (unmatched : Unmatched settings name) :
    Unmatched others name :=
  fun start targets declared => unmatched start targets ((reordered.maps_iff _ _).mpr declared)

end

theorem PathAliases.mappings_ne_nil {directory : String} {settings : Json} {aliases : PathAliases}
    (read : PathAliases.ofSettings? directory settings = some aliases) : aliases.mappings ≠ [] := by
  obtain ⟨-, options, members, compiler, paths, mappings⟩ := PathAliases.ofSettings?_eq_some read
  intro nothing
  have declaresNothing : mappingsIn members = [] := by
    rw [mappings] at nothing
    exact List.length_eq_zero_iff.mp (by rw [← List.length_mergeSort, nothing]; rfl)
  -- With no mapping at all there would be no aliases either.
  simp only [PathAliases.ofSettings?, compiler, paths, Json.members?, Option.bind_eq_bind,
    Option.bind_some] at read
  rw [mappingsIn] at declaresNothing
  rw [declaresNothing] at read
  cases read

theorem ofSettings?_eq_none_iff (directory : String) (settings : Json) :
    PathAliases.ofSettings? directory settings = none ↔ ∀ start targets, ¬ settings.Maps start targets := by
  constructor
  · exact not_maps_of_ofSettings?_eq_none
  · intro declaresNothing
    cases read : PathAliases.ofSettings? directory settings with
    | none => rfl
    | some aliases =>
      obtain ⟨m, member⟩ := List.exists_mem_of_ne_nil _ (PathAliases.mappings_ne_nil read)
      exact absurd ((mem_mappings_iff read m.start m.targets).mp member) (declaresNothing _ _)

theorem candidates_eq_nil_iff {directory : String} {settings : Json} {aliases : PathAliases}
    (read : PathAliases.ofSettings? directory settings = some aliases) (name : String) :
    aliases.candidates name = [] ↔ Unmatched settings name := by
  constructor
  · intro nothing
    rcases exists_longestStart_or_unmatched settings name with ⟨start, rest, targets, longest⟩ | unmatched
    · -- A mapping that is declared has a target, so there would be a candidate.
      obtain ⟨-, -, -, -, -, -, -, nonempty⟩ := longest.declared
      rw [candidates_of_longestStart read longest, List.map_eq_nil_iff] at nothing
      exact absurd nothing nonempty
    · exact unmatched
  · exact candidates_of_unmatched read

theorem candidates_reordered {settings others : Json} (reordered : settings.Reordered others)
    (directory name : String) :
    (PathAliases.ofSettings? directory settings).map (·.candidates name) =
      (PathAliases.ofSettings? directory others).map (·.candidates name) := by
  have noneIff : PathAliases.ofSettings? directory settings = none ↔
      PathAliases.ofSettings? directory others = none := by
    simp only [ofSettings?_eq_none_iff, reordered.maps_iff]
  cases read : PathAliases.ofSettings? directory settings with
  | none => rw [noneIff.mp read]
  | some aliases =>
    cases otherRead : PathAliases.ofSettings? directory others with
    | none =>
      rw [noneIff.mpr otherRead] at read
      cases read
    | some otherAliases =>
      rw [Option.map_some, Option.map_some, Option.some.injEq]
      rcases exists_longestStart_or_unmatched settings name with ⟨start, rest, targets, longest⟩ | unmatched
      · rw [candidates_of_longestStart read longest,
          candidates_of_longestStart otherRead (longest.reorder reordered), reordered.targetsFrom_eq]
      · rw [candidates_of_unmatched read unmatched,
          candidates_of_unmatched otherRead (unmatched.reorder reordered)]

/-- A name that has a declared start has one longest start, and its candidates are the targets declared for that
    start, in their order.  A name has no candidates if and only if it has no declared start, and the order of the
    entries never counts. -/
theorem candidates_exact (directory : String) (settings : Json) (name : String) :
    ((∃ start rest targets, LongestStart settings name start rest targets) ∨ Unmatched settings name) ∧
    (∀ start rest targets start' rest' targets', LongestStart settings name start rest targets →
      LongestStart settings name start' rest' targets' → start = start' ∧ rest = rest' ∧ targets = targets') ∧
    (∀ aliases, PathAliases.ofSettings? directory settings = some aliases →
      (∀ start rest targets, LongestStart settings name start rest targets →
        aliases.candidates name =
          targets.map fun target => normalize (join (settings.targetsFrom directory) (target ++ rest))) ∧
      (aliases.candidates name = [] ↔ Unmatched settings name)) ∧
    (PathAliases.ofSettings? directory settings = none ↔ ∀ start targets, ¬ settings.Maps start targets) ∧
    ∀ others, settings.Reordered others →
      (PathAliases.ofSettings? directory settings).map (·.candidates name) =
        (PathAliases.ofSettings? directory others).map (·.candidates name) := by
  refine ⟨exists_longestStart_or_unmatched settings name, ?_, ?_, ofSettings?_eq_none_iff directory settings, ?_⟩
  · intro _ _ _ _ _ _ first second
    exact first.unique second
  · intro aliases read
    exact ⟨fun _ _ _ => candidates_of_longestStart read, candidates_eq_nil_iff read name⟩
  · intro others reordered
    exact candidates_reordered reordered directory name

def nestedSettings (entries : List (String × Json)) : Json :=
  .object [("compilerOptions", .object [("baseUrl", .string "src"), ("paths", .object entries)])]

/-- A start inside another one, with a target that has no star. -/
def nestedEntries : List (String × Json) :=
  [("é/*", .array [.string "*"]), ("é/ui/*", .array [.string "ui/*", .string "ui", .string "./*"])]

theorem nested_maps_iff (start : String) (targets : List String) :
    (nestedSettings nestedEntries).Maps start targets ↔
      ⟨start, targets⟩ ∈ [AliasMapping.mk "é/" [""], AliasMapping.mk "é/ui/" ["ui/", "./"]] := by
  have mappings : mappingsIn nestedEntries = [⟨"é/", [""]⟩, ⟨"é/ui/", ["ui/", "./"]⟩] := by decide
  rw [← mappings]
  exact Json.maps_iff rfl rfl start targets

theorem nested_longestStart :
    LongestStart (nestedSettings nestedEntries) "é/ui/ö" "é/ui/" "ö" ["ui/", "./"] := by
  refine ⟨(nested_maps_iff _ _).mpr (by simp), by decide, ?_⟩
  intro other others declared _
  have listed := (nested_maps_iff _ _).mp declared
  simp only [List.mem_cons, AliasMapping.mk.injEq, List.not_mem_nil, or_false] at listed
  rcases listed with ⟨rfl, -⟩ | ⟨rfl, -⟩ <;> decide

theorem nested_reordered :
    (nestedSettings nestedEntries).Reordered (nestedSettings nestedEntries.reverse) := by
  apply Json.Reordered.paths
  · rfl
  · rfl
  · rfl
  · rfl
  · rfl
  · exact List.Perm.swap _ _ _

/-- The longer start counts, whichever comes first. -/
theorem candidates_exact_nested :
    (nestedSettings nestedEntries).Reordered (nestedSettings nestedEntries.reverse) ∧
    LongestStart (nestedSettings nestedEntries) "é/ui/ö" "é/ui/" "ö" ["ui/", "./"] ∧
    (PathAliases.ofSettings? "/p" (nestedSettings nestedEntries)).map (·.candidates "é/ui/ö") =
      some ["/p/src/ui/ö", "/p/src/ö"] ∧
    (PathAliases.ofSettings? "/p" (nestedSettings nestedEntries.reverse)).map (·.candidates "é/ui/ö") =
      some ["/p/src/ui/ö", "/p/src/ö"] := by
  obtain ⟨-, -, ofLongest, isNone, reorder⟩ := candidates_exact "/p" (nestedSettings nestedEntries) "é/ui/ö"
  have inOrder : (PathAliases.ofSettings? "/p" (nestedSettings nestedEntries)).map (·.candidates "é/ui/ö") =
      some ["/p/src/ui/ö", "/p/src/ö"] := by
    cases read : PathAliases.ofSettings? "/p" (nestedSettings nestedEntries) with
    | none => exact absurd nested_longestStart.declared (isNone.mp read _ _)
    | some aliases =>
      rw [Option.map_some, (ofLongest aliases read).1 _ _ _ nested_longestStart]
      decide
  exact ⟨nested_reordered, nested_longestStart, inOrder, (reorder _ nested_reordered).symm.trans inOrder⟩

end CallAtlas
