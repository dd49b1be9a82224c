import CallAtlas.Proofs.Loading
import CallAtlas.Proofs.Targets

/-!
# Chains of re-exports

A name that a module passes on is looked up along a chain of files: each file but the last passes the
name on by one of its re-exports, and the last provides it.  `Chain` says so without the search.  The
search finds the end of the first chain that is short enough, where chains are compared by the places
of their re-exports (`lookupExport_exact`).

A file provides a name when the id that it would have there is that of a node.  Ids do not always tell
where the path ends: a unit of another file can have that id (`lookupExport_beyond_units`), if the path
of a file has a colon.
-/

namespace CallAtlas

/-- The re-export passes on `inner` of its module as `name`. -/
def ReExport.PassesOn (r : ReExport) (name inner : String) : Prop :=
  (r.exportedName = name ∧ inner = r.nameInModule) ∨
    (r.exportedName ≠ name ∧ r.exportedName = "*" ∧ name ≠ "default" ∧ inner = name)

theorem ReExport.passesOn_iff (r : ReExport) (name inner : String) :
    r.PassesOn name inner ↔ Scope.passedOn r name = some inner := by
  unfold PassesOn Scope.passedOn
  by_cases same : r.exportedName = name
  · simp only [same, beq_self_eq_true, ↓reduceIte, Option.some.injEq, true_and, ne_eq,
      not_true_eq_false, false_and, or_false]
    exact eq_comm
  · simp only [beq_iff_eq, same, ↓reduceIte, false_and, false_or, ne_eq, not_false_eq_true, true_and,
      Bool.and_eq_true, bne_iff_ne, Option.ite_none_right_eq_some, Option.some.injEq, and_assoc]
    rw [eq_comm (a := inner)]

/-- The unit that the file exports by default has the id. -/
def FileFacts.ExportsByDefault (f : FileFacts) (id : String) : Prop :=
  ∃ u, f.units.find? (·.1.defaultExport) = some u ∧ id = nodeId f.relative u.1.name

/-- The file provides the id under the name: that of its default export, or that of a node whose id is
    made of the path of the file and the name. -/
def Provides (facts : List FileFacts) (f : FileFacts) (name id : String) : Prop :=
  (name = "default" ∧ f.ExportsByDefault id) ∨
    (name ≠ "default" ∧ id = nodeId f.relative name ∧
      ∃ g ∈ facts, ∃ u ∈ g.units, nodeId g.relative u.1.name = id)

/-- The file has a unit of the name, or exports one by default. -/
def HasUnit (f : FileFacts) (name id : String) : Prop :=
  (name = "default" ∧ f.ExportsByDefault id) ∨
    (name ≠ "default" ∧ id = nodeId f.relative name ∧ ∃ u ∈ f.units, u.1.name = name)

/-- The name leads from the file at the path to the id.  The route has, for each file but the last, the
    place of the re-export that is taken. -/
inductive Chain (facts : List FileFacts) (resolve : String → String → Option String)
    (provides : FileFacts → String → String → Prop) : String → String → List Nat → String → Prop
  | provided {path name id : String} {f : FileFacts}
      (loaded : facts.find? (fun f => samePath f.path path) = some f) (provided : provides f name id) :
      Chain facts resolve provides path name [] id
  | passedOn {path name inner target id : String} {f : FileFacts} {r : ReExport} {place : Nat}
      {route : List Nat}
      (loaded : facts.find? (fun f => samePath f.path path) = some f)
      (notHere : ∀ id, ¬ provides f name id)
      (declared : f.reExports[place]? = some r)
      (passes : r.PassesOn name inner)
      (leads : resolve f.path r.specifier = some target)
      (rest : Chain facts resolve provides target inner route id) :
      Chain facts resolve provides path name (place :: route) id

/-- The id is at the end of the first chain with at most `hops` re-exports. -/
def FirstChain (facts : List FileFacts) (resolve : String → String → Option String)
    (provides : FileFacts → String → String → Prop) (hops : Nat) (path name id : String) : Prop :=
  ∃ route, route.length ≤ hops ∧ Chain facts resolve provides path name route id ∧
    ∀ other otherId, other.length ≤ hops → Chain facts resolve provides path name other otherId →
      ¬ other < route

section

variable {facts : List FileFacts} {resolve : String → String → Option String}

variable (resolve) in
theorem provides_iff (f : FileFacts) (name id : String) :
    Provides facts f name id ↔ (Scope.ofFacts facts resolve).providedBy f name = some id := by
  unfold Provides Scope.providedBy FileFacts.ExportsByDefault
  by_cases byDefault : name = "default"
  · simp only [byDefault, beq_self_eq_true, ↓reduceIte, Option.map_eq_some_iff, true_and, ne_eq,
      not_true_eq_false, false_and, or_false]
    exact exists_congr fun u => and_congr_right fun _ => eq_comm
  · simp only [byDefault, beq_iff_eq, ↓reduceIte, false_and, false_or, ne_eq, not_false_eq_true,
      true_and, Scope.definedIn_eq_some_iff, isNode_ofFacts_iff]

variable (resolve) in
theorem not_provides_iff (f : FileFacts) (name : String) :
    (∀ id, ¬ Provides facts f name id) ↔ (Scope.ofFacts facts resolve).providedBy f name = none := by
  simp only [provides_iff resolve, Option.eq_none_iff_forall_ne_some, ne_eq]

/-- A route leads to one id. -/
theorem Chain.id_unique {path name id id' : String} {route : List Nat}
    (chain : Chain facts resolve (Provides facts) path name route id)
    (chain' : Chain facts resolve (Provides facts) path name route id') : id = id' := by
  induction chain with
  | provided loaded provided =>
    cases chain' with
    | provided loaded' provided' =>
      obtain rfl := Option.some.inj (loaded.symm.trans loaded')
      rw [provides_iff resolve] at provided provided'
      exact Option.some.inj (provided.symm.trans provided')
  | passedOn loaded notHere declared passes leads rest inductionHypothesis =>
    cases chain' with
    | passedOn loaded' notHere' declared' passes' leads' rest' =>
      obtain rfl := Option.some.inj (loaded.symm.trans loaded')
      obtain rfl := Option.some.inj (declared.symm.trans declared')
      rw [ReExport.passesOn_iff] at passes passes'
      obtain rfl := Option.some.inj (passes.symm.trans passes')
      obtain rfl := Option.some.inj (leads.symm.trans leads')
      exact inductionHypothesis rest'

/-- The search misses no chain that is short enough: a re-export that leads nowhere does not hide a
    later one. -/
theorem lookupExport_isSome_of_chain {path name id : String} {route : List Nat}
    (chain : Chain facts resolve (Provides facts) path name route id) {hops : Nat}
    (short : route.length ≤ hops) :
    ((Scope.ofFacts facts resolve).lookupExport hops path name).value.isSome = true := by
  -- On the chain: every file that passes the name on takes one hop from the search.
  induction chain generalizing hops with
  | @provided path name id f loaded provided =>
    have provided := (provides_iff resolve f name id).mp provided
    have atPath : (Scope.ofFacts facts resolve).factsAt path = some f := loaded
    cases hops with
    | zero => rw [Scope.lookupExport_zero, atPath, Option.bind_some, provided]; rfl
    | succ hops => rw [Scope.lookupExport_succ, atPath, Option.bind_some, provided]; rfl
  | @passedOn path name inner target id f r place route loaded notHere declared passes leads rest
      inductionHypothesis =>
    have atPath : (Scope.ofFacts facts resolve).factsAt path = some f := loaded
    cases hops with
    | zero => simp at short
    | succ hops =>
      rw [Scope.lookupExport_succ, atPath, Option.bind_some,
        (not_provides_iff resolve f name).mp notHere, Option.none_or, Scope.throughReExports,
        List.findSome?_isSome_iff]
      refine ⟨r, List.mem_of_getElem? declared, ?_⟩
      have leads : (Scope.ofFacts facts resolve).resolve f.path r.specifier = some target := leads
      rw [(r.passesOn_iff name inner).mp passes, Option.bind_some, leads, Option.bind_some]
      exact inductionHypothesis (by simpa using short)

theorem firstChain_of_provided {path name id : String} {f : FileFacts} (hops : Nat)
    (loaded : facts.find? (fun f => samePath f.path path) = some f) (provided : Provides facts f name id) :
    FirstChain facts resolve (Provides facts) hops path name id :=
  ⟨[], Nat.zero_le hops, .provided loaded provided, fun other _ _ _ => List.not_lt_nil other⟩

/-- Chains that start with a re-export before the first that leads on are too long, and those that
    start with a later one come later. -/
theorem firstChain_of_passedOn {path name inner target id : String} {f : FileFacts} {hops : Nat}
    {before after : List ReExport} {r : ReExport}
    (loaded : facts.find? (fun f => samePath f.path path) = some f)
    (notHere : ∀ id, ¬ Provides facts f name id) (declared : f.reExports = before ++ r :: after)
    (passes : r.PassesOn name inner) (leads : resolve f.path r.specifier = some target)
    (rest : FirstChain facts resolve (Provides facts) hops target inner id)
    (lost : ∀ r' ∈ before, ∀ inner' target', r'.PassesOn name inner' →
      resolve f.path r'.specifier = some target' →
      ((Scope.ofFacts facts resolve).lookupExport hops target' inner').value = none) :
    FirstChain facts resolve (Provides facts) (hops + 1) path name id := by
  obtain ⟨route, short, chain, first⟩ := rest
  have atPlace : f.reExports[before.length]? = some r := by simp [declared]
  refine ⟨before.length :: route, Nat.succ_le_succ short,
    .passedOn loaded notHere atPlace passes leads chain, ?_⟩
  intro other otherId otherShort otherChain
  cases otherChain with
  | provided loaded' provided' =>
    obtain rfl := Option.some.inj (loaded.symm.trans loaded')
    exact absurd provided' (notHere otherId)
  | @passedOn _ _ inner' target' _ f' r' place route' loaded' _ declared' passes' leads' rest' =>
    obtain rfl := Option.some.inj (loaded.symm.trans loaded')
    have routeShort : route'.length ≤ hops := Nat.le_of_succ_le_succ otherShort
    rcases Nat.lt_trichotomy place before.length with earlier | same | later
    · -- The search would have found the rest of this chain.
      have member : r' ∈ before := by
        rw [declared, List.getElem?_append_left earlier] at declared'
        exact List.mem_of_getElem? declared'
      have found := lookupExport_isSome_of_chain rest' routeShort
      rw [lost r' member inner' target' passes' leads'] at found
      cases found
    · -- Both chains take the same re-export, so their rests are to be compared.
      subst same
      obtain rfl := Option.some.inj (atPlace.symm.trans declared')
      rw [ReExport.passesOn_iff] at passes passes'
      obtain rfl := Option.some.inj (passes.symm.trans passes')
      obtain rfl := Option.some.inj (leads.symm.trans leads')
      rw [List.cons_lt_cons_iff]
      rintro (below | ⟨-, below⟩)
      · exact Nat.lt_irrefl _ below
      · exact first route' otherId routeShort rest' below
    · rw [List.cons_lt_cons_iff]
      omega

theorem firstChain_of_lookupExport (hops : Nat) {path name id : String}
    (found : ((Scope.ofFacts facts resolve).lookupExport hops path name).value = some id) :
    FirstChain facts resolve (Provides facts) hops path name id := by
  -- On the hops: what a re-export leads to is first among the chains with one hop less.
  induction hops generalizing path name with
  | zero =>
    rw [Scope.lookupExport_zero, Option.bind_eq_some_iff] at found
    obtain ⟨f, loaded, provided⟩ := found
    exact firstChain_of_provided 0 loaded ((provides_iff resolve f name id).mpr provided)
  | succ hops inductionHypothesis =>
    rw [Scope.lookupExport_succ, Option.bind_eq_some_iff] at found
    obtain ⟨f, loaded, found⟩ := found
    rcases Option.or_eq_some_iff.mp found with provided | ⟨notHere, passed⟩
    · exact firstChain_of_provided (hops + 1) loaded ((provides_iff resolve f name id).mpr provided)
    · obtain ⟨before, r, after, declared, followed, lost⟩ := List.findSome?_eq_some_iff.mp passed
      obtain ⟨inner, passes, followed⟩ := Option.bind_eq_some_iff.mp followed
      obtain ⟨target, leads, followed⟩ := Option.bind_eq_some_iff.mp followed
      refine firstChain_of_passedOn loaded ((not_provides_iff resolve f name).mpr notHere) declared
        ((r.passesOn_iff name inner).mpr passes) leads (inductionHypothesis followed) ?_
      intro r' member inner' target' passes' leads'
      have nothing := lost r' member
      have leads' : (Scope.ofFacts facts resolve).resolve f.path r'.specifier = some target' := leads'
      rw [(r'.passesOn_iff name inner').mp passes', Option.bind_some, leads', Option.bind_some]
        at nothing
      exact nothing

theorem lookupExport_eq_some_iff (hops : Nat) (path name id : String) :
    ((Scope.ofFacts facts resolve).lookupExport hops path name).value = some id ↔
      FirstChain facts resolve (Provides facts) hops path name id := by
  constructor
  · exact firstChain_of_lookupExport hops
  · rintro ⟨route, short, chain, first⟩
    obtain ⟨id', found⟩ := Option.isSome_iff_exists.mp (lookupExport_isSome_of_chain chain short)
    obtain ⟨route', short', chain', first'⟩ := firstChain_of_lookupExport hops found
    have same : route = route' :=
      List.le_antisymm (List.not_lt.mp (first route' id' short' chain'))
        (List.not_lt.mp (first' route id short chain))
    subst same
    rw [found, chain.id_unique chain']

/-! ## When ids tell files apart -/

theorem takeWhile_nodeId {file : String} (noColon : ':' ∉ file.toList) (name : String) :
    (nodeId file name).toList.takeWhile (· ≠ ':') = file.toList := by
  have free : ∀ c ∈ file.toList, decide (c ≠ ':') = true := by
    intro c member
    have notColon : c ≠ ':' := fun isColon => noColon (isColon ▸ member)
    simpa using notColon
  simp only [nodeId, String.toList_append, List.append_assoc]
  rw [List.takeWhile_append_of_pos free]
  simp

theorem nodeId_injective {file file' name name' : String} (noColon : ':' ∉ file.toList)
    (noColon' : ':' ∉ file'.toList) (same : nodeId file name = nodeId file' name') :
    file = file' ∧ name = name' := by
  have sameFile : file = file' := by
    rw [← String.toList_inj, ← takeWhile_nodeId noColon name, same, takeWhile_nodeId noColon']
  subst sameFile
  exact ⟨rfl, String.append_right_inj _ |>.mp same⟩

/-- The paths of the files within the project have no colon, and no two of them are the same. -/
structure PlainPaths (facts : List FileFacts) : Prop where
  noColon : ∀ f ∈ facts, ':' ∉ f.relative.toList
  apart : ∀ f ∈ facts, ∀ g ∈ facts, f.relative = g.relative → f = g

/-- Under the id that is made of the path of a file and a name there is only the unit of that file. -/
theorem PlainPaths.exists_unit_iff (plain : PlainPaths facts) {f : FileFacts} (loaded : f ∈ facts)
    (name : String) :
    (∃ g ∈ facts, ∃ u ∈ g.units, nodeId g.relative u.1.name = nodeId f.relative name) ↔
      ∃ u ∈ f.units, u.1.name = name := by
  constructor
  · rintro ⟨g, loaded', u, member, same⟩
    obtain ⟨samePath, sameName⟩ :=
      nodeId_injective (plain.noColon g loaded') (plain.noColon f loaded) same
    obtain rfl := plain.apart g loaded' f loaded samePath
    exact ⟨u, member, sameName⟩
  · rintro ⟨u, member, rfl⟩
    exact ⟨f, loaded, u, member, rfl⟩

theorem PlainPaths.provides_iff_hasUnit (plain : PlainPaths facts) {f : FileFacts} (loaded : f ∈ facts)
    (name id : String) : Provides facts f name id ↔ HasUnit f name id := by
  unfold Provides HasUnit
  refine or_congr_right (and_congr_right fun _ => and_congr_right fun atFile => ?_)
  subst atFile
  exact plain.exists_unit_iff loaded name

/-- The search for an export gives the end of the first chain of at most five re-exports, and finds
    nothing only if there is no such chain.  Where the paths of the files are plain, files provide the
    units that they have. -/
theorem lookupExport_exact (facts : List FileFacts) (resolve : String → String → Option String)
    (path name : String) :
    (∀ id, ((Scope.ofFacts facts resolve).lookupExport maxHops path name).value = some id ↔
      FirstChain facts resolve (Provides facts) 5 path name id) ∧
    (((Scope.ofFacts facts resolve).lookupExport maxHops path name).value.isSome = true ↔
      ∃ route id, route.length ≤ 5 ∧ Chain facts resolve (Provides facts) path name route id) ∧
    (PlainPaths facts → ∀ f ∈ facts, ∀ name id, Provides facts f name id ↔ HasUnit f name id) := by
  refine ⟨lookupExport_eq_some_iff maxHops path name, ?_, ?_⟩
  · constructor
    · intro found
      obtain ⟨id, found⟩ := Option.isSome_iff_exists.mp found
      obtain ⟨route, short, chain, -⟩ := firstChain_of_lookupExport maxHops found
      exact ⟨route, id, short, chain⟩
    · rintro ⟨route, id, short, chain⟩
      exact lookupExport_isSome_of_chain chain short
  · intro plain f loaded
    exact plain.provides_iff_hasUnit loaded

end

/-- A file beside a directory whose name starts with that of the file and a colon. -/
def colonTree : FileTree :=
  ⟨[(["p"], .directory),
    (["p", "a.ts"], .file "export function z() \x7b\x7d".toUTF8),
    (["p", "a.ts:x"], .directory),
    (["p", "a.ts:x", "b.ts"], .file "export function y() \x7b\x7d".toUTF8)]⟩

/-- The facts about the two files. -/
def colonFacts : List FileFacts := loadedFacts colonTree "/p" 1000 ["a.ts", "a.ts:x/b.ts"]

theorem colonFacts_first :
    (colonFacts.find? fun f => samePath f.path "/p/a.ts").map
      (fun f => (f.units.map (·.1.name), f.reExports.length)) = some (["z"], 0) := by
  decide +kernel

/-- The search can find a unit of another file, and then no chain leads to it. -/
theorem lookupExport_beyond_units :
    ((Scope.ofFacts colonFacts fun _ _ => none).lookupExport maxHops "/p/a.ts" "x/b.ts:y").value =
        some "a.ts:x/b.ts:y" ∧
      ∀ route id, ¬ Chain colonFacts (fun _ _ => none) HasUnit "/p/a.ts" "x/b.ts:y" route id := by
  refine ⟨by decide +kernel, ?_⟩
  intro route id chain
  cases chain with
  | provided loaded provided =>
    have file := colonFacts_first
    rw [loaded, Option.map_some, Option.some.injEq, Prod.mk.injEq] at file
    rcases provided with ⟨byDefault, -⟩ | ⟨-, -, u, member, named⟩
    · exact absurd byDefault (by decide)
    · have listed : "x/b.ts:y" ∈ ["z"] := file.1 ▸ named ▸ List.mem_map_of_mem member
      exact absurd listed (by decide)
  | passedOn loaded notHere declared passes leads rest => cases leads

end CallAtlas
