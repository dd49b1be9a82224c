import CallAtlas.Proofs.TrailAddresses
import Mathlib.Data.List.TakeWhile

/-!
# The places of declarations

A declaration is a function, a class, a method in the body of a class, or a declaration of variables the first of
which is bound to a function.  `FoundAt` says of a place that a declaration stands there, and at which node the walk
comes by it: at the declaration itself, and for a method at its class.  Every declaration has one `Outcome`: it is a
unit, or an issue because it has no name or holds a syntax error.

The findings of a file are the outcomes of its declarations, of each one once (`ParsedSource.exists_reports`,
`ParsedSource.Reports.nodup`).  They come in the order of the nodes at which they are found, and those of a class in
the order of their places.
-/

namespace CallAtlas

open Syntax Syntax.Tree Text

/-! ## Declarations at a place -/

/-- The node is spelled as a name, and the name is not blank. -/
def IsName (source : String) (n : Tree) (name : String) : Prop :=
  n.text source = name ∧ ∃ c ∈ name.toList, isBlank c = false

/-- The node declares a function.  An expression does so if it has a name and is the default export. -/
inductive IsFunctionAt (root : Tree) (p : Address) (t : Tree) : Prop where
  | declaration : t.kind = .functionDeclaration ∨ t.kind = .generatorFunctionDeclaration → IsFunctionAt root p t
  | expression {n : Tree} : t.kind = .functionExpression → t.childIn .name = some n → StandsInDefault root p →
      IsFunctionAt root p t

/-- The node declares a class.  An expression does so if it is the default export. -/
inductive IsClassAt (root : Tree) (p : Address) (t : Tree) : Prop where
  | declaration : t.kind = .classDeclaration ∨ t.kind = .abstractClassDeclaration → IsClassAt root p t
  | expression : t.kind = .classExpression → StandsInDefault root p → IsClassAt root p t

/-- The node declares variables, the first of which is bound to a function and has no pattern for a name. -/
inductive BindsFunction (t : Tree) : Option Tree → Prop where
  | intro {declarator value : Tree} : t.kind = .lexicalDeclaration ∨ t.kind = .variableDeclaration →
      t.childOf .variableDeclarator = some declarator → declarator.childIn .value = some value →
      value.kind = .arrowFunction ∨ value.kind = .functionExpression →
      (∀ n, declarator.childIn .name = some n → n.kind = .identifier) →
      BindsFunction t (declarator.childIn .name)

/-- At the node `p` the walk comes by the declaration `t` at the place `q`.  The declaration is called by `front` and
    then the text of `name?`.  Arguments: `p`, `q`, `t`, `front`, `name?`. -/
inductive FoundAt (source : String) (root : Tree) : Address → Address → Tree → String → Option Tree → Prop where
  | function {p : Address} {t : Tree} : root.at? p = some t → IsFunctionAt root p t →
      FoundAt source root p p t "" (t.childIn .name)
  | class_ {p : Address} {t n : Tree} : root.at? p = some t → IsClassAt root p t → t.childIn .name = some n →
      FoundAt source root p p t "" (some n)
  | method {p : Address} {t n m : Tree} {className : String} {i j : Nat} : root.at? p = some t →
      IsClassAt root p t → t.childIn .name = some n → IsName source n className → t.indexIn .body = some i →
      root.at? (p ++ [i, j]) = some m → m.kind = .methodDefinition →
      FoundAt source root p (p ++ [i, j]) m (className ++ ".") (m.childIn .name)
  | variable_ {p : Address} {t : Tree} {name? : Option Tree} : root.at? p = some t → BindsFunction t name? →
      FoundAt source root p p t "" name?

/-- What is found of a declaration: it is a unit, or has no name, or holds a syntax error. -/
inductive Outcome (source : String) (exported : Bool) (trail : Trail) (t : Tree) (front : String)
    (name? : Option Tree) : Finding → Prop where
  | nameless {i : Issue} : nameOf source t name? = .error i →
      Outcome source exported trail t front name? (.issue i)
  | broken {name : String} : nameOf source t name? = .ok name → t.hasError = true →
      Outcome source exported trail t front name? (.issue (brokenIssue t (front ++ name)))
  | whole {name : String} {c : Candidate} : nameOf source t name? = .ok name → t.hasError = false →
      c.name = front ++ name → c.declaration = t → c.trail = trail → c.exported = exported →
      Outcome source exported trail t front name? (.candidate c)

/-! ## Names -/

theorem trim_eq_nil_iff (cs : List Char) : trim cs = [] ↔ ∀ c ∈ cs, isBlank c = true := by
  simp only [trim, trimEnd, trimStart, dropEndWhile, List.reverse_eq_nil_iff, List.dropWhile_eq_nil_iff,
    List.mem_reverse]
  constructor
  · intro blank c member
    rw [← List.takeWhile_append_dropWhile (p := isBlank) (l := cs), List.mem_append] at member
    rcases member with front | rest
    · exact List.mem_takeWhile_imp front
    · exact blank c rest
  · intro blank c member
    exact blank c ((List.dropWhile_suffix isBlank).subset member)

theorem nameOf_eq_ok_iff (source : String) (t : Tree) (name? : Option Tree) (name : String) :
    nameOf source t name? = .ok name ↔ ∃ n, name? = some n ∧ IsName source n name := by
  cases name? with
  | none => simp [nameOf]
  | some n =>
    simp only [nameOf, List.isEmpty_iff, trim_eq_nil_iff, Option.some.injEq, exists_eq_left', IsName]
    split
    · rename_i blank
      simp only [reduceCtorEq, false_iff]
      rintro ⟨rfl, c, member, visible⟩
      simp [blank c member] at visible
    · rename_i visible
      simp only [Except.ok.injEq]
      constructor
      · rintro rfl
        exact ⟨rfl, by simpa using visible⟩
      · exact And.left

/-! ## One declaration -/

section

variable {source : String} {components : Bool} {trail : Trail} {t : Tree}

theorem outcome_unlessBroken {exported : Bool} {front name full : String} {name? : Option Tree} {c : Candidate}
    (named : nameOf source t name? = .ok name) (isFull : full = front ++ name) (sameName : c.name = full)
    (declared : c.declaration = t) (onTrail : c.trail = trail) (flagged : c.exported = exported) :
    Outcome source exported trail t front name? (unlessBroken t full c) := by
  subst isFull
  unfold unlessBroken
  split
  · rename_i isBroken
    exact .broken named isBroken
  · rename_i isWhole
    exact .whole named (by simpa using isWhole) sameName declared onTrail flagged

theorem exists_outcome_functionFindings (source : String) (components : Bool) (trail : Trail) (t : Tree) :
    ∃ f, functionFindings source components trail t = [f] ∧
      Outcome source (exportFlags trail).1 trail t "" (t.childIn .name) f := by
  unfold functionFindings
  split
  · rename_i i unnamed
    exact ⟨_, rfl, .nameless unnamed⟩
  · rename_i name named
    exact ⟨_, rfl, outcome_unlessBroken named String.empty_append.symm rfl rfl rfl rfl⟩

theorem exists_outcome_methodFindings (source className : String) (exported : Bool) (trail : Trail)
    (isMethod : t.kind = .methodDefinition) :
    ∃ f, methodFindings source className exported trail t = [f] ∧
      Outcome source exported trail t (className ++ ".") (t.childIn .name) f := by
  unfold methodFindings
  rw [if_pos isMethod]
  split
  · rename_i i unnamed
    exact ⟨_, rfl, .nameless unnamed⟩
  · rename_i name named
    exact ⟨_, rfl, outcome_unlessBroken named rfl rfl rfl rfl rfl⟩

theorem BindsFunction.unique {a b : Option Tree} (binds : BindsFunction t a) (again : BindsFunction t b) : a = b := by
  obtain ⟨-, first, -⟩ := binds
  obtain ⟨-, first', -⟩ := again
  rw [first, Option.some.injEq] at first'
  rw [first']

theorem exists_outcome_variableFindings (isKind : t.kind = .lexicalDeclaration ∨ t.kind = .variableDeclaration)
    (nonempty : variableFindings source components trail t ≠ []) :
    ∃ name? f, BindsFunction t name? ∧ variableFindings source components trail t = [f] ∧
      Outcome source (exportFlags trail).1 trail t "" name? f := by
  unfold variableFindings at nonempty ⊢
  split
  · rename_i noVariable
    simp [noVariable] at nonempty
  · rename_i declaratorTrail declarator isFirst
    split
    · rename_i unbound
      simp [isFirst, unbound] at nonempty
    · rename_i valueTrail value isBound
      dsimp only
      split
      · rename_i noFunction
        simp [isFirst, isBound, noFunction] at nonempty
      · rename_i isFunction
        split
        · rename_i pattern
          simp [isFirst, isBound, pattern] at nonempty
        · rename_i plain
          have isFunction : isFunctionValue value = true := by simpa using isFunction
          have binds : BindsFunction t (declarator.childIn .name) := by
            refine .intro isKind (childrenFind?_of_placesIn isFirst) (childrenFind?_of_placesIn isBound) ?_ ?_
            · simpa [isFunctionValue] using isFunction
            · intro n isName
              simpa [isName] using plain
          refine ⟨declarator.childIn .name, ?_⟩
          split
          · rename_i i unnamed
            exact ⟨_, binds, rfl, .nameless unnamed⟩
          · rename_i name named
            exact ⟨_, binds, rfl, outcome_unlessBroken named String.empty_append.symm rfl rfl rfl rfl⟩

theorem variableFindings_ne_nil {name? : Option Tree} (binds : BindsFunction t name?) :
    variableFindings source components trail t ≠ [] := by
  obtain ⟨-, isFirst, isValue, isFunction, plain⟩ := binds
  rename_i declarator value
  -- Every test on the way to the last branch has the answer that `binds` gives it.
  obtain ⟨declaratorTrail, atDeclarator⟩ := exists_find?_placesIn isFirst trail
  obtain ⟨valueTrail, atValue⟩ := exists_find?_placesIn isValue declaratorTrail
  have isFunction : isFunctionValue value = true := by simpa [isFunctionValue] using isFunction
  have plain : ((declarator.childIn .name).map fun n => n.kind != .identifier).getD false = false := by
    cases shape : declarator.childIn .name with
    | none => rfl
    | some n => simp [plain n shape]
  unfold variableFindings
  simp only [atDeclarator, placeIn?, atValue, isFunction, plain, Bool.not_true, Bool.false_eq_true, if_false]
  split <;> simp

end

/-! ## Classes and their methods -/

section

variable {source : String} {components : Bool} {root t n : Tree} {p : Address} {name : String}

theorem exists_outcome_classFindings (found : root.at? p = some t) (hasName : t.childIn .name = some n)
    (named : nameOf source t (some n) = .ok name) :
    ∃ f, Outcome source (exportFlags (root.trailTo p)).1 (root.trailTo p) t "" (some n) f ∧
      classFindings source components (root.trailTo p) t =
        f :: (membersAt p t).flatMap fun x =>
          methodFindings source name (exportFlags (root.trailTo p)).1 (root.trailTo x.1) x.2 := by
  have inBody := find?_placesIn found fun c => c.field == some .body
  refine ⟨unlessBroken t name
    { name, kind := kindOf components name (t.childIn .body) .class_, above := (root.trailTo p).above, scope := t,
      declaration := t, trail := root.trailTo p, params := none, body := t.childIn .body,
      exported := (exportFlags (root.trailTo p)).1, defaultExport := (exportFlags (root.trailTo p)).2 },
    outcome_unlessBroken named String.empty_append.symm rfl rfl rfl rfl, ?_⟩
  unfold classFindings
  rw [hasName]
  simp only [named]
  congr 1
  rw [placeIn?, inBody]
  cases isBody : t.indexIn .body with
  | none =>
    rw [indexIn] at isBody
    simp [membersAt, indexIn, isBody]
  | some i =>
    rw [indexIn] at isBody
    obtain ⟨inside, -⟩ := List.findIdx?_eq_some_iff_getElem.mp isBody
    have isChild : t.children[i]? = some t.children[i] := List.getElem?_eq_getElem inside
    have atBody : root.at? (p ++ [i]) = some t.children[i] := by rw [at?_concat found, isChild]
    simp [membersAt, indexIn, isBody, isChild, placesIn_trailTo atBody, List.flatMap_map]

end

/-! ## All that is found at a node -/

/-- The findings of the node at `p`, each with the place of the declaration it is about. -/
structure ReportsOf (source : String) (components : Bool) (root : Tree) (p : Address) (t : Tree)
    (reports : List (Address × Finding)) : Prop where
  findings : reports.map (·.2) = ownFindings source components (root.trailTo p) t
  sorted : reports.Pairwise fun a b => a.1 < b.1
  sound : ∀ r ∈ reports, ∃ m front name?, FoundAt source root p r.1 m front name? ∧
    Outcome source (exportFlags (root.trailTo p)).1 (root.trailTo r.1) m front name? r.2
  complete : ∀ q m front name?, FoundAt source root p q m front name? →
    ∃ f, (q, f) ∈ reports ∧ Outcome source (exportFlags (root.trailTo p)).1 (root.trailTo q) m front name? f

section

variable {source : String} {components : Bool} {root t m n : Tree} {p q : Address} {front : String}
  {name? : Option Tree}

theorem IsFunctionAt.not_isClassAt (isFunction : IsFunctionAt root p t) : ¬ IsClassAt root p t := by
  rintro (kind | ⟨kind, -⟩) <;> rcases isFunction with kind' | ⟨kind', -, -⟩ <;> grind

theorem BindsFunction.not_isFunctionAt (binds : BindsFunction t name?) : ¬ IsFunctionAt root p t := by
  obtain ⟨kind, -⟩ := binds
  rintro (kind' | ⟨kind', -, -⟩) <;> grind

theorem BindsFunction.not_isClassAt (binds : BindsFunction t name?) : ¬ IsClassAt root p t := by
  obtain ⟨kind, -⟩ := binds
  rintro (kind' | ⟨kind', -⟩) <;> grind

/-- What is found at a node is a function, a class or one of its methods, or a variable. -/
theorem FoundAt.inversion (isFound : FoundAt source root p q m front name?) (found : root.at? p = some t) :
    (IsFunctionAt root p t ∧ q = p ∧ m = t ∧ front = "" ∧ name? = t.childIn .name) ∨
    (IsClassAt root p t ∧ ∃ n, t.childIn .name = some n ∧
      ((q = p ∧ m = t ∧ front = "" ∧ name? = some n) ∨
        ∃ className, IsName source n className ∧ (q, m) ∈ membersAt p t ∧ m.kind = .methodDefinition ∧
          front = className ++ "." ∧ name? = m.childIn .name)) ∨
    (BindsFunction t name? ∧ q = p ∧ m = t ∧ front = "") := by
  cases isFound with
  | function found' isFunction =>
    obtain rfl := Option.some.inj (found.symm.trans found')
    exact .inl ⟨isFunction, rfl, rfl, rfl, rfl⟩
  | class_ found' isClass hasName =>
    obtain rfl := Option.some.inj (found.symm.trans found')
    exact .inr (.inl ⟨isClass, _, hasName, .inl ⟨rfl, rfl, rfl, rfl⟩⟩)
  | method found' isClass hasName isName inBody atMethod isMethod =>
    obtain rfl := Option.some.inj (found.symm.trans found')
    rw [at?_append, found, Option.bind_some] at atMethod
    have member := (mem_membersAt_iff p t _ m).mpr ⟨_, _, inBody, rfl, atMethod⟩
    exact .inr (.inl ⟨isClass, _, hasName, .inr ⟨_, isName, member, isMethod, rfl, rfl⟩⟩)
  | variable_ found' binds =>
    obtain rfl := Option.some.inj (found.symm.trans found')
    exact .inr (.inr ⟨binds, rfl, rfl, rfl⟩)

/-- At a class there is the class itself and its methods. -/
theorem FoundAt.of_isClassAt (isFound : FoundAt source root p q m front name?) (found : root.at? p = some t)
    (isClass : IsClassAt root p t) :
    ∃ n, t.childIn .name = some n ∧
      ((q = p ∧ m = t ∧ front = "" ∧ name? = some n) ∨
        ∃ className, IsName source n className ∧ (q, m) ∈ membersAt p t ∧ m.kind = .methodDefinition ∧
          front = className ++ "." ∧ name? = m.childIn .name) := by
  rcases isFound.inversion found with ⟨isFunction, -⟩ | ⟨-, classOrMethod⟩ | ⟨binds, -⟩
  · exact absurd isClass isFunction.not_isClassAt
  · exact classOrMethod
  · exact absurd isClass binds.not_isClassAt

theorem ReportsOf.none (isEmpty : ownFindings source components (root.trailTo p) t = [])
    (nothing : ∀ q m front name?, ¬ FoundAt source root p q m front name?) :
    ReportsOf source components root p t [] where
  findings := isEmpty.symm
  sorted := .nil
  sound r member := by cases member
  complete q m front name? isFound := absurd isFound (nothing q m front name?)

theorem ReportsOf.single {f : Finding} (isOne : ownFindings source components (root.trailTo p) t = [f])
    (isFound : FoundAt source root p p t front name?)
    (outcome : Outcome source (exportFlags (root.trailTo p)).1 (root.trailTo p) t front name? f)
    (alone : ∀ q m front' name?', FoundAt source root p q m front' name?' →
      q = p ∧ m = t ∧ front' = front ∧ name?' = name?) :
    ReportsOf source components root p t [(p, f)] where
  findings := isOne.symm
  sorted := List.pairwise_singleton _ _
  sound r member := by
    cases List.mem_singleton.mp member
    exact ⟨t, front, name?, isFound, outcome⟩
  complete q m front' name?' other := by
    obtain ⟨rfl, rfl, rfl, rfl⟩ := alone q m front' name?' other
    exact ⟨f, List.mem_singleton_self _, outcome⟩

theorem exists_reports_of_function (found : root.at? p = some t) (isFunction : IsFunctionAt root p t)
    (same : ownFindings source components (root.trailTo p) t =
      functionFindings source components (root.trailTo p) t) :
    ∃ reports, ReportsOf source components root p t reports := by
  obtain ⟨f, isOne, outcome⟩ := exists_outcome_functionFindings source components (root.trailTo p) t
  refine ⟨_, .single (same.trans isOne) (.function found isFunction) outcome ?_⟩
  intro q m front name? other
  rcases other.inversion found with ⟨-, itself⟩ | ⟨isClass, -⟩ | ⟨binds, -⟩
  · exact itself
  · exact absurd isClass isFunction.not_isClassAt
  · exact absurd isFunction binds.not_isFunctionAt

theorem exists_reports_of_variable (found : root.at? p = some t)
    (isKind : t.kind = .lexicalDeclaration ∨ t.kind = .variableDeclaration)
    (same : ownFindings source components (root.trailTo p) t =
      variableFindings source components (root.trailTo p) t) :
    ∃ reports, ReportsOf source components root p t reports := by
  have onlyBinding {q : Address} {m : Tree} {front : String} {name? : Option Tree}
      (other : FoundAt source root p q m front name?) :
      BindsFunction t name? ∧ q = p ∧ m = t ∧ front = "" := by
    rcases other.inversion found with ⟨isFunction, -⟩ | ⟨isClass, -⟩ | itself
    · rcases isFunction with kind | ⟨kind, -, -⟩ <;> grind
    · rcases isClass with kind | ⟨kind, -⟩ <;> grind
    · exact itself
  by_cases isEmpty : variableFindings source components (root.trailTo p) t = []
  · refine ⟨_, .none (same.trans isEmpty) fun q m front name? other => ?_⟩
    exact variableFindings_ne_nil (onlyBinding other).1 isEmpty
  · obtain ⟨name?, f, binds, isOne, outcome⟩ := exists_outcome_variableFindings isKind isEmpty
    refine ⟨_, .single (same.trans isOne) (.variable_ found binds) outcome ?_⟩
    intro q m front name?' other
    obtain ⟨binds', rfl, rfl, rfl⟩ := onlyBinding other
    exact ⟨rfl, rfl, rfl, binds'.unique binds⟩

/-- A class with its methods behind it. -/
theorem ReportsOf.withMethods {n : Tree} {name : String} {f : Finding} (found : root.at? p = some t)
    (isClass : IsClassAt root p t) (hasName : t.childIn .name = some n) (isName : IsName source n name)
    (outcome : Outcome source (exportFlags (root.trailTo p)).1 (root.trailTo p) t "" (some n) f)
    (shape : ownFindings source components (root.trailTo p) t =
      f :: (membersAt p t).flatMap fun x =>
        methodFindings source name (exportFlags (root.trailTo p)).1 (root.trailTo x.1) x.2) :
    ReportsOf source components root p t
      ((p, f) :: (membersAt p t).flatMap fun x =>
        (methodFindings source name (exportFlags (root.trailTo p)).1 (root.trailTo x.1) x.2).map (x.1, ·)) where
  findings := by
    simp [shape, List.map_flatMap, Function.comp_def]
  sorted := by
    rw [List.pairwise_cons, List.pairwise_flatMap]
    refine ⟨?_, ?_, (membersAt_sorted p t).imp ?_⟩
    · intro r inMembers
      obtain ⟨⟨q, m⟩, member, isFinding⟩ := List.mem_flatMap.mp inMembers
      obtain ⟨_, -, rfl⟩ := List.mem_map.mp isFinding
      obtain ⟨i, j, -, rfl, -⟩ := (mem_membersAt_iff p t q m).mp member
      exact prefix_lt_of_ne ⟨[i, j], rfl⟩ (by simp)
    · rintro ⟨q, m⟩ -
      -- One member gives at most one finding.
      by_cases isMethod : m.kind = .methodDefinition
      · obtain ⟨f, isOne, -⟩ := exists_outcome_methodFindings source name (exportFlags (root.trailTo p)).1
          (root.trailTo q) isMethod
        simp [isOne]
      · simp [methodFindings, isMethod]
    · intro a b lower x inA y inB
      obtain ⟨_, -, rfl⟩ := List.mem_map.mp inA
      obtain ⟨_, -, rfl⟩ := List.mem_map.mp inB
      exact lower
  sound := by
    intro r isReport
    rcases List.mem_cons.mp isReport with rfl | inMembers
    · exact ⟨t, "", some n, .class_ found isClass hasName, outcome⟩
    · obtain ⟨⟨q, m⟩, member, isFinding⟩ := List.mem_flatMap.mp inMembers
      obtain ⟨g, isMethodFinding, rfl⟩ := List.mem_map.mp isFinding
      by_cases isMethod : m.kind = .methodDefinition
      · obtain ⟨g', isOne, outcome⟩ := exists_outcome_methodFindings source name (exportFlags (root.trailTo p)).1
          (root.trailTo q) isMethod
        obtain rfl : g = g' := List.mem_singleton.mp (isOne ▸ isMethodFinding)
        obtain ⟨i, j, inBody, rfl, atMethod⟩ := (mem_membersAt_iff p t q m).mp member
        have atMethod : root.at? (p ++ [i, j]) = some m := by rw [at?_append, found, Option.bind_some, atMethod]
        exact ⟨m, _, _, .method found isClass hasName isName inBody atMethod isMethod, outcome⟩
      · simp [methodFindings, isMethod] at isMethodFinding
  complete := by
    intro q m front name? isFound
    obtain ⟨n', hasName', itself | method⟩ := isFound.of_isClassAt found isClass
    · obtain rfl := Option.some.inj (hasName.symm.trans hasName')
      obtain ⟨rfl, rfl, rfl, rfl⟩ := itself
      exact ⟨f, List.mem_cons_self, outcome⟩
    · obtain rfl := Option.some.inj (hasName.symm.trans hasName')
      obtain ⟨className, isName', member, isMethod, rfl, rfl⟩ := method
      obtain rfl : className = name := isName'.1.symm.trans isName.1
      obtain ⟨g, isOne, outcome⟩ := exists_outcome_methodFindings source className
        (exportFlags (root.trailTo p)).1 (root.trailTo q) isMethod
      refine ⟨g, List.mem_cons_of_mem _ (List.mem_flatMap.mpr ⟨(q, m), member, ?_⟩), outcome⟩
      simp [isOne]

theorem exists_reports_of_class (found : root.at? p = some t) (isClass : IsClassAt root p t)
    (same : ownFindings source components (root.trailTo p) t = classFindings source components (root.trailTo p) t) :
    ∃ reports, ReportsOf source components root p t reports := by
  cases hasName : t.childIn .name with
  | none =>
    refine ⟨_, .none (same.trans (by simp [classFindings, hasName])) fun q m front name? isFound => ?_⟩
    obtain ⟨n, hasName', -⟩ := isFound.of_isClassAt found isClass
    cases hasName.symm.trans hasName'
  | some n =>
    cases named : nameOf source t (some n) with
    | error i =>
      have isOne : classFindings source components (root.trailTo p) t = [.issue i] := by
        simp [classFindings, hasName, named]
      refine ⟨_, .single (same.trans isOne) (.class_ found isClass hasName) (.nameless named) ?_⟩
      intro q m front name? isFound
      obtain ⟨n', hasName', itself | ⟨className, isName, -⟩⟩ := isFound.of_isClassAt found isClass
      · obtain rfl := Option.some.inj (hasName.symm.trans hasName')
        exact itself
      · obtain rfl := Option.some.inj (hasName.symm.trans hasName')
        cases named.symm.trans ((nameOf_eq_ok_iff source t (some n) className).mpr ⟨n, rfl, isName⟩)
    | ok name =>
      obtain ⟨f, outcome, shape⟩ := exists_outcome_classFindings found hasName named
      obtain ⟨n', isSome, isName⟩ := (nameOf_eq_ok_iff source t (some n) name).mp named
      obtain rfl := Option.some.inj isSome
      exact ⟨_, .withMethods found isClass hasName isName outcome (same.trans shape)⟩

theorem ownFindings_of_isFunctionAt (found : root.at? p = some t) (isFunction : IsFunctionAt root p t) :
    ownFindings source components (root.trailTo p) t =
      functionFindings source components (root.trailTo p) t := by
  rcases isFunction with (kind | kind) | ⟨kind, hasName, byDefault⟩
  · simp [ownFindings, kind]
  · simp [ownFindings, kind]
  · simp [ownFindings, kind, (isNamedDefault_iff found).mpr ⟨⟨_, hasName⟩, byDefault⟩]

theorem ownFindings_of_isClassAt (found : root.at? p = some t) (isClass : IsClassAt root p t) :
    ownFindings source components (root.trailTo p) t = classFindings source components (root.trailTo p) t := by
  rcases isClass with (kind | kind) | ⟨kind, byDefault⟩
  · simp [ownFindings, kind]
  · simp [ownFindings, kind]
  · cases hasName : t.childIn .name with
    | none => simp [ownFindings, kind, isNamedDefault, classFindings, hasName]
    | some n => simp [ownFindings, kind, (isNamedDefault_iff found).mpr ⟨⟨n, hasName⟩, byDefault⟩]

theorem ownFindings_eq_nil (found : root.at? p = some t) (notFunction : ¬ IsFunctionAt root p t)
    (notClass : ¬ IsClassAt root p t)
    (notVariable : ¬ (t.kind = .lexicalDeclaration ∨ t.kind = .variableDeclaration)) :
    ownFindings source components (root.trailTo p) t = [] := by
  unfold ownFindings
  split
  · rename_i kind
    exact absurd (.declaration (.inl kind)) notFunction
  · rename_i kind
    exact absurd (.declaration (.inr kind)) notFunction
  · rename_i kind
    exact absurd (.declaration (.inl kind)) notClass
  · rename_i kind
    exact absurd (.declaration (.inr kind)) notClass
  · rename_i kind
    exact absurd (.inl kind) notVariable
  · rename_i kind
    exact absurd (.inr kind) notVariable
  · rename_i kind
    refine if_neg fun named => notClass ?_
    exact .expression kind ((isNamedDefault_iff found).mp named).2
  · rename_i kind
    refine if_neg fun named => notFunction ?_
    obtain ⟨⟨n, hasName⟩, byDefault⟩ := (isNamedDefault_iff found).mp named
    exact .expression kind hasName byDefault
  · rfl

/-- What is found at a node are the declarations that stand there. -/
theorem exists_reports (source : String) (components : Bool) (found : root.at? p = some t) :
    ∃ reports, ReportsOf source components root p t reports := by
  by_cases isFunction : IsFunctionAt root p t
  · exact exists_reports_of_function found isFunction (ownFindings_of_isFunctionAt found isFunction)
  by_cases isClass : IsClassAt root p t
  · exact exists_reports_of_class found isClass (ownFindings_of_isClassAt found isClass)
  by_cases isVariable : t.kind = .lexicalDeclaration ∨ t.kind = .variableDeclaration
  · have same : ownFindings source components (root.trailTo p) t =
        variableFindings source components (root.trailTo p) t := by
      rcases isVariable with kind | kind <;> simp [ownFindings, kind]
    exact exists_reports_of_variable found isVariable same
  · refine ⟨_, .none (ownFindings_eq_nil found isFunction isClass isVariable) fun q m front name? isFound => ?_⟩
    rcases isFound.inversion found with ⟨isFunction', -⟩ | ⟨isClass', -⟩ | ⟨⟨kind, -⟩, -⟩
    · exact isFunction isFunction'
    · exact isClass isClass'
    · exact isVariable kind

/-- A method is found two steps above its place, everything else where it stands. -/
theorem FoundAt.shape (isFound : FoundAt source root p q t front name?) :
    root.at? q = some t ∧
      ((t.kind = .methodDefinition ∧ ∃ i j, q = p ++ [i, j]) ∨ (t.kind ≠ .methodDefinition ∧ q = p)) := by
  cases isFound with
  | function found isFunction =>
    refine ⟨found, .inr ⟨?_, rfl⟩⟩
    rcases isFunction with kind | ⟨kind, -, -⟩ <;> grind
  | class_ found isClass =>
    refine ⟨found, .inr ⟨?_, rfl⟩⟩
    rcases isClass with kind | ⟨kind, -⟩ <;> grind
  | method _ _ _ _ _ found isMethod => exact ⟨found, .inl ⟨isMethod, _, _, rfl⟩⟩
  | variable_ found binds =>
    refine ⟨found, .inr ⟨?_, rfl⟩⟩
    obtain ⟨kind, -⟩ := binds
    grind

end

/-! ## All that is found in a file -/

/-- The node at which the declaration `t` at the place `q` is found: for a method, its class. -/
def finder (t : Tree) (q : Address) : Address :=
  if t.kind = .methodDefinition then q.dropLast.dropLast else q

theorem FoundAt.eq_finder {source : String} {root t : Tree} {p q : Address} {front : String} {name? : Option Tree}
    (isFound : FoundAt source root p q t front name?) : p = finder t q := by
  rcases isFound.shape.2 with ⟨isMethod, i, j, rfl⟩ | ⟨isOther, rfl⟩
  · simp [finder, isMethod]
  · simp [finder, isOther]

/-- A finding, with the node at which it is found and the place of the declaration it is about. -/
structure Report where
  foundAt : Address
  place : Address
  finding : Finding

/-- The findings of a file, each with its places. -/
structure ParsedSource.Reports (s : ParsedSource) (reports : List Report) : Prop where
  findings : reports.map (·.finding) = s.findings
  sorted : reports.Pairwise fun a b => a.foundAt < b.foundAt ∨ a.foundAt = b.foundAt ∧ a.place < b.place
  sound : ∀ r ∈ reports, ∃ t front name?, FoundAt s.text s.root r.foundAt r.place t front name? ∧
    Outcome s.text (exportFlags (s.root.trailTo r.foundAt)).1 (s.root.trailTo r.place) t front name? r.finding
  complete : ∀ p q t front name?, FoundAt s.text s.root p q t front name? →
    ∃ f, ⟨p, q, f⟩ ∈ reports ∧
      Outcome s.text (exportFlags (s.root.trailTo p)).1 (s.root.trailTo q) t front name? f

theorem FoundAt.finder_at? {source : String} {root t : Tree} {p q : Address} {front : String} {name? : Option Tree}
    (isFound : FoundAt source root p q t front name?) : ∃ node, root.at? p = some node := by
  cases isFound with
  | function found | class_ found | method found | variable_ found => exact ⟨_, found⟩

theorem ParsedSource.exists_reports (s : ParsedSource) : ∃ reports, s.Reports reports := by
  have each (p : Address) : ∃ reports : List (Address × Finding),
      reports.map (·.2) = declaredAt s.text (allowsComponents s.path) [] s.root p ∧
        ∀ t, s.root.at? p = some t → ReportsOf s.text (allowsComponents s.path) s.root p t reports := by
    cases found : s.root.at? p with
    | none => exact ⟨[], by simp [declaredAt, found], fun t impossible => by cases impossible⟩
    | some t =>
      obtain ⟨reports, isReports⟩ := CallAtlas.exists_reports s.text (allowsComponents s.path) found
      refine ⟨reports, ?_, fun t' same => Option.some.inj same ▸ isReports⟩
      rw [isReports.findings, declaredAt, found, Option.elim_some, List.append_nil]
  -- The findings of the file are those of its nodes, one after the other.
  obtain ⟨reportsAt, isReports⟩ := Classical.skolem.mp each
  refine ⟨s.root.addresses.flatMap fun p => (reportsAt p).map fun r => ⟨p, r.1, r.2⟩, ?_, ?_, ?_, ?_⟩
  · have listed (p : Address) : (reportsAt p).map (·.2) = declaredAt s.text (allowsComponents s.path) [] s.root p :=
      (isReports p).1
    simp [ParsedSource.findings, findings_eq, List.map_flatMap, Function.comp_def, listed]
  · rw [List.pairwise_flatMap]
    refine ⟨fun p inTree => ?_, (addresses_sorted s.root).imp fun {p q} before a inA b inB => ?_⟩
    · obtain ⟨t, found⟩ := Option.isSome_iff_exists.mp ((mem_addresses_iff s.root p).mp inTree)
      exact List.pairwise_map.mpr (((isReports p).2 t found).sorted.imp fun lower => .inr ⟨rfl, lower⟩)
    · obtain ⟨_, -, rfl⟩ := List.mem_map.mp inA
      obtain ⟨_, -, rfl⟩ := List.mem_map.mp inB
      exact .inl before
  · intro r member
    obtain ⟨p, inTree, inReports⟩ := List.mem_flatMap.mp member
    obtain ⟨r', isReport, rfl⟩ := List.mem_map.mp inReports
    obtain ⟨t, found⟩ := Option.isSome_iff_exists.mp ((mem_addresses_iff s.root p).mp inTree)
    exact ((isReports p).2 t found).sound r' isReport
  · intro p q t front name? isFound
    obtain ⟨node, found⟩ := isFound.finder_at?
    obtain ⟨f, isReport, outcome⟩ := ((isReports p).2 node found).complete q t front name? isFound
    refine ⟨f, List.mem_flatMap.mpr ⟨p, (mem_addresses_iff s.root p).mpr (by simp [found]), ?_⟩, outcome⟩
    exact List.mem_map.mpr ⟨(q, f), isReport, rfl⟩

/-- Nothing is found twice. -/
theorem ParsedSource.Reports.nodup {s : ParsedSource} {reports : List Report} (isReports : s.Reports reports) :
    (reports.map (·.place)).Nodup := by
  refine List.pairwise_map.mpr (isReports.sorted.imp_of_mem fun {a b} inA inB lower same => ?_)
  obtain ⟨t, _, _, isFound, -⟩ := isReports.sound a inA
  obtain ⟨t', _, _, isFound', -⟩ := isReports.sound b inB
  -- The place tells the declaration, and with it the node at which it is found.
  have sameNode : t = t' := Option.some.inj (isFound.shape.1.symm.trans (same ▸ isFound'.shape.1))
  have sameFinder : a.foundAt = b.foundAt := by
    rw [isFound.eq_finder, isFound'.eq_finder, sameNode, same]
  rw [sameFinder, same] at lower
  rcases lower with lower | ⟨-, lower⟩
  · exact List.lt_irrefl _ lower
  · exact List.lt_irrefl _ lower

end CallAtlas
