import CallAtlas.Proofs.FoundDeclarations

/-!
# Calls and the guards they stand under

The calls of a scope are the call and construction nodes inside it that call a name or a member (`IsCall`), each
under the guards of the steps that lead down to it (`GuardChain`).  `callsIn` lists them in the order of the text
and keeps of every expression the first (`callsIn_exact`).  The walk itself carries no addresses: that it comes by
every node once, in this order, and with the guards of this node's way and of no other, is `occurrences_eq`.
-/

namespace CallAtlas

open Syntax Syntax.Tree

/-! ## What a guard is -/

/-- The step from the node at `place` to its child with the number `i` is only taken under a condition. -/
inductive Guards (source : String) (root : Tree) (place : Address) (i : Nat) : String → Prop where
  | consequence {choice condition : Tree} : root.at? place = some choice →
      choice.kind = .ifStatement ∨ choice.kind = .ternaryExpression →
      choice.childIn .condition = some condition → choice.indexIn .consequence = some i →
      Guards source root place i (condensed source condition)
  | alternative {choice condition child : Tree} : root.at? place = some choice →
      choice.kind = .ifStatement ∨ choice.kind = .ternaryExpression →
      choice.childIn .condition = some condition → choice.indexIn .consequence ≠ some i →
      choice.children[i]? = some child →
      choice.indexIn .alternative = some i ∨ child.kind = .elseClause →
      Guards source root place i ("!(" ++ condensed source condition ++ ")")
  | case {branch value selection subject : Tree} {outer : Address} {j k : Nat} :
      root.at? place = some branch → branch.kind = .switchCase → branch.indexIn .value ≠ some i →
      branch.childIn .value = some value → place = outer ++ [j, k] → root.at? outer = some selection →
      selection.childIn .value = some subject →
      Guards source root place i (condensed source subject ++ " === " ++ condensed source value)
  | default {branch selection subject : Tree} {outer : Address} {j k : Nat} :
      root.at? place = some branch → branch.kind = .switchDefault → place = outer ++ [j, k] →
      root.at? outer = some selection → selection.childIn .value = some subject →
      Guards source root place i (condensed source subject ++ " (default)")
  | conjunction {operation operator left : Tree} : root.at? place = some operation →
      operation.kind = .binaryExpression → operation.indexIn .right = some i →
      operation.childIn .operator = some operator → operator.text source = "&&" →
      operation.childIn .left = some left → Guards source root place i (condensed source left)
  | disjunction {operation operator left : Tree} : root.at? place = some operation →
      operation.kind = .binaryExpression → operation.indexIn .right = some i →
      operation.childIn .operator = some operator → operator.text source = "||" →
      operation.childIn .left = some left →
      Guards source root place i ("!(" ++ condensed source left ++ ")")

/-- The guards of the steps from `place` down along an address, the outermost first. -/
inductive GuardChain (source : String) (root : Tree) : Address → Address → List String → Prop where
  | here {place : Address} : GuardChain source root place [] []
  | guarded {place rest : Address} {i : Nat} {guard : String} {guards : List String} :
      Guards source root place i guard → GuardChain source root (place ++ [i]) rest guards →
      GuardChain source root place (i :: rest) (guard :: guards)
  | free {place rest : Address} {i : Nat} {guards : List String} :
      (∀ guard, ¬ Guards source root place i guard) →
      GuardChain source root (place ++ [i]) rest guards → GuardChain source root place (i :: rest) guards

/-- What is called is a name, or a member that has one. -/
inductive CalledBy (source : String) (callee : Tree) : String → Prop where
  | identifier : callee.kind = .identifier → CalledBy source callee (callee.text source)
  | member {property : Tree} : callee.kind = .memberExpression →
      callee.childIn .property = some property → CalledBy source callee (property.text source)

/-- The node is a call or a construction of an expression, by a name that is not empty. -/
structure Calls (source : String) (call : Tree) (name expression : String) : Prop where
  kind : call.kind = .callExpression ∨ call.kind = .newExpression
  callee : ∃ callee, call.childIn .callee = some callee ∧ CalledBy source callee name ∧
    callee.text source = expression
  named : name ≠ ""

/-- Inside the scope, the node at the address `p` makes the call, under the guards on the way to it. -/
structure IsCall (source : String) (root : Tree) (scope p : Address) (site : CallSite) : Prop where
  calls : ∃ call, root.at? (scope ++ p) = some call ∧ Calls source call site.callee site.expression
  guarded : GuardChain source root scope p site.guards

/-! ## The walk comes by every node -/

/-- The guards on the way from a node down along an address; `above` are the nodes around the node. -/
def guardsAlong (source : String) : List Tree → Tree → Address → List String
  | _, _, [] => []
  | above, t, i :: rest =>
    t.children[i]?.elim [] fun child =>
      (guardFor source above t (t.children.take i).reverse child).toList ++
        guardsAlong source (t :: above) child rest

/-- The call that the node at an address is, under the guards given and those on the way to it. -/
def callAt (source : String) (above : List Tree) (guards : List String) (t : Tree) (p : Address) :
    Option CallSite :=
  (t.at? p).bind (ownCall source (guards ++ guardsAlong source above t p))

theorem callAt_cons {source : String} {above : List Tree} {guards : List String} {t child : Tree} {i : Nat}
    (isChild : t.children[i]? = some child) (rest : Address) :
    callAt source above guards t (i :: rest) =
      callAt source (t :: above)
        (guards ++ (guardFor source above t (t.children.take i).reverse child).toList) child rest := by
  simp [callAt, at?_cons, guardsAlong, isChild]

mutual

theorem occurrences_eq (source : String) (above : List Tree) (guards : List String) (t : Tree) :
    occurrences source above guards t = t.addresses.filterMap (callAt source above guards t) := by
  cases t with
  | node k f s m cs =>
    have inside := occurrencesIn_eq source above (.node k f s m cs) guards [] cs rfl
    have itself : callAt source above guards (.node k f s m cs) [] =
        ownCall source guards (.node k f s m cs) := by
      simp [callAt, guardsAlong]
    rw [occurrences, inside, addresses, List.filterMap_cons, itself]
    cases ownCall source guards (.node k f s m cs) <;> simp

/-- The elder siblings are what tells the number of the next child. -/
theorem occurrencesIn_eq (source : String) (above : List Tree) (parent : Tree) (guards : List String)
    (before ts : List Tree) (siblings : parent.children = before.reverse ++ ts) :
    occurrencesIn source above parent guards before ts =
      (addressesFrom before.length ts).filterMap (callAt source above guards parent) := by
  cases ts with
  | nil => simp [occurrencesIn, addressesFrom]
  | cons t ts =>
    have isChild : parent.children[before.length]? = some t := by simp [siblings]
    have elder : (parent.children.take before.length).reverse = before := by simp [siblings]
    have inChild : ∀ rest, callAt source above guards parent (before.length :: rest) =
        callAt source (parent :: above) (guards ++ (guardFor source above parent before t).toList) t rest := by
      intro rest
      rw [callAt_cons isChild, elder]
    have later := occurrencesIn_eq source above parent guards (t :: before) ts (by simp [siblings])
    rw [occurrencesIn, addressesFrom, List.filterMap_append, List.filterMap_map, later,
      occurrences_eq source (parent :: above)]
    simp only [Function.comp_def, inChild, List.length_cons]

end

/-! ## The guards of a way are those of its steps -/

section

variable {source : String} {root t child : Tree} {place : Address} {i : Nat}

theorem isIn_iff (isChild : t.children[i]? = some child) (f : Field) :
    isIn f (t.children.take i).reverse child = true ↔ t.indexIn f = some i := by
  obtain ⟨inside, rfl⟩ := List.getElem?_eq_some_iff.mp isChild
  simp only [isIn, indexIn, List.findIdx?_eq_some_iff_getElem, Bool.and_eq_true, Bool.not_eq_true',
    List.any_eq_false, List.mem_reverse, List.mem_take_iff_getElem]
  constructor
  · rintro ⟨named, noElder⟩
    exact ⟨inside, named, fun j before => noElder _ ⟨j, by omega, rfl⟩⟩
  · rintro ⟨_, named, noElder⟩
    refine ⟨named, ?_⟩
    rintro _ ⟨j, before, rfl⟩
    exact noElder j (by omega)

variable (source) in
/-- The subject of a selection stands two nodes above its cases. -/
theorem discriminant?_around (found : root.at? place = some t) (subject : String) :
    discriminant? source (root.around place) = some subject ↔
      ∃ outer j k selection expression, place = outer ++ [j, k] ∧ root.at? outer = some selection ∧
        selection.childIn .value = some expression ∧ condensed source expression = subject := by
  -- `discriminant?` looks two nodes up, so the last two numbers of the address are taken off one by one.
  rcases List.eq_nil_or_concat place with rfl | ⟨front, k, rfl⟩
  · simp [around, discriminant?]
  · rw [List.concat_eq_append, at?_append] at found
    obtain ⟨body, atFront, -⟩ := Option.bind_eq_some_iff.mp found
    rw [List.concat_eq_append, around_concat atFront]
    rcases List.eq_nil_or_concat front with rfl | ⟨outer, j, rfl⟩
    · have tooShort : ∀ (outer : Address) (a b : Nat), [k] ≠ outer ++ [a, b] := by
        intro outer a b same
        have lengths := congrArg List.length same
        simp at lengths
      simp [around, discriminant?, tooShort]
    · rw [List.concat_eq_append, at?_append] at atFront
      obtain ⟨selection, atOuter, -⟩ := Option.bind_eq_some_iff.mp atFront
      rw [List.concat_eq_append, around_concat atOuter]
      simp only [discriminant?, Option.map_eq_some_iff, List.append_assoc, List.singleton_append]
      constructor
      · rintro ⟨expression, valued, rfl⟩
        exact ⟨outer, j, k, selection, expression, rfl, atOuter, valued, rfl⟩
      · rintro ⟨outer', j', k', selection', expression, same, atOuter', valued, rfl⟩
        obtain ⟨rfl, -⟩ := List.append_inj' same rfl
        rw [atOuter, Option.some.injEq] at atOuter'
        exact ⟨expression, atOuter' ▸ valued, rfl⟩

theorem guards_of_guardFor (found : root.at? place = some t) (isChild : t.children[i]? = some child)
    {guard : String}
    (guarded : guardFor source (root.around place) t (t.children.take i).reverse child = some guard) :
    Guards source root place i guard := by
  -- Statements and expressions that choose between two branches are guarded alike.
  have choice (isChoice : t.kind = .ifStatement ∨ t.kind = .ternaryExpression)
      (guarded : (t.childIn .condition).bind (fun c =>
        let condition := condensed source c
        if isIn .consequence (t.children.take i).reverse child then some condition
        else if isIn .alternative (t.children.take i).reverse child || child.kind == .elseClause then
          some (negated condition)
        else none) = some guard) : Guards source root place i guard := by
    obtain ⟨condition, conditioned, branch⟩ := Option.bind_eq_some_iff.mp guarded
    simp only [isIn_iff isChild, Bool.or_eq_true, beq_iff_eq] at branch
    split at branch
    · rename_i isConsequence
      cases branch
      exact .consequence found isChoice conditioned isConsequence
    · rename_i notConsequence
      split at branch
      · rename_i isAlternative
        cases branch
        exact .alternative found isChoice conditioned notConsequence isChild isAlternative
      · cases branch
  unfold guardFor at guarded
  split at guarded
  · rename_i kind
    exact choice (.inl kind) guarded
  · rename_i kind
    exact choice (.inr kind) guarded
  · rename_i kind
    simp only [isIn_iff isChild] at guarded
    split at guarded
    · cases guarded
    · rename_i notValue
      obtain ⟨value, valued, guarded⟩ := Option.bind_eq_some_iff.mp guarded
      obtain ⟨subject, selected, rfl⟩ := Option.map_eq_some_iff.mp guarded
      obtain ⟨outer, j, k, selection, expression, same, atOuter, subjected, rfl⟩ :=
        (discriminant?_around source found subject).mp selected
      exact .case found kind notValue valued same atOuter subjected
  · rename_i kind
    obtain ⟨subject, selected, rfl⟩ := Option.map_eq_some_iff.mp guarded
    obtain ⟨outer, j, k, selection, expression, same, atOuter, subjected, rfl⟩ :=
      (discriminant?_around source found subject).mp selected
    exact .default found kind same atOuter subjected
  · rename_i kind
    simp only [isIn_iff isChild] at guarded
    split at guarded
    · rename_i isRight
      obtain ⟨operator, operated, guarded⟩ := Option.bind_eq_some_iff.mp guarded
      obtain ⟨left, isLeft, guarded⟩ := Option.bind_eq_some_iff.mp guarded
      split at guarded
      · rename_i spelled
        cases guarded
        exact .conjunction found kind isRight operated spelled isLeft
      · rename_i spelled
        cases guarded
        exact .disjunction found kind isRight operated spelled isLeft
      · cases guarded
    · cases guarded
  · cases guarded

theorem guardFor_of_guards (found : root.at? place = some t) (isChild : t.children[i]? = some child)
    {guard : String} (guarded : Guards source root place i guard) :
    guardFor source (root.around place) t (t.children.take i).reverse child = some guard := by
  cases guarded with
  | consequence atPlace isChoice conditioned isConsequence =>
    obtain rfl := Option.some.inj (found.symm.trans atPlace)
    have first := (isIn_iff isChild .consequence).mpr isConsequence
    rcases isChoice with kind | kind <;> simp [guardFor, kind, conditioned, first]
  | alternative atPlace isChoice conditioned notConsequence isChild' isAlternative =>
    obtain rfl := Option.some.inj (found.symm.trans atPlace)
    obtain rfl := Option.some.inj (isChild.symm.trans isChild')
    have first : isIn .consequence (t.children.take i).reverse child = false := by
      rw [Bool.eq_false_iff]
      exact fun isFirst => notConsequence ((isIn_iff isChild .consequence).mp isFirst)
    have second : (isIn .alternative (t.children.take i).reverse child || child.kind == .elseClause) = true := by
      simpa [isIn_iff isChild] using isAlternative
    rcases isChoice with kind | kind <;> simp [guardFor, kind, conditioned, first, second, negated]
  | case atPlace kind notValue valued same atOuter subjected =>
    obtain rfl := Option.some.inj (found.symm.trans atPlace)
    have first : isIn .value (t.children.take i).reverse child = false := by
      rw [Bool.eq_false_iff]
      exact fun isFirst => notValue ((isIn_iff isChild .value).mp isFirst)
    have selected := (discriminant?_around source found _).mpr
      ⟨_, _, _, _, _, same, atOuter, subjected, rfl⟩
    simp [guardFor, kind, first, valued, selected]
  | default atPlace kind same atOuter subjected =>
    obtain rfl := Option.some.inj (found.symm.trans atPlace)
    have selected := (discriminant?_around source found _).mpr
      ⟨_, _, _, _, _, same, atOuter, subjected, rfl⟩
    simp [guardFor, kind, selected]
  | conjunction atPlace kind isRight operated spelled isLeft
  | disjunction atPlace kind isRight operated spelled isLeft =>
    obtain rfl := Option.some.inj (found.symm.trans atPlace)
    have first := (isIn_iff isChild .right).mpr isRight
    simp [guardFor, kind, first, operated, spelled, isLeft, negated]

theorem guardFor_eq_some_iff (found : root.at? place = some t) (isChild : t.children[i]? = some child)
    (guard : String) :
    guardFor source (root.around place) t (t.children.take i).reverse child = some guard ↔
      Guards source root place i guard :=
  ⟨guards_of_guardFor found isChild, guardFor_of_guards found isChild⟩

theorem guardChain_iff (found : root.at? place = some t) {p : Address} (inside : (t.at? p).isSome = true)
    (guards : List String) :
    GuardChain source root place p guards ↔ guardsAlong source (root.around place) t p = guards := by
  induction p generalizing place t guards with
  | nil =>
    constructor
    · rintro ⟨⟩
      rfl
    · rintro rfl
      exact .here
  | cons i rest inductionHypothesis =>
    rw [at?_cons] at inside
    obtain ⟨child, isChild, insideChild⟩ : ∃ child, t.children[i]? = some child ∧
        (child.at? rest).isSome = true := by
      cases shape : t.children[i]? with
      | none => simp [shape] at inside
      | some child => exact ⟨child, rfl, by simpa [shape] using inside⟩
    have atChild : root.at? (place ++ [i]) = some child := by rw [at?_concat found, isChild]
    have below := fun guards => inductionHypothesis atChild insideChild guards
    rw [around_concat found] at below
    have step (guard : String) :
        guardFor source (root.around place) t (t.children.take i).reverse child = some guard ↔
          Guards source root place i guard := guardFor_eq_some_iff found isChild guard
    simp only [guardsAlong, isChild, Option.elim_some]
    -- Whether the first step is guarded decides which constructor a chain can start with.
    cases guarded : guardFor source (root.around place) t (t.children.take i).reverse child with
    | none =>
      rw [guarded] at step
      constructor
      · intro chain
        cases chain with
        | guarded isGuard _ => cases (step _).mpr isGuard
        | free _ chain => simpa using (below _).mp chain
      · intro same
        exact .free (fun guard isGuard => by cases (step guard).mpr isGuard) ((below _).mpr (by simpa using same))
    | some guard =>
      rw [guarded] at step
      constructor
      · intro chain
        cases chain with
        | guarded isGuard chain =>
          obtain rfl := Option.some.inj ((step _).mpr isGuard)
          simp [(below _).mp chain]
        | free noGuard _ => exact absurd ((step guard).mp rfl) (noGuard guard)
      · rintro rfl
        exact .guarded ((step guard).mp rfl) ((below _).mpr rfl)

theorem callOf_eq_some_iff (source : String) (guards : List String) (callee : Tree) (site : CallSite) :
    callOf source guards callee = some site ↔
      CalledBy source callee site.callee ∧ callee.text source = site.expression ∧ site.callee ≠ "" ∧
        site.guards = guards := by
  obtain ⟨name, expression, siteGuards⟩ := site
  constructor
  · intro isCall
    unfold callOf at isCall
    split at isCall
    · rename_i kind
      simp only [String.isEmpty_iff] at isCall
      split at isCall
      · cases isCall
      · rename_i nonempty
        cases isCall
        exact ⟨.identifier kind, rfl, nonempty, rfl⟩
    · rename_i kind
      obtain ⟨property, isProperty, isCall⟩ := Option.bind_eq_some_iff.mp isCall
      simp only [String.isEmpty_iff] at isCall
      split at isCall
      · cases isCall
      · rename_i nonempty
        cases isCall
        exact ⟨.member kind isProperty, rfl, nonempty, rfl⟩
    · cases isCall
  · rintro ⟨called, spelled, nonempty, rfl⟩
    dsimp only at called spelled nonempty ⊢
    subst spelled
    cases called with
    | identifier kind => simp [callOf, kind, nonempty]
    | member kind isProperty => simp [callOf, kind, isProperty, nonempty]

theorem ownCall_eq_some_iff (source : String) (guards : List String) (t : Tree) (site : CallSite) :
    ownCall source guards t = some site ↔
      Calls source t site.callee site.expression ∧ site.guards = guards := by
  have called : (t.childIn .callee).bind (callOf source guards) = some site ↔
      (∃ callee, t.childIn .callee = some callee ∧ CalledBy source callee site.callee ∧
        callee.text source = site.expression) ∧ site.callee ≠ "" ∧ site.guards = guards := by
    simp only [Option.bind_eq_some_iff, callOf_eq_some_iff]
    grind
  constructor
  · intro isCall
    unfold ownCall at isCall
    split at isCall
    · rename_i kind
      obtain ⟨callee, named, guarded⟩ := called.mp isCall
      exact ⟨⟨.inl kind, callee, named⟩, guarded⟩
    · rename_i kind
      obtain ⟨callee, named, guarded⟩ := called.mp isCall
      exact ⟨⟨.inr kind, callee, named⟩, guarded⟩
    · cases isCall
  · rintro ⟨⟨kind, callee, named⟩, guarded⟩
    have isCall := called.mpr ⟨callee, named, guarded⟩
    rcases kind with kind | kind <;> simpa [ownCall, kind] using isCall

theorem callAt_eq_some_iff (found : root.at? place = some t) (p : Address) (site : CallSite) :
    callAt source (root.around place) [] t p = some site ↔ IsCall source root place p site := by
  have below : root.at? (place ++ p) = t.at? p := by rw [at?_append, found, Option.bind_some]
  cases atEnd : t.at? p with
  | none =>
    simp only [callAt, atEnd, Option.bind_none, reduceCtorEq, false_iff]
    rintro ⟨⟨call, isCall, -⟩, -⟩
    rw [below, atEnd] at isCall
    cases isCall
  | some call =>
    have inside : (t.at? p).isSome = true := by simp [atEnd]
    have chain : GuardChain source root place p site.guards ↔
        guardsAlong source (root.around place) t p = site.guards := guardChain_iff found inside site.guards
    simp only [callAt, atEnd, Option.bind_some, List.nil_append, ownCall_eq_some_iff]
    constructor
    · rintro ⟨calls, guarded⟩
      exact ⟨⟨call, by rw [below, atEnd], calls⟩, chain.mpr guarded.symm⟩
    · rintro ⟨⟨call', isCall, calls⟩, guarded⟩
      rw [below, atEnd, Option.some.injEq] at isCall
      exact ⟨isCall ▸ calls, (chain.mp guarded).symm⟩

end

/-! ## First occurrences -/

theorem mem_map_expression_firstCalls (seen : List String) (calls : List CallSite) (expression : String) :
    expression ∈ (firstCalls seen calls).map (·.expression) ↔
      expression ∈ calls.map (·.expression) ∧ expression ∉ seen := by
  induction calls generalizing seen with
  | nil => simp [firstCalls]
  | cons call calls inductionHypothesis =>
    by_cases known : call.expression ∈ seen
    · simp only [firstCalls, List.contains_iff_mem, known, if_true, inductionHypothesis, List.map_cons,
        List.mem_cons]
      grind
    · simp only [firstCalls, List.contains_iff_mem, known, if_false, List.map_cons, List.mem_cons,
        inductionHypothesis]
      grind

/-- Of calls that are listed with their addresses in order, a call is kept if its expression is not known before
    and stands at no lower address. -/
theorem exists_firstCalls (seen : List String) {entries : List (Address × CallSite)}
    (sorted : entries.Pairwise fun a b => a.1 < b.1) :
    ∃ kept : List (Address × CallSite),
      kept.map (·.2) = firstCalls seen (entries.map (·.2)) ∧ kept.Sublist entries ∧
        ∀ e, e ∈ kept ↔ e ∈ entries ∧ e.2.expression ∉ seen ∧
          ∀ o ∈ entries, o.1 < e.1 → o.2.expression ≠ e.2.expression := by
  induction entries generalizing seen with
  | nil => exact ⟨[], by simp [firstCalls]⟩
  | cons first rest inductionHypothesis =>
    obtain ⟨firstLeast, restSorted⟩ := List.pairwise_cons.mp sorted
    by_cases known : first.2.expression ∈ seen
    · -- The first call is dropped.  Its expression is already in `seen`, so as an earlier call it excludes nothing
      -- that `seen` does not exclude.
      obtain ⟨kept, listed, sublist, keptIff⟩ := inductionHypothesis seen restSorted
      refine ⟨kept, ?_, sublist.cons first, ?_⟩
      · simp [firstCalls, known, listed]
      · intro e
        rw [keptIff]
        constructor
        · rintro ⟨member, unknown, isFirst⟩
          refine ⟨List.mem_cons_of_mem first member, unknown, ?_⟩
          intro o inEntries lower same
          rcases List.mem_cons.mp inEntries with rfl | inRest
          · exact unknown (same ▸ known)
          · exact isFirst o inRest lower same
        · rintro ⟨member, unknown, isFirst⟩
          rcases List.mem_cons.mp member with rfl | inRest
          · exact absurd known unknown
          · exact ⟨inRest, unknown, fun o inRest => isFirst o (List.mem_cons_of_mem first inRest)⟩
    · -- The first call is kept, and from here on `seen` excludes what it excludes as an earlier call.
      obtain ⟨kept, listed, sublist, keptIff⟩ := inductionHypothesis (first.2.expression :: seen) restSorted
      refine ⟨first :: kept, ?_, sublist.cons_cons first, ?_⟩
      · simp [firstCalls, known, listed]
      · intro e
        rw [List.mem_cons, keptIff]
        constructor
        · rintro (rfl | ⟨member, unknown, isFirst⟩)
          · refine ⟨List.mem_cons_self, known, ?_⟩
            intro o inEntries lower
            rcases List.mem_cons.mp inEntries with rfl | inRest
            · exact absurd lower (List.lt_irrefl _)
            · exact absurd lower (List.lt_asymm (firstLeast o inRest))
          · simp only [List.mem_cons, not_or] at unknown
            refine ⟨List.mem_cons_of_mem first member, unknown.2, ?_⟩
            intro o inEntries lower same
            rcases List.mem_cons.mp inEntries with rfl | inRest
            · exact unknown.1 same.symm
            · exact isFirst o inRest lower same
        · rintro ⟨member, unknown, isFirst⟩
          rcases List.mem_cons.mp member with rfl | inRest
          · exact .inl rfl
          · have notFirst := isFirst first List.mem_cons_self (firstLeast e inRest)
            refine .inr ⟨inRest, ?_, fun o inRest => isFirst o (List.mem_cons_of_mem first inRest)⟩
            simp only [List.mem_cons, not_or]
            exact ⟨Ne.symm notFirst, unknown⟩

/-! ## The calls of a scope -/

/-- The calls of a scope with their addresses, repeated ones included. -/
def callEntries (source : String) (root : Tree) (scope : Address) (t : Tree) : List (Address × CallSite) :=
  t.addresses.filterMap fun p => (callAt source (root.around scope) [] t p).map (p, ·)

section

variable (source : String) (root : Tree) (scope : Address) (t : Tree)

theorem map_callEntries :
    (callEntries source root scope t).map (·.2) = occurrences source (root.around scope) [] t := by
  rw [callEntries, occurrences_eq, List.map_filterMap]
  congr 1
  funext p
  cases callAt source (root.around scope) [] t p <;> rfl

theorem callEntries_sorted : (callEntries source root scope t).Pairwise fun a b => a.1 < b.1 := by
  rw [callEntries, List.pairwise_filterMap]
  refine (addresses_sorted t).imp ?_
  intro p q lower a isA b isB
  obtain ⟨_, -, rfl⟩ := Option.map_eq_some_iff.mp isA
  obtain ⟨_, -, rfl⟩ := Option.map_eq_some_iff.mp isB
  exact lower

variable {root scope t} in
theorem mem_callEntries_iff (found : root.at? scope = some t) (p : Address) (site : CallSite) :
    (p, site) ∈ callEntries source root scope t ↔ IsCall source root scope p site := by
  rw [← callAt_eq_some_iff found, callEntries, List.mem_filterMap]
  constructor
  · rintro ⟨q, -, isEntry⟩
    obtain ⟨_, isCall, same⟩ := Option.map_eq_some_iff.mp isEntry
    cases same
    exact isCall
  · intro isCall
    refine ⟨p, (mem_addresses_iff t p).mpr ?_, by simp [isCall]⟩
    obtain ⟨call, atEnd, -⟩ := Option.bind_eq_some_iff.mp isCall
    simp [atEnd]

theorem mem_map_expression_callsIn (above : List Tree) (expression : String) :
    expression ∈ (callsIn source above t).map (·.expression) ↔
      ∃ p call name, t.at? p = some call ∧ Calls source call name expression := by
  rw [callsIn, mem_map_expression_firstCalls, occurrences_eq, List.mem_map]
  constructor
  · rintro ⟨⟨site, member, rfl⟩, -⟩
    obtain ⟨p, -, isCall⟩ := List.mem_filterMap.mp member
    obtain ⟨call, atEnd, own⟩ := Option.bind_eq_some_iff.mp isCall
    exact ⟨p, call, site.callee, atEnd, ((ownCall_eq_some_iff _ _ _ _).mp own).1⟩
  · rintro ⟨p, call, name, atEnd, calls⟩
    let site : CallSite := ⟨name, expression, guardsAlong source above t p⟩
    have own : ownCall source site.guards call = some site :=
      (ownCall_eq_some_iff source site.guards call site).mpr ⟨calls, rfl⟩
    refine ⟨⟨site, List.mem_filterMap.mpr ⟨p, (mem_addresses_iff t p).mpr ?_, ?_⟩, rfl⟩, List.not_mem_nil⟩
    · simp [atEnd]
    · rw [callAt, atEnd, Option.bind_some, List.nil_append]
      exact own

/-- What is called inside a node is called inside every node around it. -/
theorem map_expression_callsIn_subset {outer inner : Tree} {q : Address} (inside : outer.at? q = some inner)
    (above above' : List Tree) :
    (callsIn source above' inner).map (·.expression) ⊆ (callsIn source above outer).map (·.expression) := by
  intro expression member
  rw [mem_map_expression_callsIn] at member ⊢
  obtain ⟨p, call, name, atEnd, calls⟩ := member
  exact ⟨q ++ p, call, name, by rw [at?_append, inside, Option.bind_some, atEnd], calls⟩

end

/-- The calls of a scope are, in the order of the text, the calls by a name inside it with the guards on the way
    to each, without those whose expression is called before.  The scopes of units are nodes of their file, and
    what is called in the scope of one unit is also called in that of a unit around it. -/
theorem callsIn_exact (s : ParsedSource) :
    (∀ scope node, s.root.at? scope = some node →
      ∃ entries : List (Address × CallSite),
        entries.map (·.2) = callsIn s.text (s.root.around scope) node ∧
          entries.Pairwise (fun a b => a.1 < b.1) ∧
          ∀ p site, (p, site) ∈ entries ↔
            IsCall s.text s.root scope p site ∧
              ∀ q other, q < p → IsCall s.text s.root scope q other → other.expression ≠ site.expression) ∧
    (∀ c ∈ s.candidates, StandsIn s.root c.above c.scope) ∧
    ∀ c ∈ s.candidates, ∀ d ∈ s.candidates, ∀ q, c.scope.at? q = some d.scope →
      (callsIn s.text d.above d.scope).map (·.expression) ⊆
        (callsIn s.text c.above c.scope).map (·.expression) := by
  refine ⟨?_, fun c member => exists_place_of_mem_candidates member, ?_⟩
  · intro scope node found
    have sorted := callEntries_sorted s.text s.root scope node
    obtain ⟨kept, listed, sublist, first⟩ := exists_firstCalls [] sorted
    rw [map_callEntries] at listed
    refine ⟨kept, listed, sorted.sublist sublist, ?_⟩
    intro p site
    rw [first, mem_callEntries_iff s.text found]
    simp only [List.not_mem_nil, not_false_eq_true, true_and, Prod.forall, mem_callEntries_iff s.text found]
    grind
  · intro c _ d _ q inside
    exact map_expression_callsIn_subset s.text inside c.above d.above

end CallAtlas
