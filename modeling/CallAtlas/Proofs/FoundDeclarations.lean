import CallAtlas.Proofs.TreeAddresses
import CallAtlas.Unit.Extraction

/-!
# Where declarations are found

Looking for declarations comes by every node of a tree once, in the order of the text, and knows at each of them
the way that leads there (`findings_eq`).  Every unit is thus what some node declares in one of four ways
(`Declares`), and what a unit covers is a node of the tree, seen together with the nodes that are around it there
(`exists_place_of_mem_candidates`).
-/

namespace CallAtlas

open Syntax Syntax.Tree

/-- The way to the node with the given address, the last step first. -/
def Syntax.Tree.trailTo : Tree → Address → Trail
  | _, [] => []
  | t, i :: rest =>
    (t.children[i]?.elim [] fun child => child.trailTo rest) ++ [⟨t, (t.children.take i).reverse⟩]

theorem above_trailTo (t : Tree) (p : Address) : (t.trailTo p).above = t.around p := by
  induction p generalizing t with
  | nil => rfl
  | cons i rest inductionHypothesis =>
    cases shape : t.children[i]? with
    | none => simp [trailTo, around, Trail.above, shape]
    | some child =>
      have below := inductionHypothesis child
      simp only [Trail.above] at below
      simp [trailTo, around, Trail.above, shape, below]

/-- What the node at an address declares itself. -/
def declaredAt (source : String) (components : Bool) (trail : Trail) (t : Tree) (p : Address) : List Finding :=
  (t.at? p).elim [] (ownFindings source components (t.trailTo p ++ trail))

mutual

theorem findings_eq (source : String) (components : Bool) (trail : Trail) (t : Tree) :
    findings source components trail t = t.addresses.flatMap (declaredAt source components trail t) := by
  cases t with
  | node k f s m cs =>
    have inside := findingsIn_eq source components trail (.node k f s m cs) [] cs rfl
    rw [findings, inside, addresses, List.flatMap_cons]
    rfl

theorem findingsIn_eq (source : String) (components : Bool) (trail : Trail) (parent : Tree)
    (before ts : List Tree) (siblings : parent.children = before.reverse ++ ts) :
    findingsIn source components trail parent before ts =
      (addressesFrom before.length ts).flatMap (declaredAt source components trail parent) := by
  cases ts with
  | nil => simp [findingsIn, addressesFrom]
  | cons t ts =>
    have isChild : parent.children[before.length]? = some t := by simp [siblings]
    have elder : (parent.children.take before.length).reverse = before := by simp [siblings]
    have inChild : ∀ rest, declaredAt source components trail parent (before.length :: rest) =
        declaredAt source components (⟨parent, before⟩ :: trail) t rest := by
      intro rest
      simp [declaredAt, at?_cons, trailTo, isChild, elder]
    have later := findingsIn_eq source components trail parent (t :: before) ts (by simp [siblings])
    rw [findingsIn, addressesFrom, List.flatMap_append, List.flatMap_map, later,
      findings_eq source components (⟨parent, before⟩ :: trail)]
    simp only [inChild, List.length_cons]

end

/-! ## What makes a unit -/

/-- The node at the end of a trail declares a unit, and which one. -/
inductive Declares (source : String) (components : Bool) (trail : Trail) (t : Tree) : Candidate → Prop where
  | function {name : String} (named : nameOf source t (t.childIn .name) = .ok name) (whole : t.hasError = false) :
      Declares source components trail t
        { name, kind := kindOf components name (t.childIn .body) .function, above := trail.above, scope := t,
          declaration := t, trail, params := t.childIn .parameters, body := t.childIn .body,
          exported := (exportFlags trail).1, defaultExport := (exportFlags trail).2 }
  | class_ {name : String} (named : nameOf source t (t.childIn .name) = .ok name) (whole : t.hasError = false) :
      Declares source components trail t
        { name, kind := kindOf components name (t.childIn .body) .class_, above := trail.above, scope := t,
          declaration := t, trail, params := none, body := t.childIn .body,
          exported := (exportFlags trail).1, defaultExport := (exportFlags trail).2 }
  | method {className name : String} {bodyTrail methodTrail : Trail} {body m : Tree}
      (classNamed : nameOf source t (t.childIn .name) = .ok className)
      (inClass : placeIn? .body t trail = some (bodyTrail, body))
      (inBody : (methodTrail, m) ∈ placesIn body bodyTrail) (isMethod : m.kind = .methodDefinition)
      (named : nameOf source m (m.childIn .name) = .ok name) (whole : m.hasError = false) :
      Declares source components trail t
        { name := className ++ "." ++ name, kind := .method, above := methodTrail.above, scope := m,
          declaration := m, trail := methodTrail, params := m.childIn .parameters, body := m.childIn .body,
          exported := (exportFlags trail).1, defaultExport := false }
  | variable_ {name : String} {declaratorTrail valueTrail : Trail} {declarator value : Tree}
      (isFirst : (placesIn t trail).find? (fun p => p.2.kind == .variableDeclarator) =
        some (declaratorTrail, declarator))
      (isBound : placeIn? .value declarator declaratorTrail = some (valueTrail, value))
      (isFunction : isFunctionValue value = true)
      (named : nameOf source t (declarator.childIn .name) = .ok name) (whole : t.hasError = false) :
      Declares source components trail t
        { name, kind := kindOf components name (value.childIn .body) .callableConstant,
          above := valueTrail.above, scope := value, declaration := t, trail,
          params := (value.childIn .parameters).or (value.childIn .parameter), body := value.childIn .body,
          exported := (exportFlags trail).1, defaultExport := (exportFlags trail).2 }

theorem candidate_eq_unlessBroken {t : Tree} {name : String} {c found : Candidate}
    (isFound : Finding.candidate c = unlessBroken t name found) : t.hasError = false ∧ c = found := by
  unfold unlessBroken at isFound
  split at isFound
  · cases isFound
  · rename_i whole
    exact ⟨by simpa using whole, Finding.candidate.inj isFound⟩

section

variable {source : String} {components : Bool} {trail : Trail} {t : Tree} {c : Candidate}

theorem declares_of_mem_functionFindings (member : .candidate c ∈ functionFindings source components trail t) :
    Declares source components trail t c := by
  unfold functionFindings at member
  split at member
  · simp at member
  · rename_i name named
    obtain ⟨whole, rfl⟩ := candidate_eq_unlessBroken (List.mem_singleton.mp member)
    exact .function named whole

theorem exists_name_of_mem_methodFindings {className : String} {exported : Bool}
    (member : .candidate c ∈ methodFindings source className exported trail t) :
    ∃ name, t.kind = .methodDefinition ∧ nameOf source t (t.childIn .name) = .ok name ∧ t.hasError = false ∧
      c = { name := className ++ "." ++ name, kind := .method, above := trail.above, scope := t,
            declaration := t, trail, params := t.childIn .parameters, body := t.childIn .body, exported,
            defaultExport := false } := by
  unfold methodFindings at member
  split at member
  · rename_i isMethod
    split at member
    · simp at member
    · rename_i name named
      obtain ⟨whole, isFound⟩ := candidate_eq_unlessBroken (List.mem_singleton.mp member)
      exact ⟨name, isMethod, named, whole, isFound⟩
  · cases member

theorem exists_name_of_mem_classFindings (member : .candidate c ∈ classFindings source components trail t) :
    ∃ className, nameOf source t (t.childIn .name) = .ok className ∧
      ((t.hasError = false ∧
          c = { name := className, kind := kindOf components className (t.childIn .body) .class_,
                above := trail.above, scope := t, declaration := t, trail, params := none,
                body := t.childIn .body, exported := (exportFlags trail).1,
                defaultExport := (exportFlags trail).2 }) ∨
        ∃ bodyTrail body methodTrail m, placeIn? .body t trail = some (bodyTrail, body) ∧
          (methodTrail, m) ∈ placesIn body bodyTrail ∧
          .candidate c ∈ methodFindings source className (exportFlags trail).1 methodTrail m) := by
  unfold classFindings at member
  split at member
  · cases member
  · rename_i n hasName
    split at member
    · simp at member
    · rename_i className named
      rw [← hasName] at named
      refine ⟨className, named, ?_⟩
      -- A broken class is no unit itself, but what is whole in its body is.
      rcases List.mem_cons.mp member with own | inMethods
      · exact .inl (candidate_eq_unlessBroken own)
      · split at inMethods
        · cases inMethods
        · rename_i bodyTrail body inClass
          obtain ⟨⟨methodTrail, m⟩, inBody, inMethod⟩ := List.mem_flatMap.mp inMethods
          exact .inr ⟨bodyTrail, body, methodTrail, m, inClass, inBody, inMethod⟩

theorem declares_of_mem_classFindings (member : .candidate c ∈ classFindings source components trail t) :
    Declares source components trail t c := by
  obtain ⟨className, named, ⟨whole, rfl⟩ | ⟨_, _, _, m, inClass, inBody, inMethod⟩⟩ :=
    exists_name_of_mem_classFindings member
  · exact .class_ named whole
  · obtain ⟨name, isMethod, methodNamed, whole, rfl⟩ := exists_name_of_mem_methodFindings inMethod
    exact .method named inClass inBody isMethod methodNamed whole

theorem declares_of_mem_variableFindings (member : .candidate c ∈ variableFindings source components trail t) :
    Declares source components trail t c := by
  unfold variableFindings at member
  split at member
  · cases member
  · rename_i declaratorTrail declarator isFirst
    split at member
    · cases member
    · rename_i valueTrail value isBound
      dsimp only at member
      split at member
      · cases member
      · rename_i isFunction
        split at member
        · cases member
        · split at member
          · simp at member
          · rename_i name named
            obtain ⟨whole, rfl⟩ := candidate_eq_unlessBroken (List.mem_singleton.mp member)
            exact .variable_ isFirst isBound (by simpa using isFunction) named whole

theorem declares_of_mem_ownFindings (member : .candidate c ∈ ownFindings source components trail t) :
    Declares source components trail t c := by
  unfold ownFindings at member
  split at member
  · exact declares_of_mem_functionFindings member
  · exact declares_of_mem_functionFindings member
  · exact declares_of_mem_classFindings member
  · exact declares_of_mem_classFindings member
  · exact declares_of_mem_variableFindings member
  · exact declares_of_mem_variableFindings member
  · split at member
    · exact declares_of_mem_classFindings member
    · cases member
  · split at member
    · exact declares_of_mem_functionFindings member
    · cases member
  · cases member

end

theorem exists_ownFindings_of_mem_candidates {s : ParsedSource} {c : Candidate} (member : c ∈ s.candidates) :
    ∃ p t, s.root.at? p = some t ∧
      .candidate c ∈ ownFindings s.text (allowsComponents s.path) (s.root.trailTo p) t := by
  obtain ⟨found, inFile, isCandidate⟩ := List.mem_filterMap.mp member
  cases found with
  | issue i => cases isCandidate
  | candidate c' =>
    cases isCandidate
    rw [ParsedSource.findings, findings_eq] at inFile
    obtain ⟨p, -, declared⟩ := List.mem_flatMap.mp inFile
    cases atPlace : s.root.at? p with
    | none => simp [declaredAt, atPlace] at declared
    | some t =>
      rw [declaredAt, atPlace, Option.elim_some, List.append_nil] at declared
      exact ⟨p, t, atPlace, declared⟩

/-- Every unit of a file is declared by a node of its tree, seen with the way that leads there. -/
theorem exists_declares_of_mem_candidates {s : ParsedSource} {c : Candidate} (member : c ∈ s.candidates) :
    ∃ p t, s.root.at? p = some t ∧ Declares s.text (allowsComponents s.path) (s.root.trailTo p) t c := by
  obtain ⟨p, t, atPlace, declared⟩ := exists_ownFindings_of_mem_candidates member
  exact ⟨p, t, atPlace, declares_of_mem_ownFindings declared⟩

/-! ## Scopes are nodes of the tree -/

/-- The node stands in the tree with exactly these nodes around it, the innermost first. -/
def StandsIn (root : Tree) (above : List Tree) (t : Tree) : Prop :=
  ∃ place, root.at? place = some t ∧ root.around place = above

theorem mem_childrenFrom {parent child : Tree} {trail trail' : Trail} {before ts : List Tree}
    (member : (trail', child) ∈ childrenFrom parent trail before ts) :
    child ∈ ts ∧ trail'.above = parent :: trail.above := by
  induction ts generalizing before with
  | nil => cases member
  | cons t ts inductionHypothesis =>
    rw [childrenFrom, List.mem_cons] at member
    rcases member with first | later
    · cases first
      exact ⟨List.mem_cons_self, rfl⟩
    · obtain ⟨inside, above⟩ := inductionHypothesis later
      exact ⟨List.mem_cons_of_mem t inside, above⟩

section

variable {root t child : Tree} {trail trail' : Trail}

theorem StandsIn.of_mem_placesIn (stands : StandsIn root trail.above t)
    (member : (trail', child) ∈ placesIn t trail) : StandsIn root trail'.above child := by
  obtain ⟨isChild, above⟩ := mem_childrenFrom member
  obtain ⟨place, found, around⟩ := stands
  obtain ⟨i, isChild⟩ := List.mem_iff_getElem?.mp isChild
  exact ⟨place ++ [i], by rw [at?_concat found, isChild], by rw [around_concat found, around, above]⟩

theorem StandsIn.of_placeIn? (stands : StandsIn root trail.above t) {f : Field}
    (place : placeIn? f t trail = some (trail', child)) : StandsIn root trail'.above child :=
  stands.of_mem_placesIn (List.mem_of_find?_eq_some place)

theorem Declares.scope_standsIn {source : String} {components : Bool} {c : Candidate}
    (declares : Declares source components trail t c) (stands : StandsIn root trail.above t) :
    StandsIn root c.above c.scope := by
  cases declares with
  | function => exact stands
  | class_ => exact stands
  | method _ inClass inBody => exact (stands.of_placeIn? inClass).of_mem_placesIn inBody
  | variable_ isFirst isBound =>
    exact (stands.of_mem_placesIn (List.mem_of_find?_eq_some isFirst)).of_placeIn? isBound

end

/-- The scope of a unit is a node of its file's tree. -/
theorem exists_place_of_mem_candidates {s : ParsedSource} {c : Candidate} (member : c ∈ s.candidates) :
    StandsIn s.root c.above c.scope := by
  obtain ⟨p, t, atPlace, declares⟩ := exists_declares_of_mem_candidates member
  exact declares.scope_standsIn ⟨p, atPlace, (above_trailTo s.root p).symm⟩

end CallAtlas
