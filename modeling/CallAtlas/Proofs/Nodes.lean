import CallAtlas.Graph.Build

/-!
# The nodes of a graph

The nodes stand in the order of their ids (`nodesOf_ascending`), every one of them is the node of a unit
(`exists_unit_of_mem_nodesOf`), and every unit has given its id to one of them (`exists_id_nodesOf_iff`).
A unit whose id comes up again later loses its node but not the id.
-/

namespace CallAtlas

/-- The ids of the nodes rise from each node to the next. -/
def Ascending (nodes : List Node) : Prop := nodes.Pairwise fun a b => a.id < b.id

/-! ## One more node -/

theorem mem_insertNode {m n : Node} {nodes : List Node} (member : m ∈ insertNode n nodes) :
    m = n ∨ m ∈ nodes := by
  induction nodes with
  | nil => exact .inl (List.mem_singleton.mp member)
  | cons first rest inductionHypothesis =>
    rw [insertNode] at member
    split at member
    · exact (List.mem_cons.mp member).imp_right (List.mem_cons_of_mem first)
    · split at member
      · exact List.mem_cons.mp member
      · rcases List.mem_cons.mp member with rfl | member
        · exact .inr List.mem_cons_self
        · exact (inductionHypothesis member).imp_right (List.mem_cons_of_mem first)

theorem exists_id_insertNode_iff (n : Node) (nodes : List Node) (id : String) :
    (∃ m ∈ insertNode n nodes, m.id = id) ↔ n.id = id ∨ ∃ m ∈ nodes, m.id = id := by
  induction nodes with
  | nil => simp [insertNode]
  | cons first rest inductionHypothesis =>
    rw [insertNode]
    split
    · rename_i sameId
      rw [beq_iff_eq] at sameId
      simp only [List.mem_cons, exists_eq_or_imp, sameId]
      exact ⟨.inr, fun either => either.elim .inl fun present => present⟩
    · split
      · simp only [List.mem_cons, exists_eq_or_imp]
      · simp only [List.mem_cons, exists_eq_or_imp, inductionHypothesis]
        exact or_left_comm

theorem insertNode_ascending {nodes : List Node} (ascending : Ascending nodes) (n : Node) :
    Ascending (insertNode n nodes) := by
  induction nodes with
  | nil => exact List.pairwise_singleton _ _
  | cons first rest inductionHypothesis =>
    obtain ⟨firstBelow, restAscending⟩ := List.pairwise_cons.mp ascending
    rw [insertNode]
    split
    · rename_i sameId
      rw [beq_iff_eq] at sameId
      exact .cons (fun m member => sameId ▸ firstBelow m member) restAscending
    · rename_i otherId
      split
      · rename_i below
        refine .cons (fun m member => ?_) ascending
        rcases List.mem_cons.mp member with rfl | member
        · exact below
        · exact String.lt_trans below (firstBelow m member)
      · rename_i notBelow
        -- The order is total, so a node that is neither first nor in front comes behind.
        have above : first.id < n.id :=
          Std.lt_of_le_of_ne (String.not_lt.mp notBelow) fun same => otherId (by simp [same])
        refine .cons (fun m member => ?_) (inductionHypothesis restAscending)
        rcases mem_insertNode member with rfl | member
        · exact above
        · exact firstBelow m member

/-! ## All nodes -/

/-- The nodes with those of more units. -/
def insertUnits (nodes : List Node) (units : List (String × CodeUnit)) : List Node :=
  units.foldl (fun nodes u => insertNode (nodeOf u.1 u.2) nodes) nodes

theorem insertUnits_ascending {nodes : List Node} (ascending : Ascending nodes)
    (units : List (String × CodeUnit)) : Ascending (insertUnits nodes units) := by
  induction units generalizing nodes with
  | nil => exact ascending
  | cons u units inductionHypothesis =>
    exact inductionHypothesis (insertNode_ascending ascending (nodeOf u.1 u.2))

theorem mem_insertUnits {nodes : List Node} {units : List (String × CodeUnit)} {n : Node}
    (member : n ∈ insertUnits nodes units) : n ∈ nodes ∨ ∃ u ∈ units, n = nodeOf u.1 u.2 := by
  induction units generalizing nodes with
  | nil => exact .inl member
  | cons u units inductionHypothesis =>
    rcases inductionHypothesis member with before | ⟨v, later, rfl⟩
    · rcases mem_insertNode before with rfl | before
      · exact .inr ⟨u, List.mem_cons_self, rfl⟩
      · exact .inl before
    · exact .inr ⟨v, List.mem_cons_of_mem u later, rfl⟩

theorem exists_id_insertUnits_iff (nodes : List Node) (units : List (String × CodeUnit)) (id : String) :
    (∃ n ∈ insertUnits nodes units, n.id = id) ↔
      (∃ n ∈ nodes, n.id = id) ∨ ∃ u ∈ units, nodeId u.1 u.2.name = id := by
  induction units generalizing nodes with
  | nil => simp [insertUnits]
  | cons u units inductionHypothesis =>
    rw [insertUnits, List.foldl_cons, ← insertUnits, inductionHypothesis, exists_id_insertNode_iff]
    simp only [List.mem_cons, exists_eq_or_imp]
    change ((nodeId u.1 u.2.name = id ∨ _) ∨ _) ↔ _
    rw [or_comm (a := nodeId u.1 u.2.name = id), or_assoc]

theorem mem_allUnits_iff (facts : List FileFacts) (u : String × CodeUnit) :
    u ∈ allUnits facts ↔ ∃ f ∈ facts, ∃ v ∈ f.units, u = (f.relative, v.1) := by
  simp only [allUnits, List.mem_flatMap, List.mem_map]
  constructor
  · rintro ⟨f, inFacts, v, inFile, rfl⟩
    exact ⟨f, inFacts, v, inFile, rfl⟩
  · rintro ⟨f, inFacts, v, inFile, rfl⟩
    exact ⟨f, inFacts, v, inFile, rfl⟩

theorem nodesOf_ascending (facts : List FileFacts) : Ascending (nodesOf facts) :=
  insertUnits_ascending .nil (allUnits facts)

/-- Every node is the node of a unit. -/
theorem exists_unit_of_mem_nodesOf {facts : List FileFacts} {n : Node} (member : n ∈ nodesOf facts) :
    ∃ f ∈ facts, ∃ u ∈ f.units, n = nodeOf f.relative u.1 := by
  rcases mem_insertUnits member with before | ⟨u, inUnits, rfl⟩
  · cases before
  · obtain ⟨f, inFacts, v, inFile, rfl⟩ := (mem_allUnits_iff facts u).mp inUnits
    exact ⟨f, inFacts, v, inFile, rfl⟩

/-- The ids of the nodes are the ids of the units. -/
theorem exists_id_nodesOf_iff (facts : List FileFacts) (id : String) :
    (∃ n ∈ nodesOf facts, n.id = id) ↔
      ∃ f ∈ facts, ∃ u ∈ f.units, nodeId f.relative u.1.name = id := by
  rw [show nodesOf facts = insertUnits [] (allUnits facts) from rfl, exists_id_insertUnits_iff]
  constructor
  · rintro (⟨n, before, -⟩ | ⟨u, inUnits, sameId⟩)
    · cases before
    · obtain ⟨f, inFacts, v, inFile, rfl⟩ := (mem_allUnits_iff facts u).mp inUnits
      exact ⟨f, inFacts, v, inFile, sameId⟩
  · rintro ⟨f, inFacts, u, inFile, sameId⟩
    exact .inr ⟨_, (mem_allUnits_iff facts _).mpr ⟨f, inFacts, u, inFile, rfl⟩, sameId⟩

/-! ## Looking nodes up -/

/-- In a list of nodes with rising ids, a node is found under its id. -/
theorem find_of_ascending {nodes : List Node} (ascending : Ascending nodes) {n : Node}
    (member : n ∈ nodes) : nodes.find? (·.id == n.id) = some n := by
  induction nodes with
  | nil => cases member
  | cons first rest inductionHypothesis =>
    obtain ⟨firstBelow, restAscending⟩ := List.pairwise_cons.mp ascending
    rcases List.mem_cons.mp member with rfl | member
    · simp
    · have other : (first.id == n.id) = false := by
        simpa using String.ne_of_lt (firstBelow n member)
      rw [List.find?_cons_of_neg (by simp [other]), inductionHypothesis restAscending member]

/-- Two lists whose keys rise are equal as soon as they have the same members. -/
theorem eq_of_rising {α : Type} (key : α → String) {xs ys : List α}
    (xsRise : xs.Pairwise fun a b => key a < key b) (ysRise : ys.Pairwise fun a b => key a < key b)
    (same : ∀ a, a ∈ xs ↔ a ∈ ys) : xs = ys := by
  have nodup : ∀ {zs : List α}, zs.Pairwise (fun a b => key a < key b) → zs.Nodup := by
    intro zs rise
    apply rise.imp
    rintro a b below rfl
    exact String.lt_irrefl _ below
  apply List.Perm.eq_of_pairwise _ xsRise ysRise
  · exact (List.perm_ext_iff_of_nodup (nodup xsRise) (nodup ysRise)).mpr same
  · intro a b _ _ below above
    exact absurd above (String.lt_asymm below)

end CallAtlas
