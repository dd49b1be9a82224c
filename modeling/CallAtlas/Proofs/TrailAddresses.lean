import CallAtlas.Proofs.FoundDeclarations

/-!
# Trails and addresses

A trail holds the elder siblings of every step, so it tells the address of the place it leads to (`Trail.address`).
What the walk reads off a trail is said here by addresses: the children of a node with their trails
(`placesIn_trailTo`), the members of a class (`membersAt`), and whether a place is directly in an export
(`exportFlags_trailTo`).
-/

namespace CallAtlas

open Syntax Syntax.Tree

/-- The address of the place that a trail leads to. -/
def Trail.address (trail : Trail) : Address := (trail.map (·.before.length)).reverse

theorem prefix_lt_of_ne {p q : Address} (inside : p <+: q) (different : p ≠ q) : p < q := by
  obtain ⟨rest, rfl⟩ := inside
  cases rest with
  | nil => simp at different
  | cons i rest =>
    have below : p ++ [] < p ++ i :: rest := List.append_left_lt (List.nil_lt_cons i rest)
    simpa using below

section

variable {root t : Tree} {p : Address}

theorem address_trailTo (found : root.at? p = some t) : (root.trailTo p).address = p := by
  induction p generalizing root with
  | nil => rfl
  | cons i rest inductionHypothesis =>
    obtain ⟨child, isChild, below⟩ := Option.bind_eq_some_iff.mp found
    have inside : i < root.children.length := (List.getElem?_eq_some_iff.mp isChild).1
    have rest := inductionHypothesis below
    rw [Trail.address] at rest
    simp [Trail.address, trailTo, isChild, rest, Nat.min_eq_left (Nat.le_of_lt inside)]

theorem trailTo_concat (found : root.at? p = some t) (i : Nat) :
    root.trailTo (p ++ [i]) = ⟨t, (t.children.take i).reverse⟩ :: root.trailTo p := by
  induction p generalizing root with
  | nil =>
    cases found
    cases shape : t.children[i]? <;> simp [trailTo, shape]
  | cons j rest inductionHypothesis =>
    obtain ⟨child, isChild, below⟩ := Option.bind_eq_some_iff.mp found
    simp [trailTo, isChild, inductionHypothesis below]

theorem childrenFrom_eq (parent : Tree) (trail : Trail) (before ts : List Tree)
    (siblings : parent.children = before.reverse ++ ts) :
    childrenFrom parent trail before ts =
      (ts.zipIdx before.length).map fun x => (⟨parent, (parent.children.take x.2).reverse⟩ :: trail, x.1) := by
  -- `before` holds the children that are passed, so its length is the number of the next one.
  induction ts generalizing before with
  | nil => rfl
  | cons t ts inductionHypothesis =>
    have elder : (parent.children.take before.length).reverse = before := by simp [siblings]
    have later := inductionHypothesis (t :: before) (by simp [siblings])
    rw [childrenFrom, later, List.zipIdx_cons, List.map_cons, elder]
    rfl

theorem placesIn_trailTo (found : root.at? p = some t) :
    placesIn t (root.trailTo p) = t.children.zipIdx.map fun x => (root.trailTo (p ++ [x.2]), x.1) := by
  rw [placesIn, childrenFrom_eq t (root.trailTo p) [] t.children rfl]
  simp [trailTo_concat found]

theorem find?_placesIn (found : root.at? p = some t) (q : Tree → Bool) :
    (placesIn t (root.trailTo p)).find? (fun place => q place.2) =
      (t.children.findIdx? q).bind fun i => t.children[i]?.map fun child => (root.trailTo (p ++ [i]), child) := by
  rw [placesIn_trailTo found, List.find?_map, List.findIdx?_eq_fst_find?_zipIdx]
  change (t.children.zipIdx.find? fun x => q x.1).map _ = _
  cases first : t.children.zipIdx.find? (fun x => q x.1) with
  | none => rfl
  | some x =>
    have isChild : t.children[x.2]? = some x.1 := List.mem_zipIdx_iff_getElem?.mp (List.mem_of_find?_eq_some first)
    simp [isChild]

end

theorem map_find?_placesIn (t : Tree) (trail : Trail) (q : Tree → Bool) :
    ((placesIn t trail).find? fun place => q place.2).map (·.2) = t.children.find? q := by
  have same : (placesIn t trail).map (·.2) = t.children := by
    rw [placesIn, childrenFrom_eq t trail [] t.children rfl, List.map_map]
    exact List.zipIdx_map_fst _ _
  rw [← same, List.find?_map]
  rfl

section

variable {t : Tree} {trail : Trail}

theorem exists_find?_placesIn {q : Tree → Bool} {child : Tree} (isFirst : t.children.find? q = some child)
    (trail : Trail) : ∃ trail', ((placesIn t trail).find? fun place => q place.2) = some (trail', child) := by
  rw [← map_find?_placesIn t trail q] at isFirst
  obtain ⟨⟨trail', _⟩, isPlace, rfl⟩ := Option.map_eq_some_iff.mp isFirst
  exact ⟨trail', isPlace⟩

theorem childrenFind?_of_placesIn {q : Tree → Bool} {child : Tree} {trail' : Trail}
    (isPlace : ((placesIn t trail).find? fun place => q place.2) = some (trail', child)) :
    t.children.find? q = some child := by
  rw [← map_find?_placesIn t trail q, isPlace]
  rfl

end

/-! ## The members of a class -/

/-- What stands in the body of the class at `p`, each with its address. -/
def membersAt (p : Address) (t : Tree) : List (Address × Tree) :=
  (t.indexIn .body).elim [] fun i =>
    (t.children[i]?.elim [] children).zipIdx.map fun x => (p ++ [i, x.2], x.1)

theorem mem_membersAt_iff (p : Address) (t : Tree) (q : Address) (m : Tree) :
    (q, m) ∈ membersAt p t ↔ ∃ i j, t.indexIn .body = some i ∧ q = p ++ [i, j] ∧ t.at? [i, j] = some m := by
  cases inBody : t.indexIn .body with
  | none => simp [membersAt, inBody]
  | some i =>
    cases shape : t.children[i]? with
    | none => simp [membersAt, inBody, shape, at?_cons]
    | some body =>
      simp only [membersAt, inBody, shape, Option.elim_some, List.mem_map, Prod.mk.injEq, Prod.exists,
        List.mk_mem_zipIdx_iff_getElem?]
      constructor
      · rintro ⟨m', j, isMember, rfl, rfl⟩
        exact ⟨i, j, rfl, rfl, by simp [at?_cons, shape, isMember]⟩
      · rintro ⟨i', j, same, rfl, isMember⟩
        obtain rfl := Option.some.inj same
        exact ⟨m, j, by simpa [at?_cons, shape] using isMember, rfl, rfl⟩

theorem membersAt_sorted (p : Address) (t : Tree) : (membersAt p t).Pairwise fun a b => a.1 < b.1 := by
  cases inBody : t.indexIn .body with
  | none => simp [membersAt, inBody]
  | some i =>
    have numbered (ts : List Tree) : ts.zipIdx.Pairwise fun a b => a.2 < b.2 := by
      rw [← List.pairwise_map (f := Prod.snd) (R := (· < ·)), List.zipIdx_map_snd]
      exact List.pairwise_lt_range'
    simp only [membersAt, inBody, Option.elim_some, List.pairwise_map]
    refine (numbered _).imp fun younger => List.append_left_lt ?_
    exact List.cons_lt_cons_self.mpr (List.cons_lt_cons_iff.mpr (.inl younger))

/-! ## Exports around a place -/

/-- The place is directly in an export. -/
def StandsInExport (root : Tree) (p : Address) : Prop :=
  ∃ front i statement, p = front ++ [i] ∧ root.at? front = some statement ∧ statement.kind = .exportStatement

/-- The place is directly in a default export. -/
def StandsInDefault (root : Tree) (p : Address) : Prop :=
  ∃ front i statement, p = front ++ [i] ∧ root.at? front = some statement ∧ statement.kind = .exportStatement ∧
    statement.hasToken "default" = true

section

variable {root parent : Tree} {front : Address} (i : Nat)

theorem standsInExport_concat_iff (found : root.at? front = some parent) :
    StandsInExport root (front ++ [i]) ↔ parent.kind = .exportStatement := by
  constructor
  · rintro ⟨front', i', statement, same, found', isExport⟩
    obtain ⟨rfl, -⟩ := List.append_inj' same rfl
    exact Option.some.inj (found.symm.trans found') ▸ isExport
  · intro isExport
    exact ⟨front, i, parent, rfl, found, isExport⟩

theorem standsInDefault_concat_iff (found : root.at? front = some parent) :
    StandsInDefault root (front ++ [i]) ↔ parent.kind = .exportStatement ∧ parent.hasToken "default" = true := by
  constructor
  · rintro ⟨front', i', statement, same, found', isDefault⟩
    obtain ⟨rfl, -⟩ := List.append_inj' same rfl
    exact Option.some.inj (found.symm.trans found') ▸ isDefault
  · intro isDefault
    exact ⟨front, i, parent, rfl, found, isDefault⟩

end

theorem exportFlags_trailTo {root t : Tree} {p : Address} (found : root.at? p = some t) :
    ((exportFlags (root.trailTo p)).1 = true ↔ StandsInExport root p) ∧
      (exportFlags (root.trailTo p) = (true, true) ↔ StandsInDefault root p) := by
  rcases List.eq_nil_or_concat p with rfl | ⟨front, i, rfl⟩
  · simp [exportFlags, trailTo, Trail.parent?, StandsInExport, StandsInDefault]
  · rw [List.concat_eq_append] at found ⊢
    rw [at?_append] at found
    obtain ⟨parent, atFront, -⟩ := Option.bind_eq_some_iff.mp found
    have flags : exportFlags (root.trailTo (front ++ [i])) =
        if parent.kind = .exportStatement then (true, parent.hasToken "default") else (false, false) := by
      rw [trailTo_concat atFront]
      rfl
    rw [flags, standsInExport_concat_iff i atFront, standsInDefault_concat_iff i atFront]
    by_cases isExport : parent.kind = .exportStatement <;> simp [isExport]

theorem isNamedDefault_iff {root t : Tree} {p : Address} (found : root.at? p = some t) :
    isNamedDefault (root.trailTo p) t = true ↔ (∃ n, t.childIn .name = some n) ∧ StandsInDefault root p := by
  rw [isNamedDefault, Bool.and_eq_true, Option.isSome_iff_exists, beq_iff_eq, (exportFlags_trailTo found).2]

end CallAtlas
