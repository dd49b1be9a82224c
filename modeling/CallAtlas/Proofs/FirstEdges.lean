import CallAtlas.Proofs.EdgesPerSource

/-!
# The first edge of each pair of ends

Of the edges with the same ends the first one is kept.  So the edges that are kept stand at the positions where
ends come up that were not there before (`exists_firstPositions`), and edges that were dropped once make no
difference to what is kept when more edges follow (`dedupFrom_dedupFrom_append`).

The id of an edge joins its ends by an arrow.  An arrow cannot begin inside another one, so a source without an
arrow can be read off the id (`ends_of_edgeId_eq`), and the edges that are kept have different ids.
-/

namespace CallAtlas

/-! ## Positions -/

/-- The positions, in order, of the edges whose ends are neither in `seen` nor those of an earlier edge. -/
structure FirstPositions (seen : List (String × String)) (edges : List Edge)
    (positions : List (Fin edges.length)) : Prop where
  increasing : positions.Pairwise (· < ·)
  mem_iff : ∀ i, i ∈ positions ↔
    (edges.get i).ends ∉ seen ∧ ∀ j < i, (edges.get j).ends ≠ (edges.get i).ends

section

variable {seen : List (String × String)} {e : Edge} {edges : List Edge} {positions : List (Fin edges.length)}

theorem increasing_map_succ (increasing : positions.Pairwise (· < ·)) :
    (positions.map Fin.succ).Pairwise (· < ·) :=
  List.pairwise_map.mpr (increasing.imp fun less => Fin.succ_lt_succ_iff.mpr less)

theorem succ_mem_map_succ {i : Fin edges.length} : i.succ ∈ positions.map Fin.succ ↔ i ∈ positions := by
  constructor
  · intro member
    obtain ⟨j, inside, same⟩ := List.mem_map.mp member
    exact Fin.succ_inj.mp same ▸ inside
  · exact List.mem_map_of_mem

theorem zero_not_mem_map_succ : ⟨0, Nat.zero_lt_succ _⟩ ∉ positions.map Fin.succ := by
  intro member
  obtain ⟨j, -, same⟩ := List.mem_map.mp member
  exact Fin.succ_ne_zero j same

/-- At a later position, the first edge counts as one that was seen. -/
theorem forall_lt_succ_iff {i : Fin edges.length} :
    (∀ j < i.succ, ((e :: edges).get j).ends ≠ (edges.get i).ends) ↔
      e.ends ≠ (edges.get i).ends ∧ ∀ j < i, (edges.get j).ends ≠ (edges.get i).ends := by
  constructor
  · intro apart
    exact ⟨apart 0 (Fin.succ_pos i), fun j less => apart j.succ (Fin.succ_lt_succ_iff.mpr less)⟩
  · rintro ⟨first, later⟩ j less
    cases j using Fin.cases with
    | zero => exact first
    | succ j => exact later j (Fin.succ_lt_succ_iff.mp less)

theorem FirstPositions.cons_of_mem (old : e.ends ∈ seen) (first : FirstPositions seen edges positions) :
    FirstPositions seen (e :: edges) (positions.map Fin.succ) where
  increasing := increasing_map_succ first.increasing
  mem_iff := by
    intro i
    cases i using Fin.cases with
    | zero => exact ⟨fun member => absurd member zero_not_mem_map_succ, fun ⟨new, _⟩ => absurd old new⟩
    | succ i =>
      refine succ_mem_map_succ.trans ((first.mem_iff i).trans ?_)
      refine and_congr_right fun new => Iff.trans ?_ forall_lt_succ_iff.symm
      have apart : e.ends ≠ (edges.get i).ends := fun same => new (same ▸ old)
      exact (and_iff_right apart).symm

theorem FirstPositions.cons_of_not_mem (new : e.ends ∉ seen)
    (first : FirstPositions (e.ends :: seen) edges positions) :
    FirstPositions seen (e :: edges) (⟨0, Nat.zero_lt_succ _⟩ :: positions.map Fin.succ) where
  increasing := by
    refine List.Pairwise.cons (fun i member => ?_) (increasing_map_succ first.increasing)
    obtain ⟨j, -, rfl⟩ := List.mem_map.mp member
    exact Fin.succ_pos j
  mem_iff := by
    intro i
    cases i using Fin.cases with
    | zero => exact ⟨fun _ => ⟨new, fun j less => absurd less (Fin.not_lt_zero j)⟩, fun _ => List.mem_cons_self⟩
    | succ i =>
      have notFirst : i.succ ≠ ⟨0, Nat.zero_lt_succ _⟩ := Fin.succ_ne_zero i
      rw [List.mem_cons, or_iff_right notFirst, succ_mem_map_succ, first.mem_iff]
      refine Iff.trans ?_ (and_congr_right_iff.mpr fun _ => forall_lt_succ_iff).symm
      rw [List.mem_cons, not_or, and_assoc, and_left_comm, ne_comm]
      rfl

end

/-- What is kept stands at the positions where new ends come up. -/
theorem exists_firstPositions (seen : List (String × String)) (edges : List Edge) :
    ∃ positions, FirstPositions seen edges positions ∧ dedupFrom seen edges = positions.map edges.get := by
  induction edges generalizing seen with
  | nil => exact ⟨[], ⟨.nil, fun i => i.elim0⟩, rfl⟩
  | cons e edges inductionHypothesis =>
    unfold dedupFrom
    split
    · rename_i old
      obtain ⟨positions, first, kept⟩ := inductionHypothesis seen
      refine ⟨_, first.cons_of_mem (List.contains_iff_mem.mp old), ?_⟩
      rw [kept, List.map_map]
      rfl
    · rename_i new
      obtain ⟨positions, first, kept⟩ := inductionHypothesis (e.ends :: seen)
      refine ⟨_, first.cons_of_not_mem (fun old => new (List.contains_iff_mem.mpr old)), ?_⟩
      rw [kept, List.map_cons, List.map_map]
      rfl

/-! ## Pairs of ends -/

theorem filter_dedupEdges_ends (edges : List Edge) (ends : String × String) :
    (dedupEdges edges).filter (·.ends == ends) = (edges.find? (·.ends == ends)).toList := by
  have sameFirst : (dedupEdges edges).find? (·.ends == ends) = edges.find? (·.ends == ends) :=
    find_dedupFrom List.not_mem_nil edges
  rw [← sameFirst]
  cases found : (dedupEdges edges).find? (·.ends == ends) with
  | none => exact List.filter_eq_nil_iff.mpr (List.find?_eq_none.mp found)
  | some e => exact filter_ends_of_find (dedupEdges_apart edges) found

/-! ## More edges -/

/-- Edges may be dropped before more of them follow. -/
theorem dedupFrom_dedupFrom_append (seen : List (String × String)) (edges more : List Edge) :
    dedupFrom seen (dedupFrom seen edges ++ more) = dedupFrom seen (edges ++ more) := by
  induction edges generalizing seen with
  | nil => rfl
  | cons e edges inductionHypothesis =>
    rw [dedupFrom]
    split
    · rename_i old
      rw [inductionHypothesis, List.cons_append, dedupFrom, if_pos old]
    · rename_i new
      rw [List.cons_append, dedupFrom, if_neg new, inductionHypothesis, List.cons_append, dedupFrom, if_neg new]

/-! ## Ids -/

theorem toList_edgeId (source target : String) :
    (edgeId source target).toList = source.toList ++ '-' :: '>' :: target.toList := by
  rw [edgeId, String.toList_append, String.toList_append, List.append_assoc]
  rfl

/-- Where an arrow stands at the start and another one behind `middle`, there is nothing between them, or `middle`
    starts with an arrow: two arrows do not overlap. -/
theorem nil_of_arrow_append {middle before behind : List Char} (noArrow : ¬ ['-', '>'] <+: middle)
    (same : '-' :: '>' :: before = middle ++ '-' :: '>' :: behind) : middle = [] := by
  match middle with
  | [] => rfl
  | [c] =>
    obtain ⟨overlap, -⟩ := List.cons.inj (List.cons.inj same).2
    exact absurd overlap (by decide)
  | c :: d :: middle =>
    obtain ⟨rfl, sameTail⟩ := List.cons.inj same
    obtain ⟨rfl, -⟩ := List.cons.inj sameTail
    exact absurd (List.prefix_append ['-', '>'] middle) noArrow

theorem eq_of_append_arrow {first second before behind : List Char} (firstPlain : ¬ ['-', '>'] <:+: first)
    (secondPlain : ¬ ['-', '>'] <:+: second)
    (same : first ++ '-' :: '>' :: before = second ++ '-' :: '>' :: behind) : first = second := by
  rcases List.append_eq_append_iff.mp same with ⟨middle, rfl, rest⟩ | ⟨middle, rfl, rest⟩
  · have noArrow : ¬ ['-', '>'] <+: middle := fun arrow =>
      secondPlain (arrow.isInfix.trans (List.suffix_append first middle).isInfix)
    rw [nil_of_arrow_append noArrow rest, List.append_nil]
  · have noArrow : ¬ ['-', '>'] <+: middle := fun arrow =>
      firstPlain (arrow.isInfix.trans (List.suffix_append second middle).isInfix)
    rw [nil_of_arrow_append noArrow rest, List.append_nil]

/-- Sources without an arrow, and with them the targets, can be read off the ids. -/
theorem ends_of_edgeId_eq {a b : Edge} (aPlain : ¬ ['-', '>'] <:+: a.source.toList)
    (bPlain : ¬ ['-', '>'] <:+: b.source.toList) (same : edgeId a.source a.target = edgeId b.source b.target) :
    a.ends = b.ends := by
  have sameText := congrArg String.toList same
  rw [toList_edgeId, toList_edgeId] at sameText
  have sources : a.source.toList = b.source.toList := eq_of_append_arrow aPlain bPlain sameText
  rw [sources] at sameText
  have targets : a.target.toList = b.target.toList := by simpa using sameText
  exact Prod.ext (String.toList_inj.mp sources) (String.toList_inj.mp targets)

/-- What is kept is the first edge of each pair of ends, in the order of the list; edges may be dropped before more of
    them follow; and where no source has an arrow in it, the ids of what is kept are different. -/
theorem dedupEdges_exact (edges : List Edge) :
    (dedupEdges edges).Sublist edges ∧
      (dedupEdges edges).Pairwise (fun a b => a.ends ≠ b.ends) ∧
      (∃ positions, FirstPositions [] edges positions ∧ dedupEdges edges = positions.map edges.get) ∧
      (∀ ends, (dedupEdges edges).filter (·.ends == ends) = (edges.find? (·.ends == ends)).toList) ∧
      (∀ more, dedupEdges (dedupEdges edges ++ more) = dedupEdges (edges ++ more)) ∧
      dedupEdges (dedupEdges edges) = dedupEdges edges ∧
      ((∀ e ∈ edges, ¬ ['-', '>'] <:+: e.source.toList) →
        (dedupEdges edges).Pairwise fun a b => edgeId a.source a.target ≠ edgeId b.source b.target) := by
  have incremental : ∀ more, dedupEdges (dedupEdges edges ++ more) = dedupEdges (edges ++ more) :=
    dedupFrom_dedupFrom_append [] edges
  refine ⟨dedupFrom_sublist [] edges, dedupEdges_apart edges, exists_firstPositions [] edges,
    filter_dedupEdges_ends edges, incremental, by simpa using incremental [], fun plain => ?_⟩
  refine List.Pairwise.imp_of_mem (fun inA inB apart same => apart ?_) (dedupEdges_apart edges)
  exact ends_of_edgeId_eq (plain _ (mem_of_mem_dedupEdges inA)) (plain _ (mem_of_mem_dedupEdges inB)) same

/-- Two edges with the same ends, and one where a hyphen stands before the arrow. -/
def threeEdges : List Edge :=
  [⟨"a.ts:f->b.ts:g", "a.ts:f", "b.ts:g", .conditionalCall, none, false, none⟩,
    ⟨"a.ts:f->b.ts:g", "a.ts:f", "b.ts:g", .directCall, none, false, none⟩,
    ⟨"a.ts:f-->>g", "a.ts:f-", ">g", .directCall, none, false, none⟩]

theorem dedupEdges_exact_threeEdges :
    (∀ e ∈ threeEdges, ¬ ['-', '>'] <:+: e.source.toList) ∧
      (dedupEdges threeEdges).Pairwise fun a b => edgeId a.source a.target ≠ edgeId b.source b.target := by
  have plain : ∀ e ∈ threeEdges, ¬ ['-', '>'] <:+: e.source.toList := by
    intro e member arrow
    have inside : '>' ∈ e.source.toList := arrow.subset (by decide)
    simp only [threeEdges, List.mem_cons, List.not_mem_nil, or_false] at member
    rcases member with rfl | rfl | rfl <;> exact absurd inside (by decide)
  obtain ⟨-, -, -, -, -, -, differentIds⟩ := dedupEdges_exact threeEdges
  exact ⟨plain, differentIds plain⟩

end CallAtlas
