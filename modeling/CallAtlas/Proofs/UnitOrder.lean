import CallAtlas.Proofs.ReportedDeclarations
import Mathlib.Data.List.Pairwise

/-!
# The order of units

The units of a file come in the order of the nodes at which they are found, and the methods of a class in the order of
their places (`candidates_listed`).  A class gives its methods before anything inside of them.  So a unit that stands
in a class, and is no method of it, is overtaken by every method of the class that stands behind it
(`Candidate.Overtakes`); but for this, units come in the order of the text (`units_inOrder_iff`).
-/

namespace CallAtlas

open Syntax Syntax.Tree

/-! ## Addresses in order -/

/-- What is below a node comes before what is below a later one, unless the later node is itself below the first. -/
theorem append_lt_append {p q : Address} (lower : p < q) (outside : ¬ p <+: q) (x y : Address) : p ++ x < q ++ y := by
  -- The addresses part at a step of both, and what is put behind them does not matter any more.
  induction p generalizing q with
  | nil => exact absurd List.nil_prefix outside
  | cons i p inductionHypothesis =>
    cases q with
    | nil => cases lower
    | cons j q =>
      rw [List.cons_append, List.cons_append, List.cons_lt_cons_iff]
      rcases List.cons_lt_cons_iff.mp lower with smaller | ⟨rfl, below⟩
      · exact .inl smaller
      · refine .inr ⟨rfl, inductionHypothesis below fun inside => outside ?_⟩
        exact List.cons_prefix_cons.mpr ⟨rfl, inside⟩

theorem rel_of_mem {α : Type} {R : α → α → Prop} {items : List α} (sorted : items.Pairwise R) {a b : α}
    (inA : a ∈ items) (inB : b ∈ items) : a = b ∨ R a b ∨ R b a := by
  by_cases same : a = b
  · exact .inl same
  · have symmetric : Std.Symm fun a b => R a b ∨ R b a := ⟨fun _ _ => Or.symm⟩
    have related : items.Pairwise fun a b => R a b ∨ R b a := sorted.imp .inl
    exact .inr (related.forall inA inB same)

/-- In pre-order, no node starts in front of an earlier one. -/
def Syntax.Tree.StartsInOrder (t : Tree) : Prop :=
  (t.addresses.filterMap fun p => (t.at? p).map (·.span.start)).Pairwise (· ≤ ·)

instance Syntax.Tree.decidableStartsInOrder (t : Tree) : Decidable t.StartsInOrder :=
  inferInstanceAs (Decidable (List.Pairwise _ _))

theorem Syntax.Tree.StartsInOrder.le {t a b : Tree} {p q : Address} (ordered : t.StartsInOrder)
    (atP : t.at? p = some a) (atQ : t.at? q = some b) (before : p < q) : a.span.start ≤ b.span.start := by
  have related := (addresses_sorted t).and (List.pairwise_filterMap.mp ordered)
  have inP : p ∈ t.addresses := (mem_addresses_iff t p).mpr (by simp [atP])
  have inQ : q ∈ t.addresses := (mem_addresses_iff t q).mpr (by simp [atQ])
  rcases rel_of_mem related inP inQ with rfl | ⟨-, starts⟩ | ⟨after, -⟩
  · exact absurd before (List.lt_irrefl _)
  · exact starts _ (by simp [atP]) _ (by simp [atQ])
  · exact absurd before (List.lt_asymm after)

/-! ## The list of units -/

/-- The order in which units are found. -/
def Candidate.ListedBefore (a b : Candidate) : Prop :=
  a.foundAt < b.foundAt ∨ a.foundAt = b.foundAt ∧ a.place < b.place

/-- The unit `c` stands in the class of the method `m` and in front of the method, and is no method of this class. -/
def Candidate.Overtakes (m c : Candidate) : Prop :=
  m.declaration.kind = .methodDefinition ∧ m.foundAt <+: c.foundAt ∧ m.foundAt ≠ c.foundAt ∧ c.place < m.place

instance Candidate.decidableOvertakes (m c : Candidate) : Decidable (m.Overtakes c) :=
  inferInstanceAs (Decidable (_ ∧ _ ∧ _ ∧ _))

/-- Where the declaration starts in the text. -/
def Candidate.start (c : Candidate) : Nat := c.declaration.span.start

/-- The units of a file with the starts of their declarations. -/
def ParsedSource.startedUnits (s : ParsedSource) : List (CodeUnit × Nat) :=
  s.candidates.map fun c => (s.unitOf c, c.start)

/-- No unit starts in front of an earlier one. -/
def ParsedSource.InOrder (s : ParsedSource) : Prop := (s.startedUnits.map (·.2)).Pairwise (· ≤ ·)

instance ParsedSource.decidableInOrder (s : ParsedSource) : Decidable s.InOrder :=
  inferInstanceAs (Decidable (List.Pairwise _ _))

section

variable {s : ParsedSource} {a b c : Candidate}

theorem Candidate.foundAt_isPrefixOf_place (member : c ∈ s.candidates) : c.foundAt <+: c.place := by
  rcases (Candidate.foundAt_cases member).2 with ⟨-, i, j, below⟩ | ⟨-, same⟩
  · exact ⟨[i, j], below.symm⟩
  · exact same ▸ List.prefix_rfl

theorem candidates_listed (s : ParsedSource) : s.candidates.Pairwise Candidate.ListedBefore := by
  obtain ⟨reports, isReports⟩ := s.exists_reports
  rw [isReports.candidates_eq, List.pairwise_filterMap]
  refine isReports.sorted.imp_of_mem fun {r r'} isReport isReport' lower a isUnit b isUnit' => ?_
  have about := isReports.isAbout isReport (Finding.candidate?_eq_some_iff.mp isUnit)
  have about' := isReports.isAbout isReport' (Finding.candidate?_eq_some_iff.mp isUnit')
  rw [Candidate.ListedBefore, about.foundAt, about'.foundAt, about.place, about'.place]
  exact lower

theorem Candidate.place_ne (inA : a ∈ s.candidates) (inB : b ∈ s.candidates) (lower : a.foundAt < b.foundAt) :
    a.place ≠ b.place := by
  intro same
  have atA := (Candidate.foundAt_cases inA).1
  rw [same, (Candidate.foundAt_cases inB).1, Option.some.injEq] at atA
  rw [Candidate.foundAt, Candidate.foundAt, atA, same] at lower
  exact List.lt_irrefl _ lower

theorem Candidate.ListedBefore.lt_or_overtakes (inA : a ∈ s.candidates) (inB : b ∈ s.candidates)
    (listed : a.ListedBefore b) : a.place < b.place ∨ a.Overtakes b := by
  rcases listed with lower | ⟨-, lower⟩
  · obtain ⟨rest, below⟩ : b.foundAt <+: b.place := Candidate.foundAt_isPrefixOf_place inB
    rcases (Candidate.foundAt_cases inA).2 with ⟨isMethod, i, j, inClass⟩ | ⟨-, same⟩
    · by_cases inside : a.foundAt <+: b.foundAt
      · -- `b` is somewhere in the class of the method `a`, on either side of it.
        by_cases before : a.place < b.place
        · exact .inl before
        · have different := Candidate.place_ne inA inB lower
          have behind : b.place < a.place := by
            by_contra notBehind
            exact different (List.le_antisymm notBehind before)
          exact .inr ⟨isMethod, inside, fun same => List.lt_irrefl _ (same ▸ lower), behind⟩
      · left
        rw [inClass, ← below]
        exact append_lt_append lower inside [i, j] rest
    · -- `a` stands where it is found, and `b` not before it is found.
      left
      rw [same]
      by_cases alone : b.foundAt = b.place
      · exact alone ▸ lower
      · exact List.lt_trans lower (prefix_lt_of_ne ⟨rest, below⟩ alone)
  · exact .inl lower

theorem Candidate.Overtakes.listedBefore {m : Candidate} (overtakes : m.Overtakes c) : m.ListedBefore c :=
  .inl (prefix_lt_of_ne overtakes.2.1 overtakes.2.2.1)

theorem Candidate.ListedBefore.asymm (listed : a.ListedBefore b) : ¬ b.ListedBefore a := by
  rintro (lower | ⟨same, lower⟩) <;> rcases listed with lower' | ⟨same', lower'⟩
  · exact List.lt_asymm lower lower'
  · exact List.lt_irrefl _ (same' ▸ lower)
  · exact List.lt_irrefl _ (same ▸ lower')
  · exact List.lt_asymm lower lower'

end

/-- Where the starts of the nodes are in order, a unit starts in front of an earlier one only if the earlier one has
    overtaken it, and the units are in the order of the text just if no unit has overtaken one with another start. -/
theorem units_inOrder_iff (s : ParsedSource) (ordered : s.root.StartsInOrder) :
    s.startedUnits.map (·.1) = s.units ∧
    s.candidates.Pairwise Candidate.ListedBefore ∧
    (s.candidates.Pairwise fun a b => a.start ≤ b.start ∨ a.Overtakes b) ∧
    (s.InOrder ↔ ∀ m ∈ s.candidates, ∀ c ∈ s.candidates, m.Overtakes c → m.start = c.start) := by
  have listed := candidates_listed s
  have starts {a b : Candidate} (inA : a ∈ s.candidates) (inB : b ∈ s.candidates) (before : a.place < b.place) :
      a.start ≤ b.start :=
    ordered.le (Candidate.foundAt_cases inA).1 (Candidate.foundAt_cases inB).1 before
  have nearly : s.candidates.Pairwise fun a b => a.start ≤ b.start ∨ a.Overtakes b :=
    listed.imp_of_mem fun inA inB before => (before.lt_or_overtakes inA inB).imp_left (starts inA inB)
  have inOrder : s.InOrder ↔ s.candidates.Pairwise fun a b => a.start ≤ b.start := by
    simp [ParsedSource.InOrder, ParsedSource.startedUnits, List.pairwise_map]
  refine ⟨by simp [ParsedSource.startedUnits, ParsedSource.units], listed, nearly, inOrder.trans ⟨?_, ?_⟩⟩
  · intro sorted m inM c inC overtakes
    -- `m` is listed first, and `c` stands first.
    rcases rel_of_mem (listed.and sorted) inM inC with rfl | ⟨-, order⟩ | ⟨behind, -⟩
    · rfl
    · exact Nat.le_antisymm order (starts inC inM overtakes.2.2.2)
    · exact absurd behind overtakes.listedBefore.asymm
  · intro harmless
    refine nearly.imp_of_mem fun {a b} inA inB order => order.elim id fun overtakes => ?_
    exact Nat.le_of_eq (harmless a inA b inB overtakes)

/-- A text with a function in the last method of a class. -/
def nestedLast : ParsedSource :=
  let text := "class A \x7b\n  a() \x7b\x7d\n  b() \x7b function inner() \x7b\x7d \x7d\n\x7d\n"
  ⟨"a.ts", text, Tree.ofText .typeScript text⟩

theorem nestedLast_inOrder : nestedLast.units.map (·.name) = ["A", "A.a", "A.b", "inner"] ∧ nestedLast.InOrder := by
  have facts : nestedLast.root.StartsInOrder ∧ nestedLast.units.map (·.name) = ["A", "A.a", "A.b", "inner"] ∧
      ∀ m ∈ nestedLast.candidates, ∀ c ∈ nestedLast.candidates, ¬ m.Overtakes c := by
    decide +kernel
  obtain ⟨ordered, names, none⟩ := facts
  refine ⟨names, (units_inOrder_iff nestedLast ordered).2.2.2.mpr fun m inM c inC overtakes => ?_⟩
  exact absurd overtakes (none m inM c inC)

/-- The same function in the first of two methods. -/
def nestedFirst : ParsedSource :=
  let text := "class A \x7b\n  a() \x7b function inner() \x7b\x7d \x7d\n  b() \x7b\x7d\n\x7d\n"
  ⟨"a.ts", text, Tree.ofText .typeScript text⟩

/-- The second method overtakes the function in the first. -/
theorem nestedFirst_outOfOrder :
    nestedFirst.root.StartsInOrder ∧
      (nestedFirst.startedUnits.map fun u => (u.1.name, u.2)) = [("A", 0), ("A.a", 12), ("A.b", 42), ("inner", 18)] ∧
      ¬ nestedFirst.InOrder := by
  decide +kernel

end CallAtlas
