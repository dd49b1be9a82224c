import CallAtlas.Graph.Build
import CallAtlas.Proofs.Declarations
import CallAtlas.Proofs.NormalPaths

/-!
# Which files are loaded

A file is loaded if and only if it is listed and can be read (`mem_loadedFacts_iff`), and it is loaded
once, however often and however it is spelled (`loadedFacts_apart`).  Both follow from what one listed
file adds to the facts (`loadedFrom_cons`).
-/

namespace CallAtlas

open CallAtlas.Path

/-- The facts about the listed files, when those in `facts` are known before. -/
def loadedFrom (tree : FileTree) (root : String) (limit : Nat) (facts : List FileFacts)
    (files : List String) : List FileFacts :=
  (loadFilesFrom tree root limit facts files).value.1

/-- The facts about the listed files. -/
def loadedFacts (tree : FileTree) (root : String) (limit : Nat) (files : List String) :
    List FileFacts :=
  loadedFrom tree root limit [] files

/-- The facts are those about a listed file that can be read. -/
def IsLoaded (tree : FileTree) (root : String) (limit : Nat) (files : List String) (f : FileFacts) :
    Prop :=
  ∃ file ∈ files, ∃ e, Extraction.ofFile tree limit (wholePath root file) = .ok e ∧
    f = .ofExtraction root (wholePath root file) e

section

variable {tree : FileTree} {root : String} {limit : Nat} {files all : List String} {f g : FileFacts}

theorem IsLoaded.cons (loaded : IsLoaded tree root limit files f) (file : String) :
    IsLoaded tree root limit (file :: files) f := by
  obtain ⟨other, listed, read⟩ := loaded
  exact ⟨other, List.mem_cons_of_mem file listed, read⟩

/-- Two spellings of one file lead to the same whole path, so the same is known from both. -/
theorem IsLoaded.eq_of_samePath (gLoaded : IsLoaded tree root limit all g)
    (fLoaded : IsLoaded tree root limit files f) (same : samePath g.path f.path = true) : g = f := by
  obtain ⟨file, -, e, read, rfl⟩ := gLoaded
  obtain ⟨file', -, e', read', rfl⟩ := fLoaded
  have paths : wholePath root file = wholePath root file' := normalize_ext (by
    simpa [samePath, FileFacts.ofExtraction, wholePath] using same)
  rw [paths, read', Except.ok.injEq] at read
  rw [paths, read]

/-- The units of a loaded file have different names. -/
theorem IsLoaded.names (loaded : IsLoaded tree root limit files f) :
    f.units.Pairwise fun a b => a.1.name ≠ b.1.name := by
  obtain ⟨-, -, e, -, rfl⟩ := loaded
  exact lastDeclarations_names e.units

end

section

variable (tree : FileTree) (root : String) (limit : Nat)

theorem loadedFrom_nil (facts : List FileFacts) : loadedFrom tree root limit facts [] = facts := by
  rfl

theorem loadFilesFrom_cons (facts : List FileFacts) (file : String) (files : List String) :
    loadFilesFrom tree root limit facts (file :: files) =
      let path := wholePath root file
      if facts.any fun f => samePath f.path path then loadFilesFrom tree root limit facts files
      else
        match Extraction.ofFile tree limit path with
        | .error e => do
          Traced.warn ("Skipping " ++ shown path ++ ": " ++ e.text)
          let (facts, issues) ← loadFilesFrom tree root limit facts files
          return (facts, ⟨path, e.text⟩ :: issues)
        | .ok extraction => do
          (extractionLines root path extraction).forM Traced.debug
          let (facts, issues) ← loadFilesFrom tree root limit
            (facts ++ [FileFacts.ofExtraction root path extraction]) files
          return (facts, declarationIssues path extraction ++ issues) := by
  rfl

theorem loadedFrom_cons (facts : List FileFacts) (file : String) (files : List String) :
    loadedFrom tree root limit facts (file :: files) =
      if facts.any fun f => samePath f.path (wholePath root file) then
        loadedFrom tree root limit facts files
      else
        match Extraction.ofFile tree limit (wholePath root file) with
        | .error _ => loadedFrom tree root limit facts files
        | .ok e =>
          loadedFrom tree root limit (facts ++ [.ofExtraction root (wholePath root file) e]) files := by
  unfold loadedFrom
  rw [loadFilesFrom_cons]
  by_cases known : (facts.any fun f => samePath f.path (wholePath root file)) = true
  · simp only [known, if_true]
  · simp only [known, Bool.false_eq_true, if_false]
    generalize Extraction.ofFile tree limit (wholePath root file) = extracted
    cases extracted with
    | error e => rfl
    | ok e => rfl

/-- Facts that are known before stay as they are, in front. -/
theorem mem_loadedFrom_of_mem {facts : List FileFacts} (files : List String) {f : FileFacts}
    (member : f ∈ facts) : f ∈ loadedFrom tree root limit facts files := by
  induction files generalizing facts with
  | nil => rwa [loadedFrom_nil]
  | cons file files inductionHypothesis =>
    rw [loadedFrom_cons]
    split
    · exact inductionHypothesis member
    · split
      · exact inductionHypothesis member
      · exact inductionHypothesis (List.mem_append_left _ member)

theorem mem_loadedFrom {facts : List FileFacts} {files : List String} {f : FileFacts}
    (member : f ∈ loadedFrom tree root limit facts files) :
    f ∈ facts ∨ IsLoaded tree root limit files f := by
  induction files generalizing facts with
  | nil => exact .inl (by rwa [loadedFrom_nil] at member)
  | cons file files inductionHypothesis =>
    rw [loadedFrom_cons] at member
    split at member
    · exact (inductionHypothesis member).imp_right fun later => later.cons file
    · split at member
      · exact (inductionHypothesis member).imp_right fun later => later.cons file
      · rename_i e extracted
        rcases inductionHypothesis member with known | later
        · rcases List.mem_append.mp known with known | new
          · exact .inl known
          · exact .inr ⟨file, List.mem_cons_self, e, extracted, List.mem_singleton.mp new⟩
        · exact .inr (later.cons file)

/-- Nothing is lost when the second spelling of a file is passed over. -/
theorem mem_loadedFrom_of_isLoaded {facts : List FileFacts} {files all : List String}
    (known : ∀ f ∈ facts, IsLoaded tree root limit all f) (listed : ∀ file ∈ files, file ∈ all)
    {f : FileFacts} (loaded : IsLoaded tree root limit files f) :
    f ∈ loadedFrom tree root limit facts files := by
  induction files generalizing facts with
  | nil =>
    obtain ⟨file, member, -⟩ := loaded
    cases member
  | cons file files inductionHypothesis =>
    have restListed : ∀ other ∈ files, other ∈ all :=
      fun other member => listed other (List.mem_cons_of_mem file member)
    obtain ⟨chosen, member, e, extracted, rfl⟩ := loaded
    -- The chosen file is the next one or a later one, and the next one may be seen, refused or new.
    rw [loadedFrom_cons]
    split
    · rename_i seen
      rcases List.mem_cons.mp member with rfl | member
      · obtain ⟨g, inFacts, same⟩ := List.any_eq_true.mp seen
        obtain rfl := (known g inFacts).eq_of_samePath ⟨chosen, member, e, extracted, rfl⟩ same
        exact mem_loadedFrom_of_mem tree root limit files inFacts
      · exact inductionHypothesis known restListed ⟨chosen, member, e, extracted, rfl⟩
    · split
      · rename_i error failed
        rcases List.mem_cons.mp member with rfl | member
        · rw [extracted] at failed
          cases failed
        · exact inductionHypothesis known restListed ⟨chosen, member, e, extracted, rfl⟩
      · rename_i e' extracted'
        rcases List.mem_cons.mp member with rfl | member
        · rw [extracted, Except.ok.injEq] at extracted'
          subst extracted'
          exact mem_loadedFrom_of_mem tree root limit files (by simp)
        · refine inductionHypothesis ?_ restListed ⟨chosen, member, e, extracted, rfl⟩
          intro g inFacts
          rcases List.mem_append.mp inFacts with inFacts | new
          · exact known g inFacts
          · exact ⟨file, listed file List.mem_cons_self, e', extracted', List.mem_singleton.mp new⟩

theorem loadedFrom_apart {facts : List FileFacts}
    (apart : facts.Pairwise fun f g => samePath f.path g.path = false) (files : List String) :
    (loadedFrom tree root limit facts files).Pairwise fun f g => samePath f.path g.path = false := by
  induction files generalizing facts with
  | nil => rwa [loadedFrom_nil]
  | cons file files inductionHypothesis =>
    rw [loadedFrom_cons]
    split
    · exact inductionHypothesis apart
    · rename_i unseen
      split
      · exact inductionHypothesis apart
      · rename_i e _
        apply inductionHypothesis
        refine List.pairwise_append.mpr ⟨apart, List.pairwise_singleton _ _, ?_⟩
        intro f inFacts g new
        obtain rfl := List.mem_singleton.mp new
        rw [Bool.not_eq_true, List.any_eq_false] at unseen
        exact Bool.eq_false_iff.mpr (unseen f inFacts)

end

/-- A file is loaded if and only if it is listed and can be read. -/
theorem mem_loadedFacts_iff (tree : FileTree) (root : String) (limit : Nat) (files : List String)
    (f : FileFacts) :
    f ∈ loadedFacts tree root limit files ↔ IsLoaded tree root limit files f := by
  constructor
  · intro member
    exact (mem_loadedFrom tree root limit member).resolve_left List.not_mem_nil
  · exact mem_loadedFrom_of_isLoaded tree root limit (by simp) fun _ listed => listed

/-- No file is loaded twice. -/
theorem loadedFacts_apart (tree : FileTree) (root : String) (limit : Nat) (files : List String) :
    (loadedFacts tree root limit files).Pairwise fun f g => samePath f.path g.path = false :=
  loadedFrom_apart tree root limit .nil files

end CallAtlas
