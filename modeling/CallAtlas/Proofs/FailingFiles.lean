import CallAtlas.Proofs.FileOrder
import CallAtlas.Proofs.SourceFiles

/-!
# Files that cannot be read

A listed file that cannot be read is passed over.  The graph is the one over the other files, whatever
these import from it, and one issue is added, behind the issues of the files listed before and in front
of those of the files listed behind (`build_contained`).

Reading goes through the list from left to right and carries only the facts it has so far, so the list
can be cut anywhere (`loadedFrom_append`, `issuesFrom_append`).  A file that cannot be read is never
taken for one that is known already, since all known files could be read (`not_known_of_error`).
-/

namespace CallAtlas

/-! ## Why a file cannot be read -/

/-- There is no source under a path, for this reason: the path leads nowhere or to a directory, or the
    file that it leads to is refused. -/
inductive NoSource (tree : FileTree) (limit : Nat) (path : String) : ParseCause → Prop where
  | unreachable {error : FileError} : tree.entry? path = .error error →
      NoSource tree limit path (.unreadable error.text)
  | directory : tree.entry? path = .ok .directory →
      NoSource tree limit path (.unreadable FileError.isDirectory.text)
  | refused {e : Entry} {cause : ParseCause} : tree.entry? path = .ok e →
      Refused limit path e cause → NoSource tree limit path cause

theorem noSource_of_ofFile_eq_error {tree : FileTree} {limit : Nat} {path : String} {failure : Failure}
    (fails : Extraction.ofFile tree limit path = .error failure) :
    ∃ cause, failure = .parse path cause ∧ NoSource tree limit path cause := by
  have parsing : ParsedSource.ofFile tree limit path = .error failure := by
    unfold Extraction.ofFile at fails
    split at fails
    · rename_i e parsed
      rw [parsed, Except.error.inj fails]
    · cases fails
  cases reached : tree.entry? path with
  | error e =>
    have read : tree.read path = .error e := by simp [FileTree.read, reached]
    rw [ofFile_of_read_error read] at parsing
    exact ⟨_, (Except.error.inj parsing).symm, .unreachable reached⟩
  | ok entry =>
    by_cases isDirectory : entry = .directory
    · subst isDirectory
      have read : tree.read path = .error .isDirectory := by simp [FileTree.read, reached]
      rw [ofFile_of_read_error read] at parsing
      exact ⟨_, (Except.error.inj parsing).symm, .directory reached⟩
    · rcases ofFile_of_entry reached isDirectory limit with ⟨_, _, -, parsed, -⟩ | ⟨cause, parsed, refused⟩
      · rw [parsed] at parsing
        cases parsing
      · rw [parsed] at parsing
        exact ⟨_, (Except.error.inj parsing).symm, .refused reached refused⟩

/-! ## Cutting the list of files -/

section

variable (tree : FileTree) (root : String) (limit : Nat)

theorem loadedFrom_append (facts : List FileFacts) (before after : List String) :
    loadedFrom tree root limit facts (before ++ after) =
      loadedFrom tree root limit (loadedFrom tree root limit facts before) after := by
  induction before generalizing facts with
  | nil => rfl
  | cons file before inductionHypothesis =>
    rw [List.cons_append, loadedFrom_cons, loadedFrom_cons]
    split
    · exact inductionHypothesis facts
    · split
      · exact inductionHypothesis facts
      · exact inductionHypothesis _

theorem issuesFrom_append (facts : List FileFacts) (before after : List String) :
    issuesFrom tree root limit facts (before ++ after) =
      issuesFrom tree root limit facts before ++
        issuesFrom tree root limit (loadedFrom tree root limit facts before) after := by
  induction before generalizing facts with
  | nil => rfl
  | cons file before inductionHypothesis =>
    rw [List.cons_append, issuesFrom_cons, issuesFrom_cons, loadedFrom_cons]
    split
    · exact inductionHypothesis facts
    · cases Extraction.ofFile tree limit (wholePath root file) with
      | error failure => simp only [inductionHypothesis, List.cons_append]
      | ok e => simp only [inductionHypothesis, List.append_assoc]

/-! ## Passing over a file -/

variable {tree root limit} {file : String} {failure : Failure}
  (fails : Extraction.ofFile tree limit (wholePath root file) = .error failure)

include fails

/-- All files that are known could be read, under whatever spelling. -/
theorem not_known_of_error {files : List String} {facts : List FileFacts}
    (known : ∀ f ∈ facts, IsLoaded tree root limit files f) :
    (facts.any fun f => samePath f.path (wholePath root file)) = false := by
  rw [List.any_eq_false]
  intro f member same
  obtain ⟨other, -, e, read, rfl⟩ := known f member
  have paths : wholePath root other = wholePath root file := Path.normalize_ext (by
    simpa [samePath, FileFacts.ofExtraction, wholePath] using same)
  rw [paths, fails] at read
  cases read

theorem loadedFrom_cons_of_error (facts : List FileFacts) (files : List String) :
    loadedFrom tree root limit facts (file :: files) = loadedFrom tree root limit facts files := by
  rw [loadedFrom_cons, fails]
  split <;> rfl

theorem issuesFrom_cons_of_error {facts : List FileFacts} {all : List String}
    (known : ∀ f ∈ facts, IsLoaded tree root limit all f) (files : List String) :
    issuesFrom tree root limit facts (file :: files) =
      ⟨wholePath root file, failure.text⟩ :: issuesFrom tree root limit facts files := by
  rw [issuesFrom_cons, not_known_of_error fails known, fails]
  rfl

end

section

variable (tree : FileTree) (root : String) (config : Config) (cache : AliasCache)

theorem build_issues (files : List String) :
    (build tree root config cache files).value.issues =
      issuesFrom tree root config.parsing.maxFileSize [] files := by
  rfl

/-- The graph is a function of the facts that are loaded. -/
theorem build_graph_congr {files others : List String}
    (same : builtFacts tree root config files = builtFacts tree root config others) :
    (build tree root config cache files).value.nodes = (build tree root config cache others).value.nodes ∧
      (build tree root config cache files).value.edges =
        (build tree root config cache others).value.edges := by
  refine ⟨?_, ?_⟩
  · rw [build_nodes, build_nodes, same]
  · rw [build_edges, build_edges, builtScope, builtScope, same]

/-- A listed file that cannot be read leaves nodes and edges as they are without it, and adds one issue
    at its place in the list, with the reason. -/
theorem build_contained (before after : List String) {file : String} {failure : Failure}
    (fails : Extraction.ofFile tree config.parsing.maxFileSize (wholePath root file) = .error failure) :
    let whole := (build tree root config cache (before ++ file :: after)).value
    let others := (build tree root config cache (before ++ after)).value
    whole.nodes = others.nodes ∧ whole.edges = others.edges ∧
    ∃ cause later, NoSource tree config.parsing.maxFileSize (wholePath root file) cause ∧
      others.issues = (build tree root config cache before).value.issues ++ later ∧
      whole.issues = (build tree root config cache before).value.issues ++
        ⟨wholePath root file,
          "Failed to parse " ++ Path.shown (wholePath root file) ++ ": " ++ cause.text⟩ :: later := by
  intro whole others
  have sameFacts : builtFacts tree root config (before ++ file :: after) =
      builtFacts tree root config (before ++ after) := by
    unfold builtFacts loadedFacts
    rw [loadedFrom_append, loadedFrom_append, loadedFrom_cons_of_error fails]
  obtain ⟨sameNodes, sameEdges⟩ := build_graph_congr tree root config cache sameFacts
  refine ⟨sameNodes, sameEdges, ?_⟩
  obtain ⟨cause, rfl, reason⟩ := noSource_of_ofFile_eq_error fails
  have known : ∀ f ∈ loadedFrom tree root config.parsing.maxFileSize [] before,
      IsLoaded tree root config.parsing.maxFileSize before f :=
    fun f => (mem_loadedFacts_iff tree root config.parsing.maxFileSize before f).mp
  simp only [whole, others, build_issues]
  refine ⟨cause, _, reason, issuesFrom_append tree root config.parsing.maxFileSize [] before after, ?_⟩
  rw [issuesFrom_append, issuesFrom_cons_of_error fails known]
  rfl

end

/-- Two files, and between them one that is no text.  The first imports from both others. -/
def interruptedTree : FileTree :=
  ⟨[(["p"], .directory),
    (["p", "a.ts"],
      .file "import\x7bg\x7dfrom'./b';import\x7bg\x7dfrom'./c';function f()\x7bg()\x7d".toUTF8),
    (["p", "b.ts"], .file ⟨#[0xff]⟩),
    (["p", "c.ts"], .file "function g()\x7b\x7d".toUTF8)]⟩

/-- The call still reaches the file behind the one that is no text. -/
theorem build_contained_interrupted :
    let whole := (build interruptedTree "/p" Config.standard .empty (["a.ts"] ++ "b.ts" :: ["c.ts"])).value
    let others := (build interruptedTree "/p" Config.standard .empty (["a.ts"] ++ ["c.ts"])).value
    (∃ failure, Extraction.ofFile interruptedTree Config.standard.parsing.maxFileSize
        (wholePath "/p" "b.ts") = .error failure) ∧
    whole.edges.map (·.id) = ["a.ts:f->c.ts:g"] ∧
    whole.nodes = others.nodes ∧ whole.edges = others.edges ∧
    ∃ cause later, NoSource interruptedTree Config.standard.parsing.maxFileSize (wholePath "/p" "b.ts") cause ∧
      others.issues = (build interruptedTree "/p" Config.standard .empty ["a.ts"]).value.issues ++ later ∧
      whole.issues = (build interruptedTree "/p" Config.standard .empty ["a.ts"]).value.issues ++
        ⟨wholePath "/p" "b.ts",
          "Failed to parse " ++ Path.shown (wholePath "/p" "b.ts") ++ ": " ++ cause.text⟩ :: later := by
  intro whole others
  have fails : Extraction.ofFile interruptedTree Config.standard.parsing.maxFileSize
      (wholePath "/p" "b.ts") =
        .error (.parse "/p/b.ts" (.unreadable FileError.notText.text)) := by
    decide +kernel
  refine ⟨⟨_, fails⟩, by decide +kernel, ?_⟩
  exact build_contained interruptedTree "/p" Config.standard .empty ["a.ts"] ["c.ts"] fails

end CallAtlas
