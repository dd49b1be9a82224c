import CallAtlas.Command.Run
import CallAtlas.Proofs.Declarations
import CallAtlas.Proofs.SourceFiles
import Mathlib.Data.List.Forall2

/-!
# What a check reports

The state of a node is said here without reference to how it is found: by what stands at the path that
was recorded for the node, and by the last unit of its name (`HasStatus`).  There is one state that a node
can have, and `nodeStatus` finds it (`nodeStatus_eq_iff`).  A report puts every node into one of three
lists, in the order of the nodes and each with its own record, and sums up what is in the lists
(`checkNodes_exact`).
-/

namespace CallAtlas

/-! ## The state of a node -/

/-- The state of a node whose file lies at `path`: there is no file, or it is no source, or it has no unit
    of that name, or the last unit of that name has the recorded digest, or it has another one. -/
inductive HasStatus (tree : FileTree) (limit : Nat) (path : String) (n : Node) : NodeStatus → Prop where
  | fileNotFound : (∀ e, tree.entry? path = .ok e → e = .directory) →
      HasStatus tree limit path n (.stale "" .fileNotFound)
  | failed {e : Entry} {cause : ParseCause} : tree.entry? path = .ok e →
      Refused limit path e cause → HasStatus tree limit path n (.failed (.parse path cause))
  | notFound {bytes : ByteArray} {source : ParsedSource} : tree.entry? path = .ok (.file bytes) →
      ReadsAs limit path bytes source → (∀ u ∈ source.units, u.name ≠ n.name) →
      HasStatus tree limit path n (.stale "" .notFound)
  | current {bytes : ByteArray} {source : ParsedSource} {u : CodeUnit} :
      tree.entry? path = .ok (.file bytes) → ReadsAs limit path bytes source →
      IsLastNamed n.name source.units u → u.hash = n.contentHash → HasStatus tree limit path n .current
  | changed {bytes : ByteArray} {source : ParsedSource} {u : CodeUnit} :
      tree.entry? path = .ok (.file bytes) → ReadsAs limit path bytes source →
      IsLastNamed n.name source.units u → u.hash ≠ n.contentHash →
      HasStatus tree limit path n (.stale u.hash .changed)

/-- Where the file of a node is looked for. -/
def Node.foundAt (tree : FileTree) (root : String) (config : Config) (n : Node) : String :=
  recordedPath tree root config.resolution.rootPrefixes n.filePath

/-- What is found about a node is a state that it has. -/
theorem hasStatus_nodeStatus (tree : FileTree) (root : String) (config : Config) (n : Node) :
    HasStatus tree config.parsing.maxFileSize (n.foundAt tree root config) n
      (nodeStatus tree root config n) := by
  unfold nodeStatus Node.foundAt
  dsimp only
  generalize recordedPath tree root config.resolution.rootPrefixes n.filePath = path
  cases isFile : tree.isFile path with
  | false => exact .fileNotFound ((isFile_eq_false_iff tree path).mp isFile)
  | true =>
    obtain ⟨e, found, noDirectory⟩ := (isFile_eq_true_iff tree path).mp isFile
    simp only [Bool.not_true, Bool.false_eq_true, if_false]
    rcases ofFile_of_entry found noDirectory config.parsing.maxFileSize with
      ⟨bytes, source, rfl, parsed, reads⟩ | ⟨cause, parsed, refused⟩
    · simp only [unitOfFile, unitsOfFile, parsed]
      cases asked : unitNamed n.name source.units with
      | none => exact .notFound found reads ((unitNamed_eq_none_iff _ _).mp asked)
      | some u =>
        have last := (unitNamed_eq_some_iff _ _ _).mp asked
        dsimp only
        split
        · rename_i same
          exact .current found reads last (by simpa using same)
        · rename_i differs
          exact .changed found reads last (by simpa using differs)
    · simp only [unitOfFile, unitsOfFile, parsed]
      exact .failed found refused

/-- The state that a node has is found. -/
theorem HasStatus.nodeStatus_eq {tree : FileTree} {root : String} {config : Config} {n : Node}
    {status : NodeStatus}
    (has : HasStatus tree config.parsing.maxFileSize (n.foundAt tree root config) n status) :
    nodeStatus tree root config n = status := by
  unfold Node.foundAt at has
  unfold nodeStatus
  dsimp only
  generalize recordedPath tree root config.resolution.rootPrefixes n.filePath = path at has ⊢
  cases has with
  | fileNotFound noFile =>
    rw [(isFile_eq_false_iff tree path).mpr noFile]
    rfl
  | failed file refused =>
    rw [(isFile_eq_true_iff tree path).mpr ⟨_, file, refused.ne_directory⟩]
    simp only [unitOfFile, unitsOfFile, refused.ofFile_eq file]
    rfl
  | notFound file reads absent =>
    rw [(isFile_eq_true_iff tree path).mpr ⟨_, file, by simp⟩]
    simp only [unitOfFile, unitsOfFile, reads.ofFile_eq file, (unitNamed_eq_none_iff _ _).mpr absent]
    rfl
  | current file reads last same =>
    rw [(isFile_eq_true_iff tree path).mpr ⟨_, file, by simp⟩]
    simp only [unitOfFile, unitsOfFile, reads.ofFile_eq file, (unitNamed_eq_some_iff _ _ _).mpr last]
    simp [same]
  | changed file reads last differs =>
    rw [(isFile_eq_true_iff tree path).mpr ⟨_, file, by simp⟩]
    simp only [unitOfFile, unitsOfFile, reads.ofFile_eq file, (unitNamed_eq_some_iff _ _ _).mpr last]
    simp [differs]

theorem nodeStatus_eq_iff (tree : FileTree) (root : String) (config : Config) (n : Node)
    (status : NodeStatus) :
    nodeStatus tree root config n = status ↔
      HasStatus tree config.parsing.maxFileSize (n.foundAt tree root config) n status := by
  constructor
  · rintro rfl
    exact hasStatus_nodeStatus tree root config n
  · exact HasStatus.nodeStatus_eq

/-! ## Reports -/

/-- The node is up to date. -/
@[simp] def NodeStatus.isCurrent : NodeStatus → Bool
  | .current => true
  | _ => false

/-- The node is stale, for whatever reason. -/
@[simp] def NodeStatus.isStale : NodeStatus → Bool
  | .stale _ _ => true
  | _ => false

/-- The node could not be checked. -/
@[simp] def NodeStatus.isFailed : NodeStatus → Bool
  | .failed _ => true
  | _ => false

/-- The nodes are put into the three lists of a report, each into one and in their order. -/
structure StalenessReport.Partitions (r : StalenessReport) (status : Node → NodeStatus)
    (nodes : List Node) : Prop where
  total : r.total = nodes.length
  upToDate : r.upToDate = (nodes.filter fun n => (status n).isCurrent).map (·.id)
  stale : List.Forall₂ (fun n record => ∃ newHash reason, status n = .stale newHash reason ∧
      record = ⟨n.id, n.name ++ " " ++ reason.text,
        [⟨n.filePath, n.name, n.contentHash, newHash, reason⟩]⟩)
    (nodes.filter fun n => (status n).isStale) r.stale
  errors : List.Forall₂ (fun n error => ∃ e, status n = .failed e ∧ error = ⟨some n.id, e.text⟩)
    (nodes.filter fun n => (status n).isFailed) r.errors
  eachOnce : ((nodes.filter fun n => (status n).isCurrent) ++
    (nodes.filter fun n => (status n).isStale) ++
    nodes.filter fun n => (status n).isFailed).Perm nodes

/-- The outcome of a report tells how many nodes are in which state. -/
structure StalenessReport.SumsUp (r : StalenessReport) (status : Node → NodeStatus)
    (nodes : List Node) : Prop where
  nothingToCheck : r.outcome = .nothingToCheck ↔ nodes = []
  allCurrent : r.outcome = .allCurrent ↔ nodes ≠ [] ∧ ∀ n ∈ nodes, status n = .current
  stale : ∀ count, r.outcome = .stale count ↔
    (∀ n ∈ nodes, ∀ e, status n ≠ .failed e) ∧
      count = nodes.countP (fun n => (status n).isStale) ∧ 0 < count
  incomplete : ∀ stale errors, r.outcome = .incomplete stale errors ↔
    stale = nodes.countP (fun n => (status n).isStale) ∧
      errors = nodes.countP (fun n => (status n).isFailed) ∧ 0 < errors

section

variable {status : Node → NodeStatus} {nodes : List Node} {r : StalenessReport}

/-- The report with one more node in front. -/
def StalenessReport.add (r : StalenessReport) (n : Node) : NodeStatus → StalenessReport
  | .current => { r with total := r.total + 1, upToDate := n.id :: r.upToDate }
  | .stale newHash reason =>
    { r with total := r.total + 1, stale := staleRecord n newHash reason :: r.stale }
  | .failed e => { r with total := r.total + 1, errors := ⟨some n.id, e.text⟩ :: r.errors }

theorem ofStatuses_cons (n : Node) (s : NodeStatus) (rest : List (Node × NodeStatus)) :
    StalenessReport.ofStatuses ((n, s) :: rest) = (StalenessReport.ofStatuses rest).add n s := by
  cases s <;> rfl

/-- One more node adds to one of the lists, and leaves the others as they are. -/
theorem StalenessReport.Partitions.add (parts : r.Partitions status nodes) (n : Node) :
    (r.add n (status n)).Partitions status (n :: nodes) := by
  obtain ⟨total, upToDate, stale, errors, eachOnce⟩ := parts
  have oneMore : r.total + 1 = (n :: nodes).length := by rw [total, List.length_cons]
  cases now : status n with
  | current =>
    refine ⟨oneMore, ?_, ?_, ?_, ?_⟩
    · simp [now, StalenessReport.add, upToDate]
    · simpa [now, StalenessReport.add] using stale
    · simpa [now, StalenessReport.add] using errors
    · simpa [now] using eachOnce
  | stale newHash reason =>
    refine ⟨oneMore, ?_, ?_, ?_, ?_⟩
    · simpa [now, StalenessReport.add] using upToDate
    · rw [List.filter_cons_of_pos (by simp [now])]
      exact .cons ⟨newHash, reason, now, rfl⟩ stale
    · simpa [now, StalenessReport.add] using errors
    · -- The node stands between those that are up to date and the others that are stale.
      simp only [now, NodeStatus.isCurrent, NodeStatus.isStale, NodeStatus.isFailed, List.filter_cons,
        Bool.false_eq_true, if_false, if_true, List.append_assoc, List.cons_append] at eachOnce ⊢
      exact List.perm_middle.trans (eachOnce.cons n)
  | failed e =>
    refine ⟨oneMore, ?_, ?_, ?_, ?_⟩
    · simpa [now, StalenessReport.add] using upToDate
    · simpa [now, StalenessReport.add] using stale
    · rw [List.filter_cons_of_pos (by simp [now])]
      exact .cons ⟨e, now, rfl⟩ errors
    · simp only [now, NodeStatus.isCurrent, NodeStatus.isStale, NodeStatus.isFailed, List.filter_cons,
        Bool.false_eq_true, if_false, if_true]
      exact List.perm_middle.trans (eachOnce.cons n)

theorem partitions_ofStatuses (status : Node → NodeStatus) (nodes : List Node) :
    (StalenessReport.ofStatuses (nodes.map fun n => (n, status n))).Partitions status nodes := by
  induction nodes with
  | nil => exact ⟨rfl, rfl, .nil, .nil, .nil⟩
  | cons n nodes inductionHypothesis =>
    rw [List.map_cons, ofStatuses_cons]
    exact inductionHypothesis.add n

theorem all_current_iff (status : Node → NodeStatus) (nodes : List Node) :
    (∀ n ∈ nodes, status n = .current) ↔
      nodes.countP (fun n => (status n).isStale) = 0 ∧
        nodes.countP (fun n => (status n).isFailed) = 0 := by
  rw [List.countP_eq_zero, List.countP_eq_zero]
  constructor
  · intro current
    exact ⟨fun n member => by simp [current n member], fun n member => by simp [current n member]⟩
  · rintro ⟨notStale, notFailed⟩ n member
    have notStale := notStale n member
    have notFailed := notFailed n member
    cases now : status n with
    | current => rfl
    | stale newHash reason => simp [now] at notStale
    | failed e => simp [now] at notFailed

/-- The outcome, from the numbers of nodes in the states. -/
theorem StalenessReport.Partitions.outcome_eq (parts : r.Partitions status nodes) :
    r.outcome =
      if nodes.length = 0 then .nothingToCheck
      else if 0 < nodes.countP (fun n => (status n).isFailed) then
        .incomplete (nodes.countP fun n => (status n).isStale)
          (nodes.countP fun n => (status n).isFailed)
      else if nodes.countP (fun n => (status n).isStale) = 0 then .allCurrent
      else .stale (nodes.countP fun n => (status n).isStale) := by
  have stale := parts.stale.length_eq
  have errors := parts.errors.length_eq
  rw [← List.countP_eq_length_filter] at stale errors
  have someFailed : (!r.errors.isEmpty) = true ↔ 0 < r.errors.length := by
    rw [List.length_pos_iff]
    simp
  have noneStale : r.stale.isEmpty = true ↔ r.stale.length = 0 := by simp
  rw [stale, errors, ← parts.total, outcome]
  simp only [someFailed, noneStale]

theorem StalenessReport.Partitions.sumsUp (parts : r.Partitions status nodes) :
    r.SumsUp status nodes := by
  have noneFailed : (∀ n ∈ nodes, ∀ e, status n ≠ .failed e) ↔
      nodes.countP (fun n => (status n).isFailed) = 0 := by
    rw [List.countP_eq_zero]
    refine forall₂_congr fun n _ => ?_
    cases status n <;> simp
  have empty : nodes.length = 0 → nodes.countP (fun n => (status n).isStale) = 0 ∧
      nodes.countP (fun n => (status n).isFailed) = 0 := by
    intro none
    simp [List.length_eq_zero_iff.mp none]
  have nonempty : nodes ≠ [] ↔ nodes.length ≠ 0 := by simp
  have outcome := parts.outcome_eq
  have current := all_current_iff status nodes
  -- What is left is about the three numbers that the outcome is made from.
  constructor
  · rw [outcome, ← List.length_eq_zero_iff]
    grind
  · rw [outcome, current, nonempty]
    grind
  · intro count
    rw [outcome, noneFailed]
    grind
  · intro stale errors
    rw [outcome]
    grind

theorem StalenessReport.SumsUp.isAlarming_iff (sums : r.SumsUp status nodes) :
    Command.Project.isAlarming r.outcome = true ↔ ∃ n ∈ nodes, status n ≠ .current := by
  have quiet : Command.Project.isAlarming r.outcome = false ↔
      r.outcome = .nothingToCheck ∨ r.outcome = .allCurrent := by
    cases r.outcome <;> simp [Command.Project.isAlarming]
  have allCurrent : (nodes = [] ∨ nodes ≠ [] ∧ ∀ n ∈ nodes, status n = .current) ↔
      ∀ n ∈ nodes, status n = .current := by
    cases nodes <;> simp
  rw [sums.nothingToCheck, sums.allCurrent, allCurrent] at quiet
  rw [← Bool.not_eq_false, quiet]
  simp

end

/-- A node cannot be checked if and only if its file can give no units. -/
theorem nodeStatus_failed_iff (tree : FileTree) (root : String) (config : Config) (n : Node) :
    (∃ e, nodeStatus tree root config n = .failed e) ↔
      tree.isFile (n.foundAt tree root config) = true ∧
        ∃ e, unitsOfFile tree config.parsing.maxFileSize (n.foundAt tree root config) = .error e := by
  constructor
  · rintro ⟨e, status⟩
    cases (nodeStatus_eq_iff ..).mp status with
    | failed file refused =>
      exact ⟨(isFile_eq_true_iff ..).mpr ⟨_, file, refused.ne_directory⟩, _,
        by rw [unitsOfFile, refused.ofFile_eq file]⟩
  · rintro ⟨isFile, e, rejected⟩
    obtain ⟨entry, found, noDirectory⟩ := (isFile_eq_true_iff ..).mp isFile
    rcases ofFile_of_entry found noDirectory config.parsing.maxFileSize with
      ⟨_, _, -, parsed, -⟩ | ⟨cause, -, refused⟩
    · rw [unitsOfFile, parsed] at rejected
      cases rejected
    · exact ⟨_, (HasStatus.failed found refused).nodeStatus_eq⟩

theorem check_failure {p : Command.Project} {snapshot : Option String} {s : Snapshot}
    (loaded : Snapshot.load p.tree (p.snapshotPath snapshot) = .ok s) (failOnStale : Bool) :
    (p.check snapshot failOnStale).failure =
      if failOnStale && Command.Project.isAlarming (checkNodes p.tree p.root p.config s.nodes).outcome
      then some .staleUnits else none := by
  unfold Command.Project.check checkFile
  rw [loaded]
  rfl

/-- The report of a check says of every node, in one place, the state that it has; its outcome sums that
    up; and the command fails on demand if some node is not up to date. -/
theorem checkNodes_exact (p : Command.Project) (nodes : List Node) :
    let status := nodeStatus p.tree p.root p.config
    let report := checkNodes p.tree p.root p.config nodes
    (∀ n s, status n = s ↔
      HasStatus p.tree p.config.parsing.maxFileSize (n.foundAt p.tree p.root p.config) n s) ∧
    (∀ n, (∃ e, status n = .failed e) ↔
      p.tree.isFile (n.foundAt p.tree p.root p.config) = true ∧
        ∃ e, unitsOfFile p.tree p.config.parsing.maxFileSize (n.foundAt p.tree p.root p.config) =
          .error e) ∧
    report.Partitions status nodes ∧
    report.SumsUp status nodes ∧
    ∀ snapshot failOnStale s, Snapshot.load p.tree (p.snapshotPath snapshot) = .ok s →
      s.nodes = nodes →
      ((p.check snapshot failOnStale).failure = some .staleUnits ↔
        failOnStale = true ∧ ∃ n ∈ nodes, status n ≠ .current) ∧
      ((p.check snapshot failOnStale).failure = none ↔
        (failOnStale = true → ∀ n ∈ nodes, status n = .current)) := by
  intro status report
  have parts : report.Partitions status nodes := partitions_ofStatuses status nodes
  refine ⟨nodeStatus_eq_iff _ _ _, nodeStatus_failed_iff _ _ _, parts, parts.sumsUp, ?_⟩
  rintro snapshot failOnStale s loaded rfl
  have alarming := parts.sumsUp.isAlarming_iff
  rw [check_failure loaded failOnStale]
  constructor
  · rw [← alarming]
    simp [report]
  · have quiet : (∀ n ∈ s.nodes, status n = .current) ↔
        ¬ Command.Project.isAlarming report.outcome = true := by
      rw [alarming]
      simp
    rw [quiet]
    simp [report]

end CallAtlas
