import CallAtlas.Graph.Store
import CallAtlas.Proofs.InstantRoundTrip
import CallAtlas.Proofs.JsonRoundTrip

/-!
# Snapshots are read back as they were written

Each record is read back from the value that it is written as, and that value is plain JSON, so that the
text of a snapshot gives back the snapshot (`ofJson?_fileText`).  Numbers have to fit a machine word;
texts may hold any characters, and the time may be any instant.
-/

namespace CallAtlas

open Json (Plain wordLimit)

/-- All numbers in the snapshot fit a machine word. -/
structure Snapshot.FitsWords (s : Snapshot) : Prop where
  lines : ∀ n ∈ s.nodes, n.lineStart < wordLimit ∧ n.lineEnd < wordLimit
  orders : ∀ e ∈ s.edges, ∀ n ∈ e.order, n < wordLimit

instance (s : Snapshot) : Decidable s.FitsWords :=
  decidable_of_iff
    ((∀ n ∈ s.nodes, n.lineStart < wordLimit ∧ n.lineEnd < wordLimit) ∧
      ∀ e ∈ s.edges, ∀ n ∈ e.order, n < wordLimit)
    ⟨fun h => ⟨h.1, h.2⟩, fun h => ⟨h.lines, h.orders⟩⟩

/-! ## Records -/

theorem UnitKind.ofText?_text (kind : UnitKind) : UnitKind.ofText? kind.text = some kind := by
  cases kind <;> rfl

theorem EdgeKind.ofText?_text (kind : EdgeKind) : EdgeKind.ofText? kind.text = some kind := by
  cases kind <;> rfl

theorem Json.word?_natural {n : Nat} (fits : n < wordLimit) : (Json.natural n).word? = some n := by
  simp only [Json.natural, Json.word?]
  rw [if_pos (by omega), Int.toNat_natCast]

theorem EntryPoint.ofJson?_toJson (e : EntryPoint) : EntryPoint.ofJson? e.toJson = some e := by
  cases e with
  | httpRoute method route => rfl
  | eventHandler event => rfl
  | backgroundTask taskId => rfl

theorem optionally?_map {α : Type} {read : Json → Option α} {write : α → Json} {value : Option α}
    (readable : ∀ a ∈ value, read (write a) = some a) (notNull : ∀ a ∈ value, write a ≠ .null) :
    Json.optionally? read (value.map write) = some value := by
  cases value with
  | none => rfl
  | some a =>
    have read := readable a rfl
    have present := notNull a rfl
    rw [Option.map_some, Json.optionally?.eq_def]
    split
    · contradiction
    · rename_i same
      exact absurd (Option.some.inj same) present
    · rename_i same
      obtain rfl := Option.some.inj same
      rw [read, Option.map_some]

/-- A member that is left out and a member that is there are both found as they are. -/
theorem Node.fields?_toJson (n : Node) :
    Json.fields? ["id", "name", "kind", "filePath", "isAsync", "contentHash", "lineStart", "lineEnd",
        "entryPoint"] n.toJson =
      some [some (.string n.id), some (.string n.name), some (.string n.kind.text),
        some (.string n.filePath), some (.bool n.isAsync), some (.string n.contentHash),
        some (.natural n.lineStart), some (.natural n.lineEnd),
        n.entryPoint.map EntryPoint.toJson] := by
  unfold Node.toJson
  cases n.entryPoint <;> rfl

/-- The values of the fields are variables here: if they were the written ones, checking the proof would
    compare a number with the bound of a word digit by digit. -/
theorem Node.ofJson?_of_fields {v id name kind filePath isAsync contentHash lineStart lineEnd : Json}
    {entryPoint : Option Json} {n : Node}
    (fields : Json.fields? ["id", "name", "kind", "filePath", "isAsync", "contentHash", "lineStart",
        "lineEnd", "entryPoint"] v =
      some [some id, some name, some kind, some filePath, some isAsync, some contentHash,
        some lineStart, some lineEnd, entryPoint])
    (texts : id.string? = some n.id ∧ name.string? = some n.name ∧ filePath.string? = some n.filePath ∧
      contentHash.string? = some n.contentHash)
    (kinds : kind.constant?.bind UnitKind.ofText? = some n.kind) (async : isAsync.bool? = some n.isAsync)
    (lines : lineStart.word? = some n.lineStart ∧ lineEnd.word? = some n.lineEnd)
    (entry : Json.optionally? EntryPoint.ofJson? entryPoint = some n.entryPoint) :
    Node.ofJson? v = some n := by
  simp only [Node.ofJson?, fields, Option.bind_eq_bind, Option.bind_some, texts, kinds, async, lines,
    entry]
  rfl

theorem Node.ofJson?_toJson {n : Node} (start : n.lineStart < wordLimit) (last : n.lineEnd < wordLimit) :
    Node.ofJson? n.toJson = some n := by
  refine Node.ofJson?_of_fields n.fields?_toJson ⟨rfl, rfl, rfl, rfl⟩ n.kind.ofText?_text rfl
    ⟨Json.word?_natural start, Json.word?_natural last⟩ ?_
  refine optionally?_map (fun e _ => e.ofJson?_toJson) fun e _ => ?_
  cases e <;> exact nofun

theorem Edge.fields?_toJson (e : Edge) :
    Json.fields? ["id", "source", "target", "kind", "label", "isAsync", "order"] e.toJson =
      some [some (.string e.id), some (.string e.source), some (.string e.target),
        some (.string e.kind.text), e.label.map .string, some (.bool e.isAsync),
        e.order.map .natural] := by
  unfold Edge.toJson
  cases e.label <;> cases e.order <;> rfl

theorem Edge.ofJson?_toJson {e : Edge} (fits : ∀ n ∈ e.order, n < wordLimit) :
    Edge.ofJson? e.toJson = some e := by
  have label : Json.optionally? Json.string? (e.label.map .string) = some e.label :=
    optionally?_map (fun _ _ => rfl) fun _ _ => nofun
  have order : Json.optionally? Json.word? (e.order.map .natural) = some e.order :=
    optionally?_map (fun n given => Json.word?_natural (fits n given)) fun _ _ => nofun
  simp only [Edge.ofJson?, Edge.fields?_toJson, Option.bind_eq_bind, Option.bind_some, Json.string?,
    Json.constant?, Json.bool?, EdgeKind.ofText?_text, label, order]
  rfl

theorem listOf?_map {α : Type} {read : Json → Option α} {write : α → Json} {list : List α}
    (readable : ∀ a ∈ list, read (write a) = some a) :
    Json.listOf? read (.array (list.map write)) = some list := by
  simp only [Json.listOf?, Json.items?, Option.bind_some]
  induction list with
  | nil => rfl
  | cons a list inductionHypothesis =>
    have later := inductionHypothesis fun b member => readable b (List.mem_cons_of_mem a member)
    simp only [List.map_cons, List.mapM_cons, readable a List.mem_cons_self, later, Option.bind_eq_bind,
      Option.bind_some]
    rfl

theorem Snapshot.ofJson?_toJson {s : Snapshot} (fits : s.FitsWords) :
    Snapshot.ofJson? s.toJson = some s := by
  have fields : Json.fields? ["version", "generatedAt", "nodes", "edges"] s.toJson =
      some [some (.string s.version), some (.string s.generatedAt.text),
        some (.array (s.nodes.map Node.toJson)), some (.array (s.edges.map Edge.toJson))] := rfl
  have nodes : Json.listOf? Node.ofJson? (.array (s.nodes.map Node.toJson)) = some s.nodes :=
    listOf?_map fun n member => Node.ofJson?_toJson (fits.lines n member).1 (fits.lines n member).2
  have edges : Json.listOf? Edge.ofJson? (.array (s.edges.map Edge.toJson)) = some s.edges :=
    listOf?_map fun e member => Edge.ofJson?_toJson (fits.orders e member)
  simp only [Snapshot.ofJson?, fields, Option.bind_eq_bind, Option.bind_some, Json.string?,
    Instant.parse?_text, nodes, edges]
  rfl

/-! ## Texts -/

theorem plain_natural (depth : Nat) {n : Nat} (fits : n < wordLimit) : Plain (depth + 1) (.natural n) :=
  .integer depth (by unfold Json.minInteger; omega) (by omega)

theorem plain_optionalMember {depth : Nat} {name : String} {value : Option Json}
    (plain : ∀ v ∈ value, Plain depth v) : ∀ m ∈ optionalMember name value, Plain depth m.2 := by
  intro m member
  obtain ⟨v, given, rfl⟩ := Option.map_eq_some_iff.mp (Option.mem_toList.mp member)
  exact plain v given

theorem EntryPoint.plain_toJson (e : EntryPoint) (depth : Nat) : Plain (depth + 2) e.toJson := by
  cases e <;>
  · refine .object ?_
    simp only [List.forall_mem_cons, List.not_mem_nil, false_implies, implies_true, and_true]
    repeat' constructor

theorem Node.plain_toJson {n : Node} (start : n.lineStart < wordLimit) (last : n.lineEnd < wordLimit)
    (depth : Nat) : Plain (depth + 3) n.toJson := by
  refine .object (List.forall_mem_append.mpr ⟨?_, plain_optionalMember ?_⟩)
  · simp only [List.forall_mem_cons, List.not_mem_nil, false_implies, implies_true, and_true]
    exact ⟨.string _ _, .string _ _, .string _ _, .string _ _, .bool _ _, .string _ _,
      plain_natural _ start, plain_natural _ last⟩
  · intro v given
    obtain ⟨e, -, rfl⟩ := Option.map_eq_some_iff.mp given
    exact e.plain_toJson depth

theorem Edge.plain_toJson {e : Edge} (fits : ∀ n ∈ e.order, n < wordLimit) (depth : Nat) :
    Plain (depth + 2) e.toJson := by
  refine .object (List.forall_mem_append.mpr ⟨List.forall_mem_append.mpr
    ⟨List.forall_mem_append.mpr ⟨?_, plain_optionalMember ?_⟩, ?_⟩, plain_optionalMember ?_⟩)
  · simp only [List.forall_mem_cons, List.not_mem_nil, false_implies, implies_true, and_true]
    exact ⟨.string _ _, .string _ _, .string _ _, .string _ _⟩
  · intro v given
    obtain ⟨label, -, rfl⟩ := Option.map_eq_some_iff.mp given
    exact .string depth label
  · simp only [List.forall_mem_cons, List.not_mem_nil, false_implies, implies_true, and_true]
    exact .bool depth e.isAsync
  · intro v given
    obtain ⟨order, numbered, rfl⟩ := Option.map_eq_some_iff.mp given
    exact plain_natural depth (fits order numbered)

theorem Snapshot.plain_toJson {s : Snapshot} (fits : s.FitsWords) (depth : Nat) :
    Plain (depth + 5) s.toJson := by
  refine .object ?_
  simp only [List.forall_mem_cons, List.not_mem_nil, false_implies, implies_true, and_true]
  refine ⟨.string _ _, .string _ _, .array ?_, .array ?_⟩
  · intro v member
    obtain ⟨n, isNode, rfl⟩ := List.mem_map.mp member
    exact Node.plain_toJson (fits.lines n isNode).1 (fits.lines n isNode).2 depth
  · intro v member
    obtain ⟨e, isEdge, rfl⟩ := List.mem_map.mp member
    exact Edge.plain_toJson (fits.orders e isEdge) (depth + 1)

theorem Snapshot.ofJson?_fileText {s : Snapshot} (fits : s.FitsWords) :
    (Json.parse? s.fileText).bind Snapshot.ofJson? = some s := by
  rw [Snapshot.fileText, Json.parse?_pretty (Snapshot.plain_toJson fits 123), Option.bind_some,
    Snapshot.ofJson?_toJson fits]

end CallAtlas
