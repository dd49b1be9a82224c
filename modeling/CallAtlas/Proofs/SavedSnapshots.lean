import CallAtlas.Proofs.RecordedPaths
import CallAtlas.Proofs.SnapshotRoundTrip

/-!
# Saved snapshots can be loaded

What is saved is loaded again as it was (`load_of_save`), and saving works wherever the tree has room: at a
path in normal form on whose way there are only directories, and at whose end there is no directory and no
file that refuses to be written (`Snapshot.save_of_admits`).  The directories that are missing on the way
are made first.
-/

namespace CallAtlas

open CallAtlas.Path

namespace FileTree

/-- What stands on the way to the location is a directory, and what stands at its end can be written. -/
structure Admits (tree : FileTree) (l : Location) : Prop where
  way : ∀ n < l.length, ∀ e, tree.entryAt (l.take n) = some e → e = .directory
  place : ∀ e, tree.entryAt l = some e → ∃ old, e = .file old

/-! ## Directories on the way -/

theorem followCreating_of_free {tree : FileTree} {l : Location} {piece : String} (isLast : Bool)
    (isPiece : IsPiece piece) (plain : piece ≠ "..")
    (free : ∀ e, tree.entryAt (l ++ [piece]) = some e → e = .directory) :
    ∃ after, followCreating isLast (tree, l) piece = .ok (after, l ++ [piece]) ∧
      ∀ place, after.entryAt place =
        if place = l ++ [piece] then some .directory else tree.entryAt place := by
  simp only [followCreating, isPiece.nonempty, isPiece.notPoint, plain, decide_false, Bool.or_self,
    Bool.false_eq_true, if_false]
  cases present : tree.entryAt (l ++ [piece]) with
  | none => exact ⟨_, rfl, entryAt_insert tree (by simp) .directory⟩
  | some e =>
    obtain rfl := free e present
    refine ⟨tree, rfl, fun place => ?_⟩
    split
    · rename_i here
      rw [here, present]
    · rfl

theorem follow_of_directories {tree : FileTree} {l : Location} {piece : String} (isPiece : IsPiece piece)
    (plain : piece ≠ "..") (here : tree.entryAt l = some .directory)
    (there : tree.entryAt (l ++ [piece]) = some .directory) :
    tree.follow l piece = .ok (l ++ [piece]) := by
  simp [follow, here, there, isPiece.nonempty, isPiece.notPoint, plain]

/-- Where only directories are in the way, those that are missing are made, and nothing below them changes. -/
theorem followAllCreating_of_free {names : List String} {tree : FileTree} {l : Location}
    (arePieces : ∀ t ∈ names, IsPiece t) (plain : ".." ∉ names)
    (start : tree.entryAt l = some .directory)
    (free : ∀ n ≤ names.length, ∀ e, tree.entryAt (l ++ names.take n) = some e → e = .directory) :
    ∃ after, followAllCreating (tree, l) names = .ok after ∧
      names.foldlM after.follow l = .ok (l ++ names) ∧
      after.entryAt (l ++ names) = some .directory ∧
      ∀ place, l.length + names.length < place.length → after.entryAt place = tree.entryAt place := by
  induction names generalizing tree l with
  | nil => exact ⟨tree, rfl, by simp [pure, Except.pure], by simpa using start, fun _ _ => rfl⟩
  | cons piece names inductionHypothesis =>
    have firstPiece := arePieces piece List.mem_cons_self
    have firstPlain : piece ≠ ".." := fun points => plain (points ▸ List.mem_cons_self)
    obtain ⟨next, followed, entries⟩ := followCreating_of_free
      (names.all fun p => p = "" || p = ".") firstPiece firstPlain
      (free 1 (by simp))
    have there : next.entryAt (l ++ [piece]) = some .directory := by
      rw [entries, if_pos rfl]
    have here : next.entryAt l = some .directory := by
      rw [entries, if_neg (by simp), start]
    have nextFree : ∀ n ≤ names.length, ∀ e,
        next.entryAt (l ++ [piece] ++ names.take n) = some e → e = .directory := by
      intro n inside e
      rw [entries]
      split
      · simp [eq_comm]
      · simpa using free (n + 1) (by simpa using inside) e
    obtain ⟨after, made, reached, last, below⟩ := inductionHypothesis
      (fun t member => arePieces t (List.mem_cons_of_mem piece member))
      (fun member => plain (List.mem_cons_of_mem piece member)) there nextFree
    -- What the first step has made is still there after the others.
    have keeps := followAllCreating_keeps made
    have step := follow_of_directories firstPiece firstPlain (keeps _ _ here) (keeps _ _ there)
    refine ⟨after, ?_, ?_, by simpa using last, fun place deep => ?_⟩
    · rw [followAllCreating, followed]
      exact made
    · rw [List.foldlM_cons, step]
      change List.foldlM after.follow (l ++ [piece]) names = _
      simpa using reached
    · have deeper : place ≠ l ++ [piece] := by
        rintro rfl
        simp at deep
      rw [below place (by simpa [Nat.add_assoc, Nat.add_comm 1] using deep), entries, if_neg deeper]

theorem createDirectories_rooted {names : List String} {tree : FileTree}
    (arePieces : ∀ t ∈ names, IsPiece t) (plain : ".." ∉ names)
    (free : ∀ n ≤ names.length, ∀ e, tree.entryAt (names.take n) = some e → e = .directory) :
    ∃ after, tree.createDirectories (rooted names) = .ok after ∧
      names.foldlM after.follow [] = .ok names ∧ after.entryAt names = some .directory ∧
      ∀ place, names.length < place.length → after.entryAt place = tree.entryAt place := by
  cases names with
  | nil => exact ⟨tree, rfl, rfl, rfl, fun _ _ => rfl⟩
  | cons first rest =>
    have top : tree.entryAt [] = some .directory := rfl
    obtain ⟨after, made, reached, last, below⟩ :=
      followAllCreating_of_free arePieces plain top (by simpa using free)
    refine ⟨after, ?_, by simpa using reached, by simpa using last, by simpa using below⟩
    rw [createDirectories, pieces_rooted arePieces (List.cons_ne_nil first rest)]
    exact made

end FileTree

theorem parent?_rooted {front : List String} {last : String}
    (arePieces : ∀ t ∈ front ++ [last], IsPiece t) :
    Path.parent? (rooted (front ++ [last])) = some (rooted front) := by
  have parts : components (rooted (front ++ [last])) =
      .root :: (front.map Component.ofText ++ [Component.ofText last]) := by
    rw [components_rooted arePieces, List.map_append, List.map_singleton]
  have above : (Component.root :: (front.map Component.ofText ++ [Component.ofText last])).dropLast =
      .root :: front.map Component.ofText := by
    rw [← List.cons_append, List.dropLast_concat]
  unfold Path.parent?
  rw [parts]
  split
  · contradiction
  · rename_i onlyRoot
    simp at onlyRoot
  · rw [above]
    simp [ofComponents, rooted, Function.comp_def]

theorem makeParent_rooted (tree : FileTree) {front : List String} {last : String}
    (arePieces : ∀ t ∈ front ++ [last], IsPiece t) :
    makeParent tree (rooted (front ++ [last])) = tree.createDirectories (rooted front) := by
  have inside : (rooted front).isEmpty = false := by simp [rooted]
  rw [makeParent, parent?_rooted arePieces]
  simp only [inside, Bool.false_eq_true, if_false]

theorem FileTree.write_rooted {tree : FileTree} {front : List String} {last : String} (bytes : ByteArray)
    (arePieces : ∀ t ∈ front ++ [last], IsPiece t) (plain : last ≠ "..")
    (reached : front.foldlM tree.follow [] = .ok front)
    (directory : tree.entryAt front = some .directory)
    (writable : ∀ e, tree.entryAt (front ++ [last]) = some e → ∃ old, e = .file old) :
    ∃ after, tree.write (rooted (front ++ [last])) bytes = .ok after := by
  have lastPiece := arePieces last (by simp)
  have cut := pieces_rooted arePieces (by simp)
  have stays : ("" :: front).foldlM tree.follow [] = .ok front := reached
  have names : "" :: (front ++ [last]) = ("" :: front) ++ [last] := rfl
  refine ⟨tree.insert (front ++ [last]) (.file bytes), ?_⟩
  rw [write, cut, names, List.dropLast_concat, List.getLast?_concat]
  simp only [stays, directory, lastPiece.nonempty, lastPiece.notPoint, plain, decide_false, Bool.or_self,
    Bool.false_eq_true, if_false]
  cases present : tree.entryAt (front ++ [last]) with
  | none => rfl
  | some e =>
    obtain ⟨old, rfl⟩ := writable e present
    rfl

/-! ## Saving and loading -/

/-- A snapshot can be saved wherever the tree has room for a file. -/
theorem Snapshot.save_of_admits (s : Snapshot) {tree : FileTree} {names : List String}
    (nonempty : names ≠ []) (arePieces : ∀ t ∈ names, IsPiece t) (plain : ".." ∉ names)
    (room : tree.Admits names) : ∃ after, s.save tree (rooted names) = .ok after := by
  obtain ⟨front, last, rfl⟩ := (List.eq_nil_or_concat names).resolve_left nonempty
  rw [List.concat_eq_append] at *
  have frontPieces : ∀ t ∈ front, IsPiece t := fun t member => arePieces t (by simp [member])
  have frontPlain : ".." ∉ front := fun member => plain (by simp [member])
  have free : ∀ n ≤ front.length, ∀ e, tree.entryAt (front.take n) = some e → e = .directory := by
    intro n inside e
    have onWay := room.way n (by simp; omega) e
    rwa [List.take_append_of_le_length inside] at onWay
  obtain ⟨between, made, reached, directory, below⟩ :=
    FileTree.createDirectories_rooted frontPieces frontPlain free
  have writable : ∀ e, between.entryAt (front ++ [last]) = some e → ∃ old, e = .file old := by
    rw [below _ (by simp)]
    exact room.place
  obtain ⟨after, wrote⟩ := FileTree.write_rooted s.fileText.toUTF8 arePieces
    (fun points => plain (by simp [points])) reached directory writable
  refine ⟨after, ?_⟩
  rw [Snapshot.save, makeParent_rooted tree arePieces, made]
  simp only [wrote]

theorem load_of_save {s : Snapshot} {tree after : FileTree} {path : String} (fits : s.FitsWords)
    (saved : s.save tree path = .ok after) : Snapshot.load after path = .ok s := by
  obtain ⟨_, -, -, read⟩ := Snapshot.save_spec saved
  have present := FileTree.contains_of_isFile (FileTree.isFile_of_readText read)
  rw [Snapshot.load, present, if_pos rfl, read]
  dsimp only
  rw [Snapshot.ofJson?_fileText fits]

/-- A snapshot whose numbers fit machine words is loaded from the file that it was saved to exactly as it
    was, whatever is in its texts and whenever it was made; and it can be saved wherever there is room. -/
theorem Snapshot.load_save (s : Snapshot) (fits : s.FitsWords) :
    (∀ tree after path, s.save tree path = .ok after → Snapshot.load after path = .ok s) ∧
    ∀ (tree : FileTree) (names : List String), names ≠ [] → (∀ t ∈ names, IsPiece t) → ".." ∉ names →
      tree.Admits names →
        ∃ after, s.save tree (rooted names) = .ok after ∧ Snapshot.load after (rooted names) = .ok s := by
  refine ⟨fun tree after path saved => load_of_save fits saved, ?_⟩
  intro tree names nonempty arePieces plain room
  obtain ⟨after, saved⟩ := s.save_of_admits nonempty arePieces plain room
  exact ⟨after, saved, load_of_save fits saved⟩

/-- A snapshot with characters that have to be escaped, the greatest numbers, and a second that was added
    to its minute. -/
def unusualSnapshot : Snapshot :=
  { version := "\\\"\x00"
    generatedAt := ⟨⟨9999, 12, 31, rfl⟩, 86399, 1999999999, rfl⟩
    nodes :=
      [{ id := "é😀:\n", name := "\n", kind := .callableConstant, filePath := "é😀", isAsync := true
         contentHash := "", lineStart := 0, lineEnd := 0xffffffffffffffff
         entryPoint := some (.httpRoute "ANY" "/\x1f\x7f") }]
    edges :=
      [{ id := "->", source := "", target := "", kind := .conditionalCall, label := some "\t/ && \u2028"
         isAsync := false, order := some 0xffffffffffffffff },
       { id := "->", source := "", target := "", kind := .eventEmit, label := none, isAsync := true
         order := none }] }

theorem Snapshot.load_save_unusual :
    unusualSnapshot.FitsWords ∧ ∃ after, unusualSnapshot.save .empty (rooted ["out", "g.json"]) = .ok after ∧
      Snapshot.load after (rooted ["out", "g.json"]) = .ok unusualSnapshot := by
  have fits : unusualSnapshot.FitsWords := by decide
  refine ⟨fits, (Snapshot.load_save unusualSnapshot fits).2 .empty ["out", "g.json"] (by simp) ?_ (by simp) ?_⟩
  · intro t member
    simp only [List.mem_cons, List.not_mem_nil, or_false] at member
    rcases member with rfl | rfl <;> exact ⟨by decide, by decide, by decide⟩
  · refine ⟨fun n _ e => ?_, fun e present => by cases present⟩
    unfold FileTree.entryAt
    split <;> simp [FileTree.empty, eq_comm]

end CallAtlas
