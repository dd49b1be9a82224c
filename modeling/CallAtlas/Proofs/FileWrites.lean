import CallAtlas.Graph.Store

/-!
# What saving a snapshot does to a tree of files

Saving makes directories where there is nothing, and writes one file.  All other entries stay, so that
every path that led somewhere leads to the same place afterwards (`KeepsBut.locate`), and every other
file has the text that it had (`KeepsBut.readText`).
-/

namespace CallAtlas

namespace FileTree

/-- Every entry stays as it is, but for the bytes of the file at `written`. -/
def KeepsBut (written : Location) (before after : FileTree) : Prop :=
  ∀ l e, before.entryAt l = some e → after.entryAt l = some e ∨
    (l = written ∧ (∃ old, e = .file old) ∧ ∃ new, after.entryAt l = some (.file new))

/-- Every entry stays as it is. -/
def Keeps (before after : FileTree) : Prop :=
  ∀ l e, before.entryAt l = some e → after.entryAt l = some e

theorem Keeps.refl (tree : FileTree) : tree.Keeps tree :=
  fun _ _ present => present

theorem Keeps.trans {before between after : FileTree} (first : before.Keeps between)
    (second : between.Keeps after) : before.Keeps after :=
  fun l e present => second l e (first l e present)

theorem entryAt_insert (tree : FileTree) {l : Location} (inside : l ≠ []) (e : Entry) (place : Location) :
    (tree.insert l e).entryAt place = if place = l then some e else tree.entryAt place := by
  unfold entryAt insert
  by_cases top : place = []
  · subst top
    simp [inside.symm]
  · have notEmpty : place.isEmpty = false := by simpa using top
    simp only [notEmpty, Bool.false_eq_true, ↓reduceIte, List.find?_append]
    by_cases here : place = l
    · subst here
      have gone : (tree.entries.filter (·.1 != place)).find? (·.1 == place) = none := by
        simp [List.find?_eq_none]
      simp [gone]
    · have others : (tree.entries.filter (·.1 != l)).find? (·.1 == place) =
          tree.entries.find? (·.1 == place) := by
        rw [List.find?_filter]
        congr 1
        funext entry
        by_cases atPlace : entry.1 = place <;> simp [atPlace, here]
      simp [others, here, Ne.symm here]

theorem keeps_insert {tree : FileTree} {l : Location} (inside : l ≠ []) (e : Entry)
    (free : tree.entryAt l = none) : tree.Keeps (tree.insert l e) := by
  intro place old present
  have other : place ≠ l := by
    rintro rfl
    rw [free] at present
    cases present
  rw [entryAt_insert tree inside, if_neg other, present]

/-! ## Making directories -/

theorem followCreating_keeps {isLast : Bool} {tree after : FileTree} {l next : Location}
    {piece : String} (followed : followCreating isLast (tree, l) piece = .ok (after, next)) :
    tree.Keeps after := by
  unfold followCreating at followed
  dsimp only at followed
  -- Only where there is nothing yet does the tree change.
  split at followed
  · cases followed
    exact .refl tree
  · split at followed
    · cases followed
      exact .refl tree
    · split at followed
      · cases followed
        exact .refl tree
      · cases followed
      · cases followed
      · rename_i free
        cases followed
        exact keeps_insert (by simp) .directory free

theorem followAllCreating_keeps {names : List String} {tree after : FileTree} {l : Location}
    (made : followAllCreating (tree, l) names = .ok after) : tree.Keeps after := by
  induction names generalizing tree l with
  | nil =>
    cases made
    exact .refl after
  | cons piece names inductionHypothesis =>
    unfold followAllCreating at made
    split at made
    · rename_i state followed
      obtain ⟨between, next⟩ := state
      exact (followCreating_keeps followed).trans (inductionHypothesis made)
    · cases made

theorem makeParent_keeps {tree after : FileTree} {path : String}
    (made : makeParent tree path = .ok after) : tree.Keeps after := by
  unfold makeParent at made
  split at made
  · split at made
    · cases made
      exact .refl tree
    · exact followAllCreating_keeps made
  · cases made
    exact .refl tree

/-! ## Following paths -/

section

variable {written : Location} {before after : FileTree}

theorem KeepsBut.directory (keeps : KeepsBut written before after) {l : Location}
    (present : before.entryAt l = some .directory) : after.entryAt l = some .directory := by
  rcases keeps l .directory present with kept | ⟨-, ⟨old, file⟩, -⟩
  · exact kept
  · cases file

theorem KeepsBut.isSome (keeps : KeepsBut written before after) {l : Location}
    (present : (before.entryAt l).isSome = true) : (after.entryAt l).isSome = true := by
  obtain ⟨e, present⟩ := Option.isSome_iff_exists.mp present
  rcases keeps l e present with kept | ⟨-, -, new, replaced⟩
  · rw [kept]; rfl
  · rw [replaced]; rfl

theorem KeepsBut.follow (keeps : KeepsBut written before after) {l next : Location} {piece : String}
    (followed : before.follow l piece = .ok next) : after.follow l piece = .ok next := by
  unfold FileTree.follow at followed ⊢
  -- A step looks only for a directory here and for something there, and both are kept.
  split at followed
  · cases followed
  · cases followed
  · cases followed
  · rename_i present
    rw [keeps.directory present]
    dsimp only
    split at followed
    · rename_i stays
      rw [if_pos stays]
      exact followed
    · rename_i moves
      rw [if_neg moves]
      split at followed
      · rename_i up
        rw [if_pos up]
        exact followed
      · rename_i down
        rw [if_neg down]
        split at followed
        · rename_i there
          rw [if_pos (keeps.isSome there)]
          exact followed
        · cases followed

theorem KeepsBut.foldlM_follow (keeps : KeepsBut written before after) {names : List String}
    {l last : Location} (followed : names.foldlM before.follow l = .ok last) :
    names.foldlM after.follow l = .ok last := by
  induction names generalizing l with
  | nil => exact followed
  | cons piece names inductionHypothesis =>
    rw [List.foldlM_cons] at followed ⊢
    cases step : before.follow l piece with
    | error e =>
      rw [step] at followed
      cases followed
    | ok next =>
      rw [step] at followed
      rw [keeps.follow step]
      exact inductionHypothesis followed

theorem KeepsBut.locate (keeps : KeepsBut written before after) {path : String} {l : Location}
    (found : before.locate path = .ok l) : after.locate path = .ok l := by
  unfold FileTree.locate at found ⊢
  split at found
  · cases found
  · rename_i nonempty
    rw [if_neg nonempty]
    exact keeps.foldlM_follow found

/-! ## Reading -/

theorem entry?_eq_ok_iff (tree : FileTree) (path : String) (e : Entry) :
    tree.entry? path = .ok e ↔ ∃ l, tree.locate path = .ok l ∧ tree.entryAt l = some e := by
  unfold entry?
  cases tree.locate path with
  | error failure => simp
  | ok l => cases present : tree.entryAt l <;> simp [present]

theorem read_eq_ok_iff (tree : FileTree) (path : String) (bytes : ByteArray) :
    tree.read path = .ok bytes ↔ tree.entry? path = .ok (.file bytes) := by
  unfold read
  cases tree.entry? path with
  | error failure => simp
  | ok e => cases e <;> simp

theorem fromUTF8?_toUTF8 (text : String) : String.fromUTF8? text.toUTF8 = some text := by
  have valid : text.toUTF8.IsValidUTF8 := text.isValidUTF8
  rw [String.fromUTF8?, dif_pos valid]
  rfl

theorem toUTF8_of_fromUTF8? {bytes : ByteArray} {text : String}
    (decoded : String.fromUTF8? bytes = some text) : text.toUTF8 = bytes := by
  unfold String.fromUTF8? at decoded
  split at decoded
  · cases decoded
    rfl
  · cases decoded

theorem readText_eq_ok_iff (tree : FileTree) (path text : String) :
    tree.readText path = .ok text ↔ tree.read path = .ok text.toUTF8 := by
  unfold readText
  cases tree.read path with
  | error failure => simp
  | ok bytes =>
    dsimp only
    constructor
    · intro decoded
      split at decoded
      · rename_i found
        cases decoded
        rw [toUTF8_of_fromUTF8? found]
      · cases decoded
    · intro same
      cases same
      rw [fromUTF8?_toUTF8]

theorem contains_of_isFile {tree : FileTree} {path : String} (file : tree.isFile path = true) :
    tree.contains path = true := by
  unfold isFile at file
  rw [contains]
  cases found : tree.entry? path with
  | error failure =>
    rw [found] at file
    cases file
  | ok e => rfl

theorem isFile_of_readText {tree : FileTree} {path text : String}
    (read : tree.readText path = .ok text) : tree.isFile path = true := by
  rw [readText_eq_ok_iff, read_eq_ok_iff] at read
  rw [isFile, read]

theorem KeepsBut.readText (keeps : KeepsBut written before after) {path text : String}
    (read : before.readText path = .ok text) (other : after.locate path ≠ .ok written) :
    after.readText path = .ok text := by
  rw [readText_eq_ok_iff, read_eq_ok_iff, entry?_eq_ok_iff] at read ⊢
  obtain ⟨l, found, present⟩ := read
  have stillFound := keeps.locate found
  refine ⟨l, stillFound, ?_⟩
  rcases keeps l _ present with kept | ⟨rfl, -⟩
  · exact kept
  · exact absurd stillFound other

end

/-! ## Writing -/

theorem keepsBut_insert {tree : FileTree} {l : Location} (inside : l ≠ []) (bytes : ByteArray)
    (writable : ∀ e, tree.entryAt l = some e → ∃ old, e = .file old) :
    KeepsBut l tree (tree.insert l (.file bytes)) := by
  intro place e old
  rw [entryAt_insert tree inside]
  by_cases here : place = l
  · subst here
    rw [if_pos rfl]
    exact .inr ⟨rfl, writable e old, bytes, rfl⟩
  · rw [if_neg here]
    exact .inl old

/-- A path leads to its last piece, if all pieces before lead to the directory that it is in. -/
theorem locate_of_last {written l : Location} {tree after : FileTree} {path name : String}
    (keeps : KeepsBut written tree after)
    (followed : (Path.pieces path).dropLast.foldlM tree.follow [] = .ok l)
    (directory : tree.entryAt l = some .directory) (last : (Path.pieces path).getLast? = some name)
    (plain : ¬ (name = "" || name = "." || name = "..") = true)
    (present : (after.entryAt (l ++ [name])).isSome = true) :
    after.locate path = .ok (l ++ [name]) := by
  simp only [Bool.or_eq_true, decide_eq_true_eq, not_or] at plain
  have nonempty : path.isEmpty = false := by
    rw [Bool.eq_false_iff]
    intro empty
    obtain rfl := String.isEmpty_iff.mp empty
    exact plain.1.1 (Option.some.inj last).symm
  obtain ⟨front, whole⟩ := List.getLast?_eq_some_iff.mp last
  rw [whole, List.dropLast_concat] at followed
  rw [locate, nonempty, whole, List.foldlM_append, keeps.foldlM_follow followed]
  change List.foldlM after.follow l [name] = _
  simp [follow, keeps.directory directory, plain, present]

theorem write_spec {tree after : FileTree} {path : String} {bytes : ByteArray}
    (wrote : tree.write path bytes = .ok after) :
    ∃ written, KeepsBut written tree after ∧ after.locate path = .ok written ∧
      after.entryAt written = some (.file bytes) := by
  unfold write at wrote
  dsimp only at wrote
  -- One branch writes; all others refuse.
  split at wrote
  · cases wrote
  · rename_i l followed
    split at wrote
    · cases wrote
    · cases wrote
    · cases wrote
    · cases wrote
    · rename_i name directory last
      split at wrote
      · cases wrote
      · rename_i plain
        have inside : l ++ [name] ≠ [] := by simp
        split at wrote
        · cases wrote
        · cases wrote
        · rename_i noDirectory noLock
          cases wrote
          have writable : ∀ e, tree.entryAt (l ++ [name]) = some e → ∃ old, e = .file old := by
            intro e old
            cases e with
            | file content => exact ⟨content, rfl⟩
            | locked => exact absurd old noLock
            | directory => exact absurd old noDirectory
          have present := entryAt_insert tree inside (.file bytes) (l ++ [name])
          rw [if_pos rfl] at present
          have keeps : KeepsBut (l ++ [name]) tree (tree.insert (l ++ [name]) (.file bytes)) :=
            keepsBut_insert inside bytes writable
          exact ⟨l ++ [name], keeps, locate_of_last keeps followed directory last plain
            (by rw [present]; rfl), present⟩

end FileTree

/-- Saving keeps all but the file that it writes, and what it writes is the text of the snapshot. -/
theorem Snapshot.save_spec {s : Snapshot} {tree after : FileTree} {path : String}
    (saved : s.save tree path = .ok after) :
    ∃ written, FileTree.KeepsBut written tree after ∧ after.locate path = .ok written ∧
      after.readText path = .ok s.fileText := by
  unfold Snapshot.save at saved
  split at saved
  · cases saved
  · rename_i between made
    split at saved
    · cases saved
    · rename_i final wrote
      cases saved
      obtain ⟨written, keeps, found, present⟩ := FileTree.write_spec wrote
      refine ⟨written, ?_, found, ?_⟩
      · exact fun l e old => keeps l e (FileTree.makeParent_keeps made l e old)
      · rw [FileTree.readText_eq_ok_iff, FileTree.read_eq_ok_iff, FileTree.entry?_eq_ok_iff]
        exact ⟨written, found, present⟩

end CallAtlas
