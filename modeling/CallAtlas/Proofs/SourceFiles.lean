import CallAtlas.Proofs.FileWrites

/-!
# Files that hold a source

A path under which units are found leads to a file (`exists_locate`).  A file is a source or is refused, and
which of the two is said here by what stands at the path and by the path alone (`ReadsAs`, `Refused`).
Reading follows that to the letter (`ofFile_of_bytes`, `ofFile_of_entry`).
-/

namespace CallAtlas

open Syntax

/-! ## Paths that can be read -/

theorem extraction_ofFile_eq_ok {tree : FileTree} {limit : Nat} {path : String} {e : Extraction}
    (read : Extraction.ofFile tree limit path = .ok e) :
    ∃ source, ParsedSource.ofFile tree limit path = .ok source ∧ e = .ofSource source := by
  unfold Extraction.ofFile at read
  split at read
  · cases read
  · rename_i source parsed
    cases read
    exact ⟨source, parsed, rfl⟩

theorem parsedSource_ofFile_text {tree : FileTree} {limit : Nat} {path : String} {source : ParsedSource}
    (parsed : ParsedSource.ofFile tree limit path = .ok source) :
    ∃ text, tree.readText path = .ok text := by
  unfold ParsedSource.ofFile at parsed
  split at parsed
  · cases parsed
  · rename_i text read
    exact ⟨text, read⟩

theorem parsedSource_ofFile_congr {tree after : FileTree} {path : String}
    (same : after.readText path = tree.readText path) (limit : Nat) :
    ParsedSource.ofFile after limit path = ParsedSource.ofFile tree limit path := by
  unfold ParsedSource.ofFile
  rw [same]

theorem exists_locate {tree : FileTree} {limit : Nat} {path : String} {e : Extraction}
    (read : Extraction.ofFile tree limit path = .ok e) : ∃ l, tree.locate path = .ok l := by
  obtain ⟨source, parsed, -⟩ := extraction_ofFile_eq_ok read
  obtain ⟨text, textRead⟩ := parsedSource_ofFile_text parsed
  rw [FileTree.readText_eq_ok_iff, FileTree.read_eq_ok_iff, FileTree.entry?_eq_ok_iff] at textRead
  obtain ⟨l, found, -⟩ := textRead
  exact ⟨l, found⟩

theorem isFile_eq_true_iff (tree : FileTree) (path : String) :
    tree.isFile path = true ↔ ∃ e, tree.entry? path = .ok e ∧ e ≠ .directory := by
  unfold FileTree.isFile
  cases tree.entry? path with
  | error failure => simp
  | ok e => cases e <;> simp

theorem isFile_eq_false_iff (tree : FileTree) (path : String) :
    tree.isFile path = false ↔ ∀ e, tree.entry? path = .ok e → e = .directory := by
  rw [← Bool.not_eq_true, isFile_eq_true_iff]
  simp

/-! ## Sources and other files -/

/-- The file at a path is no source, for the first of these reasons that applies. -/
inductive Refused (limit : Nat) (path : String) : Entry → ParseCause → Prop where
  | locked : Refused limit path .locked (.unreadable FileError.permissionDenied.text)
  | notText {bytes : ByteArray} : (∀ text : String, text.toUTF8 ≠ bytes) →
      Refused limit path (.file bytes) (.unreadable FileError.notText.text)
  | tooLarge {bytes : ByteArray} {text : String} : text.toUTF8 = bytes → limit < bytes.size →
      Refused limit path (.file bytes) .tooLarge
  | unsupported {bytes : ByteArray} {text : String} : text.toUTF8 = bytes → bytes.size ≤ limit →
      dialectOf? path = none → Refused limit path (.file bytes) .unsupported

/-- The bytes at a path are the text of a source. -/
structure ReadsAs (limit : Nat) (path : String) (bytes : ByteArray) (source : ParsedSource) : Prop where
  samePath : source.path = path
  sameBytes : source.text.toUTF8 = bytes
  fits : bytes.size ≤ limit
  parsed : ∃ dialect, dialectOf? path = some dialect ∧ source.root = Tree.ofText dialect source.text

section

variable {tree : FileTree} {limit : Nat} {path : String} {bytes : ByteArray}

theorem toUTF8_injective {a b : String} (same : a.toUTF8 = b.toUTF8) : a = b := by
  have decoded := FileTree.fromUTF8?_toUTF8 a
  rw [same, FileTree.fromUTF8?_toUTF8] at decoded
  exact (Option.some.inj decoded).symm

theorem ReadsAs.unique {s t : ParsedSource} (first : ReadsAs limit path bytes s)
    (second : ReadsAs limit path bytes t) : s = t := by
  obtain ⟨sDialect, sKnown, sRoot⟩ := first.parsed
  obtain ⟨tDialect, tKnown, tRoot⟩ := second.parsed
  have dialects : sDialect = tDialect := Option.some.inj (sKnown.symm.trans tKnown)
  have texts := toUTF8_injective (first.sameBytes.trans second.sameBytes.symm)
  have paths := first.samePath.trans second.samePath.symm
  have roots : s.root = t.root := by rw [sRoot, tRoot, texts, dialects]
  cases s
  cases t
  rw [ParsedSource.mk.injEq]
  exact ⟨paths, texts, roots⟩

theorem Refused.unique {e : Entry} {c d : ParseCause} (first : Refused limit path e c)
    (second : Refused limit path e d) : c = d := by
  cases first with
  | locked =>
    cases second with
    | locked => rfl
  | notText noText =>
    cases second with
    | notText => rfl
    | tooLarge isText | unsupported isText => exact absurd isText (noText _)
  | tooLarge isText large =>
    cases second with
    | notText noText => exact absurd isText (noText _)
    | tooLarge => rfl
    | unsupported _ fits => omega
  | unsupported isText fits =>
    cases second with
    | notText noText => exact absurd isText (noText _)
    | tooLarge _ large => omega
    | unsupported => rfl

theorem ReadsAs.not_refused {source : ParsedSource} {c : ParseCause}
    (reads : ReadsAs limit path bytes source) : ¬ Refused limit path (.file bytes) c := by
  intro refused
  obtain ⟨dialect, known, -⟩ := reads.parsed
  cases refused with
  | notText noText => exact noText _ reads.sameBytes
  | tooLarge _ large => exact absurd reads.fits (by omega)
  | unsupported _ _ unknown => simp [known] at unknown

theorem ofText_readsAs (limit : Nat) (path text : String) :
    (∃ source, ParsedSource.ofText limit path text = .ok source ∧
        ReadsAs limit path text.toUTF8 source) ∨
      ∃ cause, ParsedSource.ofText limit path text = .error cause ∧
        Refused limit path (.file text.toUTF8) cause := by
  have size : text.toUTF8.size = text.utf8ByteSize := rfl
  unfold ParsedSource.ofText
  split
  · rename_i large
    exact .inr ⟨_, rfl, .tooLarge rfl (size ▸ large)⟩
  · rename_i fits
    have fits : text.toUTF8.size ≤ limit := by omega
    split
    · rename_i unknown
      exact .inr ⟨_, rfl, .unsupported rfl fits unknown⟩
    · rename_i dialect known
      exact .inl ⟨_, rfl, ⟨rfl, rfl, fits, dialect, known, rfl⟩⟩

theorem ofFile_of_read_error {error : FileError} (read : tree.read path = .error error) (limit : Nat) :
    ParsedSource.ofFile tree limit path = .error (.parse path (.unreadable error.text)) := by
  simp [ParsedSource.ofFile, FileTree.readText, read]

/-- The bytes of a file are read as a source, or refused. -/
theorem ofFile_of_bytes (file : tree.entry? path = .ok (.file bytes)) (limit : Nat) :
    (∃ source, ParsedSource.ofFile tree limit path = .ok source ∧ ReadsAs limit path bytes source) ∨
      ∃ cause, ParsedSource.ofFile tree limit path = .error (.parse path cause) ∧
        Refused limit path (.file bytes) cause := by
  have read := (tree.read_eq_ok_iff path bytes).mpr file
  unfold ParsedSource.ofFile FileTree.readText
  rw [read]
  dsimp only
  cases decoded : String.fromUTF8? bytes with
  | none =>
    refine .inr ⟨_, rfl, .notText ?_⟩
    rintro text rfl
    rw [FileTree.fromUTF8?_toUTF8] at decoded
    cases decoded
  | some text =>
    obtain rfl := FileTree.toUTF8_of_fromUTF8? decoded
    rcases ofText_readsAs limit path text with ⟨source, parsed, reads⟩ | ⟨cause, parsed, refused⟩
    · exact .inl ⟨source, by simp [parsed], reads⟩
    · exact .inr ⟨cause, by simp [parsed], refused⟩

/-- What is no directory is read as a source, or refused. -/
theorem ofFile_of_entry {e : Entry} (found : tree.entry? path = .ok e) (noDirectory : e ≠ .directory)
    (limit : Nat) :
    (∃ bytes source, e = .file bytes ∧ ParsedSource.ofFile tree limit path = .ok source ∧
        ReadsAs limit path bytes source) ∨
      ∃ cause, ParsedSource.ofFile tree limit path = .error (.parse path cause) ∧
        Refused limit path e cause := by
  cases e with
  | directory => contradiction
  | locked =>
    have read : tree.read path = .error .permissionDenied := by rw [FileTree.read, found]
    exact .inr ⟨_, ofFile_of_read_error read limit, .locked⟩
  | file bytes =>
    rcases ofFile_of_bytes found limit with ⟨source, parsed, reads⟩ | refused
    · exact .inl ⟨bytes, source, rfl, parsed, reads⟩
    · exact .inr refused

theorem ReadsAs.ofFile_eq {source : ParsedSource} (reads : ReadsAs limit path bytes source)
    (file : tree.entry? path = .ok (.file bytes)) :
    ParsedSource.ofFile tree limit path = .ok source := by
  rcases ofFile_of_bytes file limit with ⟨found, parsed, again⟩ | ⟨_, -, refused⟩
  · rw [parsed, reads.unique again]
  · exact absurd refused reads.not_refused

theorem Refused.ne_directory {e : Entry} {cause : ParseCause} (refused : Refused limit path e cause) :
    e ≠ .directory := by
  rintro rfl
  cases refused

theorem Refused.ofFile_eq {e : Entry} {cause : ParseCause} (refused : Refused limit path e cause)
    (found : tree.entry? path = .ok e) :
    ParsedSource.ofFile tree limit path = .error (.parse path cause) := by
  rcases ofFile_of_entry found refused.ne_directory limit with
    ⟨bytes, source, rfl, -, reads⟩ | ⟨cause, parsed, again⟩
  · exact absurd refused reads.not_refused
  · rw [parsed, refused.unique again]

end

end CallAtlas
