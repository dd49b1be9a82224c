import CallAtlas.Path.Bytes

/-!
# What is shown for a path

Every sequence of bytes is that of some path (`bytes_spelled`).  A path that is text is shown as it is
(`shown_of_isText`): its bytes are those of its characters, one after the other, and from the bytes of a
character, whatever comes behind them, that character is read (`firstChar?_utf8EncodeChar_append`).
-/

namespace CallAtlas.Path

/-! ## Bytes -/

/-- A byte by itself; one that is not ASCII has a mark in front of it. -/
def spelledByte (b : UInt8) : List Char :=
  if b.toNat < 0x80 then [Char.ofUInt8 b] else [byteMark, Char.ofUInt8 b]

/-- A path for the given bytes. -/
def spelled (bytes : List UInt8) : String := String.ofList (bytes.flatMap spelledByte)

theorem bytesOfChars_cons {c : Char} {cs : List Char}
    (plain : c ≠ byteMark ∨ ∀ d ∈ cs.head?, d.toNat < 0x80) :
    bytesOfChars (c :: cs) = String.utf8EncodeChar c ++ bytesOfChars cs := by
  cases cs with
  | nil => simp [bytesOfChars]
  | cons d cs =>
    have unmarked : ¬ (c = byteMark && 0x80 ≤ d.toNat && d.toNat ≤ 0xff) = true := by
      simp only [Bool.and_eq_true, decide_eq_true_eq, not_and]
      intro marked
      have small := plain.resolve_left (not_not_intro marked.1) d rfl
      omega
    rw [bytesOfChars, if_neg unmarked]

theorem bytesOfChars_mark {d : Char} (low : 0x80 ≤ d.toNat) (high : d.toNat ≤ 0xff) (cs : List Char) :
    bytesOfChars (byteMark :: d :: cs) = UInt8.ofNat d.toNat :: bytesOfChars cs := by
  rw [bytesOfChars, if_pos (by simp [low, high])]

theorem bytesOfChars_of_free {cs : List Char} (free : byteMark ∉ cs) :
    bytesOfChars cs = cs.flatMap String.utf8EncodeChar := by
  induction cs with
  | nil => rfl
  | cons c cs inductionHypothesis =>
    rw [List.mem_cons, not_or] at free
    rw [bytesOfChars_cons (.inl (Ne.symm free.1)), inductionHypothesis free.2, List.flatMap_cons]

theorem toNat_ofUInt8 (b : UInt8) : (Char.ofUInt8 b).toNat = b.toNat := UInt8.toNat_toUInt32 b

theorem head?_flatMap_spelledByte (bytes : List UInt8) :
    ∀ c ∈ (bytes.flatMap spelledByte).head?, c.toNat < 0x80 := by
  cases bytes with
  | nil => simp
  | cons b bytes =>
    rw [List.flatMap_cons, spelledByte]
    split
    · rename_i ascii
      simpa [toNat_ofUInt8] using ascii
    · simp [byteMark]

theorem utf8EncodeChar_ofUInt8 {b : UInt8} (ascii : b.toNat < 0x80) :
    String.utf8EncodeChar (Char.ofUInt8 b) = [b] := by
  have number : (Char.ofUInt8 b).val.toNat = b.toNat := toNat_ofUInt8 b
  rw [String.utf8EncodeChar, number, if_pos (by omega), UInt8.ofNat_toNat]

theorem bytes_spelled (bytes : List UInt8) : Path.bytes (spelled bytes) = bytes := by
  rw [Path.bytes, spelled, String.toList_ofList]
  induction bytes with
  | nil => rfl
  | cons b bytes inductionHypothesis =>
    rw [List.flatMap_cons, spelledByte]
    split
    · rename_i ascii
      -- What comes next is a character of ASCII or a mark, so the byte is not taken for one.
      rw [List.cons_append, List.nil_append, bytesOfChars_cons (.inr (head?_flatMap_spelledByte bytes)),
        utf8EncodeChar_ofUInt8 ascii, inductionHypothesis]
      rfl
    · rename_i high
      have number := toNat_ofUInt8 b
      have small := b.toNat_lt
      rw [List.cons_append, List.cons_append, List.nil_append,
        bytesOfChars_mark (by omega) (by omega), inductionHypothesis, number, UInt8.ofNat_toNat]

/-! ## Characters -/

theorem firstChar?_utf8EncodeChar_append (c : Char) (rest : List UInt8) :
    firstChar? (String.utf8EncodeChar c ++ rest) = some c := by
  have short : (String.utf8EncodeChar c).length ≤ 4 := by
    rw [String.length_utf8EncodeChar]
    exact c.utf8Size_le_four
  rw [firstChar?, List.take_append, List.take_of_length_le short, List.toByteArray_append]
  exact ByteArray.utf8DecodeChar?_utf8EncodeChar_append

theorem charsBehind_length_append (front rest : List UInt8) :
    charsBehind front.length (front ++ rest) = charsBehind 0 rest := by
  induction front with
  | nil => rfl
  | cons b front inductionHypothesis => exact inductionHypothesis

theorem charsBehind_utf8EncodeChar_append (c : Char) (rest : List UInt8) :
    charsBehind 0 (String.utf8EncodeChar c ++ rest) = c :: charsBehind 0 rest := by
  have first := firstChar?_utf8EncodeChar_append c rest
  have size := String.length_utf8EncodeChar c
  have positive := c.utf8Size_pos
  cases encoded : String.utf8EncodeChar c with
  | nil => simp [encoded] at size; omega
  | cons b more =>
    rw [encoded] at first size
    rw [List.cons_append] at first ⊢
    have skipped : c.utf8Size - 1 = more.length := by rw [← size]; rfl
    rw [charsBehind, first]
    dsimp only
    rw [skipped, charsBehind_length_append]

theorem charsBehind_flatMap (cs : List Char) :
    charsBehind 0 (cs.flatMap String.utf8EncodeChar) = cs := by
  induction cs with
  | nil => rfl
  | cons c cs inductionHypothesis =>
    rw [List.flatMap_cons, charsBehind_utf8EncodeChar_append, inductionHypothesis]

theorem isText_iff (path : String) : isText path = true ↔ byteMark ∉ path.toList := by
  simp [isText]

theorem shown_of_isText {path : String} (text : isText path = true) : shown path = path := by
  rw [shown, bytes, bytesOfChars_of_free ((isText_iff path).mp text), charsBehind_flatMap,
    String.ofList_toList]

end CallAtlas.Path
