import CallAtlas.Proofs.Nodes

/-!
# The order of bytes

Texts are compared by their characters, and this order is that of their bytes in UTF-8: the first byte
of a character grows with the number of bytes, and among characters of one length the bytes are digits
of base 64, the most significant first.  So the ids of the nodes rise in the order of their bytes.
-/

namespace CallAtlas

/-- The bytes of a text. -/
def bytesOf (text : String) : List UInt8 := text.toUTF8.data.toList

theorem bytesOf_eq (text : String) : bytesOf text = text.toList.flatMap String.utf8EncodeChar := by
  have encoded : text.toByteArray = text.toList.utf8Encode := by
    rw [← String.toByteArray_ofList, String.ofList_toList]
  simp [bytesOf, encoded, List.utf8Encode]

theorem div_4096 (n : Nat) : n / 4096 = n / 64 / 64 := by omega

theorem div_262144 (n : Nat) : n / 262144 = n / 64 / 64 / 64 := by omega

theorem utf8EncodeChar_append_lt {c d : Char} (below : c < d) (rest rest' : List UInt8) :
    String.utf8EncodeChar c ++ rest < String.utf8EncodeChar d ++ rest' := by
  have below : c.val.toNat < d.val.toNat := below
  have bound : d.val.toNat < 0x110000 := by
    rcases d.valid with low | ⟨-, high⟩
    · exact Nat.lt_trans low (by decide)
    · exact high
  simp only [String.utf8EncodeChar, div_4096, div_262144]
  generalize c.val.toNat = v at below ⊢
  generalize d.val.toNat = w at below bound ⊢
  -- One case for each pair of lengths: either the first bytes decide, or the digits do.
  repeat' split
  all_goals
    simp only [List.cons_append, List.nil_append, List.cons_lt_cons_iff, UInt8.lt_iff_toNat_lt,
      ← UInt8.toNat_inj, UInt8.toNat_ofNat', Nat.reducePow]
    omega

theorem flatMap_utf8EncodeChar_lt {cs ds : List Char} (below : cs < ds) :
    cs.flatMap String.utf8EncodeChar < ds.flatMap String.utf8EncodeChar := by
  induction below with
  | @nil d ds =>
    rw [List.flatMap_nil, List.flatMap_cons]
    cases bytes : String.utf8EncodeChar d with
    | nil => exact absurd bytes String.utf8EncodeChar_ne_nil
    | cons b bs => exact List.nil_lt_cons b _
  | @rel c cs d ds lower =>
    rw [List.flatMap_cons, List.flatMap_cons]
    exact utf8EncodeChar_append_lt lower _ _
  | @cons c cs ds later inductionHypothesis =>
    rw [List.flatMap_cons, List.flatMap_cons]
    exact List.append_left_lt inductionHypothesis

theorem bytesOf_lt {s t : String} (below : s < t) : bytesOf s < bytesOf t := by
  rw [bytesOf_eq, bytesOf_eq]
  exact flatMap_utf8EncodeChar_lt (String.lt_iff.mp below)

theorem Ascending.bytes {nodes : List Node} (ascending : Ascending nodes) :
    nodes.Pairwise fun a b => bytesOf a.id < bytesOf b.id :=
  List.Pairwise.imp bytesOf_lt ascending

end CallAtlas
