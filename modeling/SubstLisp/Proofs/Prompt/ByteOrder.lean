import Mathlib.Data.String.Basic
import Mathlib.Tactic.SplitIfs

/-! # The order of texts is that of their bytes

Texts are ordered like words in a dictionary, by their characters. Characters of more bytes come
later, and of two with as many bytes, the first byte that differs decides. So the order of texts is
also that of their bytes (`SubstLisp.bytes_lt_of_lt`).
-/

namespace SubstLisp

/-- The bytes of a text. -/
def bytes (text : String) : List UInt8 :=
  text.toByteArray.data.toList

theorem bytes_eq_flatMap (text : String) :
    bytes text = text.toList.flatMap String.utf8EncodeChar := by
  rw [bytes, ← String.utf8Encode_toList, List.utf8Encode, List.data_toByteArray]

/-- The first bytes at which the lists differ are in order, and they do differ. -/
def Below : List UInt8 → List UInt8 → Prop
  | byte :: first, other :: second => byte < other ∨ byte = other ∧ Below first second
  | _, _ => False

/-- Lists that differ are ordered by where they do, whatever comes behind. -/
theorem Below.append_lt {first second : List UInt8} (below : Below first second)
    (left right : List UInt8) : first ++ left < second ++ right := by
  induction first generalizing second with
  | nil => cases second <;> exact below.elim
  | cons byte first ih =>
    cases second with
    | nil => exact below.elim
    | cons other second =>
      rw [List.cons_append, List.cons_append, List.cons_lt_cons_iff]
      exact below.imp_right fun later => ⟨later.1, ih later.2⟩

/-- The bytes of characters are in the order of the characters. -/
theorem below_utf8EncodeChar {c d : Char} (lt : c < d) :
    Below (String.utf8EncodeChar c) (String.utf8EncodeChar d) := by
  have less : c.val.toNat < d.val.toNat := UInt32.lt_iff_toNat_lt.mp lt
  have valid : d.val.toNat < 0x110000 := by
    obtain low | high := d.valid <;> omega
  have toNat : ∀ byte < 256, (UInt8.ofNat byte).toNat = byte :=
    fun byte small => UInt8.toNat_ofNat_of_lt' small
  have second : ∀ k, k / 4096 = k / 64 / 64 := by omega
  have third : ∀ k, k / 262144 = k / 64 / 64 / 64 := by omega
  unfold String.utf8EncodeChar
  dsimp only
  generalize c.val.toNat = m, d.val.toNat = n at less valid
  -- If the characters have as many bytes, this compares their numbers in base 64.
  split_ifs <;>
    simp (disch := omega) only [Below, UInt8.lt_iff_toNat_lt, ← UInt8.toNat_inj, toNat,
      second, third, and_false, or_false] <;>
    omega

/-- **Texts are ordered by their bytes.** -/
theorem bytes_lt_of_lt {a b : String} (lt : a < b) : bytes a < bytes b := by
  rw [String.lt_iff_toList_lt] at lt
  rw [bytes_eq_flatMap, bytes_eq_flatMap]
  generalize a.toList = first, b.toList = second at lt
  induction lt with
  | @nil c rest =>
    have nonempty : String.utf8EncodeChar c ++ rest.flatMap String.utf8EncodeChar ≠ [] :=
      List.append_ne_nil_of_left_ne_nil String.utf8EncodeChar_ne_nil _
    rw [List.flatMap_nil, List.flatMap_cons]
    obtain ⟨byte, others, split⟩ := List.exists_cons_of_ne_nil nonempty
    rw [split]
    exact .nil
  | @cons c first second later ih =>
    rw [List.flatMap_cons, List.flatMap_cons]
    exact List.append_left_lt ih
  | @rel c first d second less =>
    rw [List.flatMap_cons, List.flatMap_cons]
    exact (below_utf8EncodeChar less).append_lt _ _

end SubstLisp
