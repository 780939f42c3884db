import Mathlib.Data.String.Basic

/-!
# Texts as Bytes

Texts are ordered by the numbers of their characters, and byte strings by
their bytes. The encoding of a text keeps this order: of two characters the
greater one has the greater byte where their encodings first differ, and they
differ before either of them ends. So texts that are in one order are in the
other.

The files of a package are put in the order of their paths, and that order is
promised for the bytes of the paths. It is sorted by the other one, which is
the order of texts here. Both are the same by `bytes_lt_bytes`.

What comes after the first character in which two texts differ plays no part.
`encode_lt_encode` is therefore stated for any bytes behind the two
encodings, which may be of different lengths, and the induction over texts
does not have to look at lengths at all.

## Main definitions

* `Text.bytes`: The bytes of a text in UTF-8.

## Theorems

* `Text.bytes_eq`: The bytes of a text are those of its characters.
* `Text.encode_lt_encode`: A greater character has greater bytes, whatever
  comes after them.
* `Text.bytes_lt_bytes`: Texts in order have their bytes in order.
-/

namespace PlatformBridge

namespace Text

/-- The bytes of a text in UTF-8. -/
def bytes (text : String) : List UInt8 := text.toUTF8.data.toList

/-- The bytes of a text are those of its characters, one character after the other, so a proof can
    go by the characters. -/
theorem bytes_eq (text : String) : bytes text = text.toList.flatMap String.utf8EncodeChar := by
  rw [bytes, String.toUTF8_eq_toByteArray, ← String.utf8Encode_toList, List.utf8Encode,
    List.toList_data_toByteArray]

section Bytes

variable {m n : Nat} (hm : m < 256) (hn : n < 256)

include hm hn

/-- Numbers that are small enough are compared as bytes. -/
theorem ofNat_lt_ofNat : UInt8.ofNat m < UInt8.ofNat n ↔ m < n := by
  rw [UInt8.lt_iff_toNat_lt, UInt8.toNat_ofNat_of_lt' hm, UInt8.toNat_ofNat_of_lt' hn]

theorem ofNat_eq_ofNat : UInt8.ofNat m = UInt8.ofNat n ↔ m = n := by
  rw [← UInt8.toNat_inj, UInt8.toNat_ofNat_of_lt' hm, UInt8.toNat_ofNat_of_lt' hn]

end Bytes

/-- A greater character has greater bytes, whatever comes after them. -/
theorem encode_lt_encode (c d : Char) (h : c < d) (cs ds : List UInt8) :
    String.utf8EncodeChar c ++ cs < String.utf8EncodeChar d ++ ds := by
  have hlt : c.val.toNat < d.val.toNat := h
  have hbound : d.val.toNat < 0x110000 := by
    rcases d.valid with hd | hd
    · exact Nat.lt_trans hd (by decide)
    · exact hd.2
  unfold String.utf8EncodeChar
  generalize c.val.toNat = m at hlt ⊢
  generalize d.val.toNat = n at hlt hbound ⊢
  dsimp only
  -- The digits of the numbers to the base 64, down to the first in which they differ.
  have hdigits : m / 4096 < n / 4096 ∨ m / 4096 = n / 4096
      ∧ (m / 64 < n / 64 ∨ m / 64 = n / 64 ∧ m % 64 < n % 64) := by omega
  -- The first byte tells how many there are, and a greater character has no fewer of them. If there
  -- are as many, they are these digits.
  split_ifs <;> first
  | omega
  | (simp (disch := omega) only [List.cons_append, List.nil_append, List.cons_lt_cons_iff,
      ofNat_lt_ofNat, ofNat_eq_ofNat]
     rcases hdigits with hfirst | ⟨hfirst, hsecond | ⟨hsecond, hlast⟩⟩ <;> omega)

/-- Texts in order have their bytes in order. -/
theorem bytes_lt_bytes (s t : String) (h : s < t) : bytes s < bytes t := by
  rw [bytes_eq, bytes_eq]
  rw [String.lt_iff_toList_lt] at h
  generalize s.toList = cs at h ⊢
  generalize t.toList = ds at h ⊢
  induction h with
  | @nil d ds =>
      rcases List.exists_cons_of_ne_nil (String.utf8EncodeChar_ne_nil (c := d)) with ⟨x, xs, hd⟩
      rw [List.flatMap_nil, List.flatMap_cons, hd]
      exact List.nil_lt_cons _ _
  | rel h =>
      rw [List.flatMap_cons, List.flatMap_cons]
      exact encode_lt_encode _ _ h _ _
  | cons _ ih =>
      rw [List.flatMap_cons, List.flatMap_cons]
      exact List.append_left_lt ih

end Text

end PlatformBridge
