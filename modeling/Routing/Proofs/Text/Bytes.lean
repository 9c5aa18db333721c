import Mathlib

/-!
# Texts in the order of their bytes

Texts are compared by code points. The bytes that UTF-8 gives to a smaller character come before
those of a greater one, whatever follows them, so the bytes of two texts compare as the texts do.

* `Text.bytes` — the bytes of a text.
* `Text.bytes_lt_iff` — the order of bytes is the order of texts.
* `Text.forall_mem_bytes_iff` — a text of which all bytes are those of one ASCII character.
-/

namespace Routing

namespace Text

/-- The bytes of a text in UTF-8. -/
def bytes (text : String) : List UInt8 :=
  text.toUTF8.data.toList

theorem bytes_eq_flatMap (text : String) :
    bytes text = text.toList.flatMap String.utf8EncodeChar := by
  rw [bytes, String.toUTF8_eq_toByteArray, ← String.utf8Encode_toList, List.utf8Encode,
    List.data_toByteArray]

/-- Bytes that are given as numbers compare by the first of these numbers that differ. -/
theorem ofNat_cons_lt {m n : Nat} {front back : List UInt8} (hm : m < 256) (hn : n < 256) :
    UInt8.ofNat m :: front < UInt8.ofNat n :: back ↔ m < n ∨ m = n ∧ front < back := by
  rw [List.cons_lt_cons_iff, UInt8.lt_iff_toNat_lt, ← UInt8.toNat_inj,
    UInt8.toNat_ofNat_of_lt' hm, UInt8.toNat_ofNat_of_lt' hn]

/-- The bytes of a smaller character come first, whatever follows. -/
theorem utf8EncodeChar_append_lt {c d : Char} (h : c < d) (front back : List UInt8) :
    String.utf8EncodeChar c ++ front < String.utf8EncodeChar d ++ back := by
  have hlt : c.val.toNat < d.val.toNat := h
  have hmax : d.val.toNat < 0x110000 := by
    rcases d.valid with hd | hd
    · exact Nat.lt_trans hd (by decide)
    · exact hd.2
  unfold String.utf8EncodeChar
  generalize c.val.toNat = v at *
  generalize d.val.toNat = w at *
  -- of two numbers with the same digits of six bits in front, the smaller one has a smaller digit
  have hlast : v / 64 < w / 64 ∨ v / 64 = w / 64 ∧ v % 64 < w % 64 := by omega
  have hthird : v / 4096 < w / 4096 ∨ v / 4096 = w / 4096 ∧ v / 64 % 64 < w / 64 % 64 ∨
      v / 64 = w / 64 := by omega
  have hsecond : v / 262144 < w / 262144 ∨
      v / 262144 = w / 262144 ∧ v / 4096 % 64 < w / 4096 % 64 ∨ v / 4096 = w / 4096 := by omega
  have hv : v / 262144 % 8 = v / 262144 := by omega
  have hw : w / 262144 % 8 = w / 262144 := by omega
  -- a character with more bytes has a greater first byte
  dsimp only
  split_ifs <;>
    simp (disch := omega) only [List.cons_append, List.nil_append, ofNat_cons_lt] <;> omega

theorem flatMap_utf8EncodeChar_lt {cs ds : List Char} (h : cs < ds) :
    cs.flatMap String.utf8EncodeChar < ds.flatMap String.utf8EncodeChar := by
  induction h with
  | @nil d ds =>
    have hne : (d :: ds).flatMap String.utf8EncodeChar ≠ [] := by
      simp [List.flatMap_cons]
    rcases List.exists_cons_of_ne_nil hne with ⟨byte, bytes, hbytes⟩
    rw [hbytes]
    exact List.nil_lt_cons _ _
  | rel hcd =>
    rw [List.flatMap_cons, List.flatMap_cons]
    exact utf8EncodeChar_append_lt hcd _ _
  | cons _ ih =>
    rw [List.flatMap_cons, List.flatMap_cons]
    exact List.Lex.append_left _ ih _

/-- The bytes of two texts compare as the texts do. -/
theorem bytes_lt_iff {t u : String} : bytes t < bytes u ↔ t < u := by
  have hforward : ∀ {a b : String}, a < b → bytes a < bytes b := by
    intro a b h
    rw [bytes_eq_flatMap, bytes_eq_flatMap]
    exact flatMap_utf8EncodeChar_lt (String.lt_iff_toList_lt.1 h)
  constructor
  · intro h
    rcases lt_trichotomy t u with hlt | rfl | hgt
    · exact hlt
    · exact absurd h (List.lt_irrefl _)
    · exact absurd h (List.lt_asymm (hforward hgt))
  · exact hforward

theorem bytes_le_iff {t u : String} : bytes t ≤ bytes u ↔ t ≤ u := by
  rw [← List.not_lt, bytes_lt_iff, String.not_lt]

/-- All bytes of a character are that of an ASCII character only when it is this one. -/
theorem forall_mem_utf8EncodeChar_iff {c d : Char} (hd : d.val.toNat ≤ 127) :
    (∀ byte ∈ String.utf8EncodeChar c, byte = UInt8.ofNat d.val.toNat) ↔ c = d := by
  have hchar : c = d ↔ c.val.toNat = d.val.toNat := by
    rw [← Char.val_inj, ← UInt32.toNat_inj]
  have hfirst : ∀ n < 256, UInt8.ofNat n = UInt8.ofNat d.val.toNat ↔ n = d.val.toNat := by
    intro n hn
    have hsmall : d.val.toNat < 256 := Nat.lt_of_le_of_lt hd (by decide)
    rw [← UInt8.toNat_inj, UInt8.toNat_ofNat_of_lt' hn, UInt8.toNat_ofNat_of_lt' hsmall]
  rw [hchar]
  unfold String.utf8EncodeChar
  dsimp only
  split_ifs
  · rw [List.forall_mem_singleton, hfirst _ (by omega)]
  -- the first of several bytes is not that of an ASCII character
  all_goals
    rw [List.forall_mem_cons, hfirst _ (by omega)]
    omega

/-- A text that holds one ASCII character alone holds the byte of this character alone. -/
theorem forall_mem_bytes_iff {text : String} {d : Char} (hd : d.val.toNat ≤ 127) :
    (∀ byte ∈ bytes text, byte = d.toUInt8) ↔ ∀ c ∈ text.toList, c = d := by
  have hbyte : d.toUInt8 = UInt8.ofNat d.val.toNat := by
    rw [← UInt8.toNat_inj]
    rfl
  rw [bytes_eq_flatMap, List.forall_mem_flatMap, hbyte]
  simp only [forall_mem_utf8EncodeChar_iff hd]

end Text

end Routing
