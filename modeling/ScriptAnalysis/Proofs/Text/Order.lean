import Mathlib.Data.String.Basic
import ScriptAnalysis.Proofs.Text.Bytes

/-!
# The order of texts

Texts are compared character by character. Their UTF-8 forms compare alike (`bytes_lt_bytes`): a
longer form begins with a greater byte, and in forms of one length the bytes hold the digits of the
code point, the highest first.
-/

namespace ScriptAnalysis.Text

/-- The UTF-8 form of a code point. The first byte tells the length and holds the highest digit;
every other byte holds six bits. -/
inductive Form (code : Nat) : List UInt8 → Prop where
  | one (fits : code < 0x80) : Form code [UInt8.ofNat code]
  | two (beyond : 0x80 ≤ code) (fits : code < 0x800) :
      Form code [UInt8.ofNat (code / 64 + 0xc0), UInt8.ofNat (code % 64 + 0x80)]
  | three (beyond : 0x800 ≤ code) (fits : code < 0x10000) :
      Form code [UInt8.ofNat (code / 4096 + 0xe0), UInt8.ofNat (code / 64 % 64 + 0x80),
        UInt8.ofNat (code % 64 + 0x80)]
  | four (beyond : 0x10000 ≤ code) (fits : code < 0x110000) :
      Form code [UInt8.ofNat (code / 262144 + 0xf0), UInt8.ofNat (code / 4096 % 64 + 0x80),
        UInt8.ofNat (code / 64 % 64 + 0x80), UInt8.ofNat (code % 64 + 0x80)]

theorem form (c : Char) : Form c.toNat (String.utf8EncodeChar c) := by
  have limit : c.toNat < 0x110000 := by
    have valid := c.valid
    simp only [UInt32.isValidChar, Nat.isValidChar] at valid
    show c.val.toNat < _
    omega
  have toNat : c.val.toNat = c.toNat := rfl
  unfold String.utf8EncodeChar
  simp only [toNat]
  split
  · exact .one (by omega)
  · split
    · rw [Nat.mod_eq_of_lt (by omega : c.toNat / 64 < 32)]
      exact .two (by omega) (by omega)
    · split
      · rw [Nat.mod_eq_of_lt (by omega : c.toNat / 4096 < 16)]
        exact .three (by omega) (by omega)
      · rw [Nat.mod_eq_of_lt (by omega : c.toNat / 262144 < 8)]
        exact .four (by omega) limit

theorem ofNat_lt_ofNat {left right : Nat} (leftFits : left < 256) (rightFits : right < 256) :
    UInt8.ofNat left < UInt8.ofNat right ↔ left < right := by
  rw [UInt8.lt_iff_toNat_lt, UInt8.toNat_ofNat_of_lt' leftFits, UInt8.toNat_ofNat_of_lt' rightFits]

theorem ofNat_eq_ofNat {left right : Nat} (leftFits : left < 256) (rightFits : right < 256) :
    UInt8.ofNat left = UInt8.ofNat right ↔ left = right := by
  rw [← UInt8.toNat_inj, UInt8.toNat_ofNat_of_lt' leftFits, UInt8.toNat_ofNat_of_lt' rightFits]

/-- The form of a smaller code point stands first, whatever follows on either side. -/
theorem Form.append_lt {left right : Nat} {smaller greater : List UInt8}
    (leftForm : Form left smaller) (rightForm : Form right greater) (less : left < right)
    (lefts rights : List UInt8) : smaller ++ lefts < greater ++ rights := by
  -- A smaller code point has no longer form, so half of the pairs of lengths do not occur.
  cases leftForm <;> cases rightForm <;>
    simp (disch := omega) only [List.cons_append, List.nil_append, List.cons_lt_cons_iff,
      ofNat_lt_ofNat, ofNat_eq_ofNat] <;>
    omega

/-- The bytes of texts compare as their characters do. -/
theorem bytes_lt_bytes {left right : List Char} (less : left < right) :
    bytes left < bytes right := by
  induction less with
  | @nil c rest =>
      have shape := form c
      rw [bytes_cons]
      generalize String.utf8EncodeChar c = all at shape ⊢
      cases shape <;> exact List.Lex.nil
  | cons same inductionHypothesis => exact List.Lex.append_left _ inductionHypothesis _
  | @rel c rest other others smaller =>
      exact (form c).append_lt (form other) smaller (bytes rest) (bytes others)

end ScriptAnalysis.Text
