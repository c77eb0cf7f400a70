import MatrixScript.Text.Ranges

/-! White space: the characters with the Unicode property `White_Space`. -/

set_option autoImplicit false

namespace MatrixScript.Text

def blankRanges : List (Nat × Nat) := [
   (0x0009, 0x000D), (0x0020, 0x0020), (0x0085, 0x0085), (0x00A0, 0x00A0), (0x1680, 0x1680),
   (0x2000, 0x200A), (0x2028, 0x2029), (0x202F, 0x202F), (0x205F, 0x205F), (0x3000, 0x3000)]

def isBlank (c : Char) : Bool :=
  inRanges blankRanges c.toNat

end MatrixScript.Text
