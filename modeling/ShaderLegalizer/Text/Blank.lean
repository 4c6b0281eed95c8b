import ShaderLegalizer.Text.Fold

set_option autoImplicit false

namespace ShaderLegalizer.Text

/-- The code points with the property White_Space, as closed ascending ranges. -/
def blankRanges : List (Nat × Nat) :=
  [(0x09, 0x0D), (0x20, 0x20), (0x85, 0x85), (0xA0, 0xA0), (0x1680, 0x1680), (0x2000, 0x200A),
   (0x2028, 0x2029), (0x202F, 0x202F), (0x205F, 0x205F), (0x3000, 0x3000)]

def inRanges (ranges : List (Nat × Nat)) (n : Nat) : Bool :=
  ranges.any fun r => r.1 ≤ n && n ≤ r.2

def isBlank (c : Char) : Bool :=
  inRanges blankRanges c.toNat

def isBlankText (s : String) : Bool :=
  s.toList.all isBlank

def trim (s : List Char) : List Char :=
  (((s.dropWhile isBlank).reverse).dropWhile isBlank).reverse

/-- The form in which a keyword is looked up: trimmed, ASCII capitals in lower case. -/
def keyword (s : String) : List Char :=
  (trim s.toList).map Char.toLower

example : isBlank 'a' = false ∧ isBlank '\u200b' = false ∧ isBlank '\ufeff' = false := by decide

end ShaderLegalizer.Text
