set_option autoImplicit false

namespace ShaderLegalizer.Text

/-- The characters of a text, ASCII capitals in lower case. -/
def fold (s : String) : List Char :=
  s.toList.map Char.toLower

def sameName (s t : String) : Bool :=
  fold s == fold t

/-- Whether the word stands somewhere in the text. -/
def holds (word : List Char) : List Char → Bool
  | [] => word.isEmpty
  | c :: cs => word.isPrefixOf (c :: cs) || holds word cs

/-- Whether the folded text holds `word` somewhere. The word itself is given in lower case. -/
def mentions (s word : String) : Bool :=
  holds word.toList (fold s)

/-- Whether the folded text begins with `word`, which is given in lower case. -/
def opensWith (s word : String) : Bool :=
  decide (word.toList <+: fold s)

theorem sameName_iff (s t : String) : sameName s t = true ↔ fold s = fold t := by
  simp [sameName]

theorem holds_iff (word cs : List Char) : holds word cs = true ↔ word <:+: cs := by
  induction cs with
  | nil => rw [holds, List.isEmpty_iff, List.infix_nil]
  | cons c cs ih =>
    rw [holds, Bool.or_eq_true, ih, List.isPrefixOf_iff_prefix, List.infix_cons_iff]

theorem mentions_congr (s t word : String) (h : fold s = fold t) :
    mentions s word = mentions t word := by
  simp only [mentions, h]

end ShaderLegalizer.Text
