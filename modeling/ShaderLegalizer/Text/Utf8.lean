/-!
Tests on the UTF-8 bytes of a text. Two names are recognised by their first bytes: one test looks
at raw bytes, the other first cuts the text at a byte offset, which succeeds only on a character
boundary.
-/

set_option autoImplicit false

namespace ShaderLegalizer.Text

def bytes (s : List Char) : List UInt8 :=
  s.flatMap String.utf8EncodeChar

/-- ASCII capitals in lower case, every other byte unchanged. -/
def lowerByte (b : UInt8) : UInt8 :=
  if 65 ≤ b ∧ b ≤ 90 then b + 32 else b

/-- Whether the text has as many bytes as `word` and its first bytes are those of `word`, up to the
case of ASCII letters. -/
def bytesOpenWith (s word : String) : Bool :=
  let w := bytes word.toList
  let head := (bytes s.toList).take w.length
  head.length == w.length && head.map lowerByte == w.map lowerByte

/-- The leading characters that fill exactly `n` bytes. There are none such if the text is shorter
or if the cut would fall inside a character. -/
def cutAt? : Nat → List Char → Option (List Char)
  | 0, _ => some []
  | _ + 1, [] => none
  | n + 1, c :: s =>
    if c.utf8Size ≤ n + 1 then (cutAt? (n + 1 - c.utf8Size) s).map (c :: ·) else none

def cutOpensWith (s word : String) : Bool :=
  match cutAt? (bytes word.toList).length s.toList with
  | some head => head.map Char.toLower == word.toList.map Char.toLower
  | none => false

example : bytesOpenWith "Sv_Target" "sv_" = true ∧ bytesOpenWith "sé" "sv_" = false := by decide

example : cutOpensWith "COLOR0" "color" = true ∧ cutOpensWith "coloé" "color" = false := by decide

end ShaderLegalizer.Text
