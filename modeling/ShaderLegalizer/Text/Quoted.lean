import ShaderLegalizer.Text.Printable

set_option autoImplicit false

namespace ShaderLegalizer.Text

def quoteLetter? : Char → Option Char
  | '"' => some '"'
  | '\\' => some '\\'
  | '\n' => some 'n'
  | '\r' => some 'r'
  | '\t' => some 't'
  | '\x00' => some '0'
  | _ => none

def quoteChar (c : Char) : List Char :=
  match quoteLetter? c with
  | some letter => ['\\', letter]
  | none =>
    if isPrintable c then [c]
    else ['\\', 'u', '\x7b'] ++ Nat.toDigits 16 c.toNat ++ ['\x7d']

def quoted (s : String) : String :=
  String.ofList ('"' :: s.toList.flatMap quoteChar ++ ['"'])

example : quoted "it's \"é\"\t" = "\"it's \\\"é\\\"\\t\"" := by decide +kernel

end ShaderLegalizer.Text
