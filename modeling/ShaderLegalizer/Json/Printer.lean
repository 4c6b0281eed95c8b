import ShaderLegalizer.Json.Basic
import ShaderLegalizer.Json.Escape

set_option autoImplicit false

namespace ShaderLegalizer.Json

def stringText (s : String) : List Char :=
  '"' :: Escape.encode s.toList ++ ['"']

def newline (level : Nat) : List Char :=
  '\n' :: List.replicate (2 * level) ' '

mutual

/-- The text of a value that starts on a line of the given level. -/
def text (level : Nat) : Json → List Char
  | .null => ['n', 'u', 'l', 'l']
  | .bool true => ['t', 'r', 'u', 'e']
  | .bool false => ['f', 'a', 'l', 's', 'e']
  | .num n => n.text
  | .str s => stringText s
  | .arr [] => ['[', ']']
  | .arr (v :: vs) =>
    '[' :: newline (level + 1) ++ text (level + 1) v ++ itemsText (level + 1) vs
      ++ newline level ++ [']']
  | .obj [] => ['\x7b', '\x7d']
  | .obj ((k, v) :: ms) =>
    '\x7b' :: newline (level + 1) ++ stringText k ++ [':', ' '] ++ text (level + 1) v
      ++ membersText (level + 1) ms ++ newline level ++ ['\x7d']

def itemsText (level : Nat) : List Json → List Char
  | [] => []
  | v :: vs => ',' :: newline level ++ text level v ++ itemsText level vs

def membersText (level : Nat) : List (String × Json) → List Char
  | [] => []
  | (k, v) :: ms =>
    ',' :: newline level ++ stringText k ++ [':', ' '] ++ text level v ++ membersText level ms

end

def pretty (v : Json) : String :=
  String.ofList (text 0 v)

end ShaderLegalizer.Json
