import ShaderLegalizer.Json.Basic
import ShaderLegalizer.Json.Escape

set_option autoImplicit false

namespace ShaderLegalizer.Json

inductive Token where
  | openObject
  | closeObject
  | openArray
  | closeArray
  | colon
  | comma
  | null
  | bool (b : Bool)
  | num (n : Number)
  | str (s : String)
deriving DecidableEq, Repr

namespace Token

def ofPunctuation? : Char → Option Token
  | '\x7b' => some openObject
  | '\x7d' => some closeObject
  | '[' => some openArray
  | ']' => some closeArray
  | ':' => some colon
  | ',' => some comma
  | _ => none

def ofWord? (word : List Char) : Option Token :=
  if word = ['n', 'u', 'l', 'l'] then some null
  else if word = ['t', 'r', 'u', 'e'] then some (bool true)
  else if word = ['f', 'a', 'l', 's', 'e'] then some (bool false)
  else (Number.ofText? word).map num

def isSpace (c : Char) : Bool :=
  c == ' ' || c == '\t' || c == '\n' || c == '\r'

def endsWord (c : Char) : Bool :=
  isSpace c || c == '"' || (ofPunctuation? c).isSome

end Token

/-- What the characters read since the last token belong to. They are kept latest first. -/
inductive Mode where
  | between
  | word (read : List Char)
  | string (read : List Char) (escaped : Bool)
deriving DecidableEq, Repr

/-- The state of the machine: the tokens so far, latest first, and the mode. -/
structure Scan where
  tokens : List Token
  mode : Mode
deriving DecidableEq, Repr

namespace Scan

def start : Scan := ⟨[], .between⟩

def fresh (tokens : List Token) (c : Char) : Scan :=
  if Token.isSpace c then ⟨tokens, .between⟩
  else if c = '"' then ⟨tokens, .string [] false⟩
  else match Token.ofPunctuation? c with
    | some t => ⟨t :: tokens, .between⟩
    | none => ⟨tokens, .word [c]⟩

def step (st : Scan) (c : Char) : Option Scan :=
  match st.mode with
  | .between => some (fresh st.tokens c)
  | .word read =>
    if Token.endsWord c then (Token.ofWord? read.reverse).map fun t => fresh (t :: st.tokens) c
    else some ⟨st.tokens, .word (c :: read)⟩
  | .string read true => some ⟨st.tokens, .string (c :: read) false⟩
  | .string read false =>
    if c = '"' then
      (Escape.decode? read.reverse).map fun s => ⟨.str (String.ofList s) :: st.tokens, .between⟩
    else some ⟨st.tokens, .string (c :: read) (c == '\\')⟩

def finish? (st : Scan) : Option (List Token) :=
  match st.mode with
  | .between => some st.tokens.reverse
  | .word read => (Token.ofWord? read.reverse).map fun t => (t :: st.tokens).reverse
  | .string _ _ => none

end Scan

def tokens? (text : List Char) : Option (List Token) := do
  let st ← text.foldlM Scan.step Scan.start
  st.finish?

end ShaderLegalizer.Json
