import ShaderLegalizer.Json.Token

set_option autoImplicit false

namespace ShaderLegalizer.Json

/-- An open bracket and what has been read behind it. -/
inductive Bracket where
  | array (items : List Json)
  | object (members : Members)
  | member (members : Members) (key : String)

inductive Expectation where
  | value
  | itemOrEnd
  | keyOrEnd
  | key
  | colon (key : String)
  | separator
  | finished (v : Json)

structure Reading where
  brackets : List Bracket
  expects : Expectation

def maxDepth : Nat := 127

namespace Reading

def start : Reading := ⟨[], .value⟩

def give (v : Json) : List Bracket → Option Reading
  | [] => some ⟨[], .finished v⟩
  | .array items :: rest => some ⟨.array (v :: items) :: rest, .separator⟩
  | .member ms key :: rest => some ⟨.object (insertMember key v ms) :: rest, .separator⟩
  | .object _ :: _ => none

def push (b : Bracket) (next : Expectation) (brackets : List Bracket) : Option Reading :=
  if brackets.length < maxDepth then some ⟨b :: brackets, next⟩ else none

def takeValue (brackets : List Bracket) : Token → Option Reading
  | .null => give .null brackets
  | .bool b => give (.bool b) brackets
  | .num n => give (.num n) brackets
  | .str s => give (.str s) brackets
  | .openArray => push (.array []) .itemOrEnd brackets
  | .openObject => push (.object []) .keyOrEnd brackets
  | .closeArray | .closeObject | .colon | .comma => none

def close : List Bracket → Token → Option Reading
  | .array items :: rest, .closeArray => give (.arr items.reverse) rest
  | .object ms :: rest, .closeObject => give (.obj ms) rest
  | _, _ => none

def takeKey (brackets : List Bracket) : Token → Option Reading
  | .str key => some ⟨brackets, .colon key⟩
  | _ => none

def takeComma : List Bracket → Option Reading
  | .array items :: rest => some ⟨.array items :: rest, .value⟩
  | .object ms :: rest => some ⟨.object ms :: rest, .key⟩
  | _ => none

def takeColon (key : String) : List Bracket → Token → Option Reading
  | .object ms :: rest, .colon => some ⟨.member ms key :: rest, .value⟩
  | _, _ => none

def step (st : Reading) (t : Token) : Option Reading :=
  match st.expects with
  | .value => takeValue st.brackets t
  | .itemOrEnd => if t = .closeArray then close st.brackets t else takeValue st.brackets t
  | .keyOrEnd => if t = .closeObject then close st.brackets t else takeKey st.brackets t
  | .key => takeKey st.brackets t
  | .colon key => takeColon key st.brackets t
  | .separator => if t = .comma then takeComma st.brackets else close st.brackets t
  | .finished _ => none

def result? (st : Reading) : Option Json :=
  match st.expects with
  | .finished v => some v
  | _ => none

end Reading

def ofTokens? (ts : List Token) : Option Json := do
  let st ← ts.foldlM Reading.step Reading.start
  st.result?

def parse? (text : String) : Option Json := do
  let ts ← tokens? text.toList
  ofTokens? ts

end ShaderLegalizer.Json
