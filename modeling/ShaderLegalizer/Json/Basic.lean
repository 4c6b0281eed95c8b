import ShaderLegalizer.Json.Number

set_option autoImplicit false

namespace ShaderLegalizer

inductive Json where
  | null
  | bool (b : Bool)
  | num (n : Json.Number)
  | str (s : String)
  | arr (items : List Json)
  | obj (members : List (String × Json))
deriving Inhabited

namespace Json

abbrev Members := List (String × Json)

def insertMember (key : String) (value : Json) : Members → Members
  | [] => [(key, value)]
  | (k, v) :: rest =>
    if key < k then (key, value) :: (k, v) :: rest
    else if key = k then (key, value) :: rest
    else (k, v) :: insertMember key value rest

/-- The members in ascending order of their keys. Of several with one key the last is kept. -/
def collect (members : Members) : Members :=
  members.foldl (fun ms m => insertMember m.1 m.2 ms) []

def isNull : Json → Bool
  | .null => true
  | _ => false

end Json

end ShaderLegalizer
