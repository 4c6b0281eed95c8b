import ShaderLegalizer.Json.Basic
import ShaderLegalizer.Text.Fold

set_option autoImplicit false

namespace ShaderLegalizer.Wire

/-- The canonical spelling of every field's key. -/
def fieldKeys : List String :=
  ["formatVersion", "profile", "entryPoint", "function", "stage", "functions", "name",
   "returnType", "parameters", "blocks", "id", "instructions", "op", "operands", "result", "type",
   "terminator", "tag", "values", "kind", "semantic", "resources", "writable", "diagnostics",
   "severity", "message"]

def canonicalKey (key : String) : String :=
  (fieldKeys.find? (Text.sameName key)).getD key

mutual

/-- The value with canonical keys and without null members, at every depth. Nulls in arrays
stay. -/
def normalizeKeys : Json → Json
  | .null => .null
  | .bool b => .bool b
  | .num n => .num n
  | .str s => .str s
  | .arr items => .arr (normalizeItems items)
  | .obj members => .obj (Json.collect (normalizeMembers members))

def normalizeItems : List Json → List Json
  | [] => []
  | v :: vs => normalizeKeys v :: normalizeItems vs

def normalizeMembers : List (String × Json) → List (String × Json)
  | [] => []
  | (k, v) :: ms =>
    if v.isNull then normalizeMembers ms
    else (canonicalKey k, normalizeKeys v) :: normalizeMembers ms

end

end ShaderLegalizer.Wire
