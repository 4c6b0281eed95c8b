import ShaderLegalizer.Json.Basic
import ShaderLegalizer.Text.Quoted

set_option autoImplicit false

namespace ShaderLegalizer.Wire

inductive Want where
  | u32
  | text
  | flag
  | sequence
  | record (name : String)
deriving DecidableEq, Repr

inductive Got where
  | null
  | bool (b : Bool)
  | num (n : Json.Number)
  | text (s : String)
  | sequence
  | map
deriving DecidableEq, Repr

inductive Mismatch where
  | wrongType (got : Got) (want : Want)
  | outOfRange (n : Int)
  /-- A record in array form with more elements than the record has fields. -/
  | tooLong (length : Nat)
deriving DecidableEq, Repr

def Got.ofJson : Json → Got
  | .null => .null
  | .bool b => .bool b
  | .num n => .num n
  | .str s => .text s
  | .arr _ => .sequence
  | .obj _ => .map

def Want.message : Want → String
  | .u32 => "u32"
  | .text => "a string"
  | .flag => "a boolean"
  | .sequence => "a sequence"
  | .record name => "struct " ++ name

def Got.message : Got → String
  | .null => "null"
  | .bool true => "boolean `true`"
  | .bool false => "boolean `false`"
  | .num (.integer n) => "integer `" ++ String.ofList (Json.Number.integer n).text ++ "`"
  | .num (.real s m) => "floating point `" ++ String.ofList (Json.Number.real s m).text ++ "`"
  | .text s => "string " ++ Text.quoted s
  | .sequence => "sequence"
  | .map => "map"

def Mismatch.message : Mismatch → String
  | .wrongType got want => "invalid type: " ++ got.message ++ ", expected " ++ want.message
  | .outOfRange n =>
    "invalid value: integer `" ++ String.ofList (Json.Number.integer n).text ++ "`, expected u32"
  | .tooLong n =>
    "invalid length " ++ String.ofList (Nat.toDigits 10 n) ++ ", expected fewer elements in array"

end ShaderLegalizer.Wire
