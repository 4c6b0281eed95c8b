import ShaderLegalizer.Json.Parser
import ShaderLegalizer.Json.Printer
import ShaderLegalizer.Wire.Keys
import ShaderLegalizer.Wire.Records

set_option autoImplicit false

namespace ShaderLegalizer

inductive ReadError where
  | emptyInput
  | notJson
  | shape (mismatch : Wire.Mismatch)
deriving DecidableEq, Repr

def ReadError.message : ReadError → String
  | .emptyInput => "Input IR JSON is empty"
  | .notJson => "Failed to parse IR JSON: invalid JSON text"
  | .shape mismatch => "Failed to parse IR JSON: " ++ mismatch.message

namespace Module

def ofJson (v : Json) : Except Wire.Mismatch Module :=
  Wire.moduleSchema.read (Wire.normalizeKeys v)

def toJson (m : Module) : Json :=
  Wire.moduleSchema.write m

def ofText (text : String) : Except ReadError Module :=
  if Text.isBlankText text then .error .emptyInput
  else match Json.parse? text with
    | none => .error .notJson
    | some v => (ofJson v).mapError .shape

def toText (m : Module) : String :=
  m.toJson.pretty

end Module

end ShaderLegalizer
