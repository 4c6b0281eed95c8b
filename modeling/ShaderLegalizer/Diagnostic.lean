import ShaderLegalizer.Text.Blank

set_option autoImplicit false

namespace ShaderLegalizer

inductive Severity where
  | info
  | warning
  | error
  | other (name : String)
deriving DecidableEq, Repr, Inhabited

namespace Severity

def name : Severity → String
  | .info => "Info"
  | .warning => "Warning"
  | .error => "Error"
  | .other name => name

/-- The known severity of that name, blanks around it and the case of its letters aside. -/
def ofName? (s : String) : Option Severity :=
  let key := Text.keyword s
  if key = ['i', 'n', 'f', 'o'] then some .info
  else if key = ['w', 'a', 'r', 'n', 'i', 'n', 'g'] then some .warning
  else if key = ['e', 'r', 'r', 'o', 'r'] then some .error
  else none

def ofName (s : String) : Severity :=
  (ofName? s).getD (.other s)

def isOther : Severity → Bool
  | .other _ => true
  | _ => false

end Severity

structure Diagnostic where
  severity : Severity := .info
  message : String := ""
  stage : String := ""
deriving DecidableEq, Repr, Inhabited

namespace Diagnostic

def isError (d : Diagnostic) : Bool :=
  d.severity == .error

def line (d : Diagnostic) : String :=
  "[" ++ d.stage ++ "] " ++ d.severity.name ++ ": " ++ d.message

end Diagnostic

end ShaderLegalizer
