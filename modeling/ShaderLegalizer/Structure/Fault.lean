import ShaderLegalizer.Module

set_option autoImplicit false

namespace ShaderLegalizer

inductive Fault where
  | duplicateValue (id : ValueId)
  | missingEntry (function : String)
  | emptyBlock (function block : String)
  | openBlock (function block op : String)
  | earlyTerminator (function block op : String)
  | undefinedParameter (function : String) (id : ValueId)
  | undefinedReference (function block op : String) (id : ValueId)
  | multipleDefinition (id : ValueId)
  | recursion (function : String)
deriving DecidableEq, Repr

namespace Fault

def message : Fault → String
  | .duplicateValue id => s!"Value id {id} is declared more than once."
  | .missingEntry f => s!"Entry point function '{f}' is not defined in the module."
  | .emptyBlock f b => s!"Block '{b}' in function '{f}' is empty."
  | .openBlock f b op =>
    s!"Block '{b}' in function '{f}' does not end with a terminator (last op '{op}')."
  | .earlyTerminator f b op =>
    s!"Terminator '{op}' appears before the end of block '{b}' in function '{f}'."
  | .undefinedParameter f id => s!"Parameter of function '{f}' references undefined value {id}."
  | .undefinedReference f b op id =>
    s!"Instruction '{op}' in block '{b}' of function '{f}' references undefined value {id}."
  | .multipleDefinition id => s!"Value {id} is defined by more than one instruction."
  | .recursion f => s!"Recursion detected involving function '{f}'."

def stage : String := "invariant"

def diagnostic (f : Fault) : Diagnostic :=
  { severity := .error, message := f.message, stage := stage }

end Fault

end ShaderLegalizer
