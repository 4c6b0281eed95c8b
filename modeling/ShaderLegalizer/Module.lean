import ShaderLegalizer.Diagnostic
import ShaderLegalizer.Text.Utf8

set_option autoImplicit false

namespace ShaderLegalizer

abbrev ValueId := UInt32

structure EntryPoint where
  function : String := ""
  stage : String := ""
deriving DecidableEq, Repr, Inhabited

structure Instruction where
  op : String := ""
  operands : List ValueId := []
  result : Option ValueId := none
  type : Option String := none
  terminator : Bool := false
  /-- Free text; a call names its callee here, a lowered instruction the rule that was applied. -/
  tag : Option String := none
deriving DecidableEq, Repr, Inhabited

structure Block where
  id : String := ""
  instructions : List Instruction := []
deriving DecidableEq, Repr, Inhabited

structure Function where
  name : String := ""
  returnType : String := ""
  parameters : List ValueId := []
  blocks : List Block := []
deriving DecidableEq, Repr, Inhabited

structure Value where
  id : ValueId := 0
  type : String := ""
  kind : String := ""
  semantic : Option String := none
deriving DecidableEq, Repr, Inhabited

structure Resource where
  name : String := ""
  kind : String := ""
  type : String := ""
  writable : Bool := false
deriving DecidableEq, Repr, Inhabited

structure Module where
  formatVersion : Option UInt32 := none
  profile : Option String := none
  entryPoint : Option EntryPoint := none
  functions : List Function := []
  values : List Value := []
  resources : List Resource := []
  diagnostics : List Diagnostic := []
deriving DecidableEq, Repr, Inhabited

/-- Whether a stage is a vertex stage, which is spelled `vs` and whatever follows, or `vertex`. -/
def isVertexStage (stage : String) : Bool :=
  Text.opensWith stage "vs" || Text.sameName stage "vertex"

def tempKind : String := "Temp"

namespace Value

def isTemp (v : Value) : Bool :=
  Text.sameName v.kind "temp"

/-- Whether the value has a system semantic. The first bytes decide. -/
def hasSystemSemantic (v : Value) : Bool :=
  v.semantic.any fun s => Text.bytesOpenWith s "sv_"

end Value

namespace Function

def instructions (f : Function) : List Instruction :=
  f.blocks.flatMap Block.instructions

end Function

namespace Module

def entryStage (m : Module) : String :=
  match m.entryPoint with
  | some e => e.stage
  | none => "unknown"

def blocks (m : Module) : List Block :=
  m.functions.flatMap Function.blocks

def instructions (m : Module) : List Instruction :=
  m.functions.flatMap Function.instructions

def tempCount (m : Module) : Nat :=
  m.values.countP Value.isTemp

/-- The first function of that name. -/
def function? (m : Module) (name : String) : Option Function :=
  m.functions.find? fun f => f.name == name

def hasErrors (m : Module) : Bool :=
  m.diagnostics.any Diagnostic.isError

def withProfile (m : Module) (profile : String) : Module :=
  { m with profile := some profile }

def withFunctions (m : Module) (functions : List Function) : Module :=
  { m with functions := functions }

def withDiagnostics (m : Module) (diagnostics : List Diagnostic) : Module :=
  { m with diagnostics := diagnostics }

/-! A module is built up by adding to an empty one. -/

def withEntry (m : Module) (e : EntryPoint) : Module :=
  { m with entryPoint := some e }

def addValues (m : Module) (values : List Value) : Module :=
  { m with values := m.values ++ values }

def addResource (m : Module) (r : Resource) : Module :=
  { m with resources := m.resources ++ [r] }

def addFunction (m : Module) (f : Function) : Module :=
  { m with functions := m.functions ++ [f] }

def addDiagnostic (m : Module) (d : Diagnostic) : Module :=
  { m with diagnostics := m.diagnostics ++ [d] }

end Module

end ShaderLegalizer
