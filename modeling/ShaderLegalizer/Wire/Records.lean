import ShaderLegalizer.Module
import ShaderLegalizer.Wire.Schema

set_option autoImplicit false

namespace ShaderLegalizer.Wire

/-- A severity is written by its name. A name of no known severity is kept as it stands. -/
def severityCodec : Codec Severity :=
  Codec.text.through Severity.ofName Severity.name

def diagnosticSchema : Schema Diagnostic where
  name := "IrDiagnostic"
  blank := {}
  fields :=
    [ { key := "severity", codec := severityCodec, get := (·.severity)
        set := fun s d => { d with severity := s } },
      { key := "message", codec := .text, get := (·.message)
        set := fun s d => { d with message := s } },
      { key := "stage", codec := .text, get := (·.stage)
        set := fun s d => { d with stage := s } } ]

def entryPointSchema : Schema EntryPoint where
  name := "IrEntryPoint"
  blank := {}
  fields :=
    [ { key := "function", codec := .text, get := (·.function)
        set := fun s e => { e with function := s } },
      { key := "stage", codec := .text, get := (·.stage)
        set := fun s e => { e with stage := s } } ]

def instructionSchema : Schema Instruction where
  name := "IrInstruction"
  blank := {}
  fields :=
    [ { key := "op", codec := .text, get := (·.op)
        set := fun s i => { i with op := s } },
      { key := "operands", codec := .list .u32, get := (·.operands)
        set := fun l i => { i with operands := l } },
      { key := "result", codec := .optional .u32, get := (·.result)
        set := fun r i => { i with result := r } },
      { key := "type", codec := .optional .text, get := (·.type)
        set := fun t i => { i with type := t } },
      { key := "terminator", codec := .flag, get := (·.terminator)
        set := fun b i => { i with terminator := b } },
      { key := "tag", codec := .optional .text, get := (·.tag)
        set := fun t i => { i with tag := t } } ]

def blockSchema : Schema Block where
  name := "IrBlock"
  blank := {}
  fields :=
    [ { key := "id", codec := .text, get := (·.id)
        set := fun s b => { b with id := s } },
      { key := "instructions", codec := .list instructionSchema.codec, get := (·.instructions)
        set := fun l b => { b with instructions := l } } ]

def functionSchema : Schema Function where
  name := "IrFunction"
  blank := {}
  fields :=
    [ { key := "name", codec := .text, get := (·.name)
        set := fun s f => { f with name := s } },
      { key := "returnType", codec := .text, get := (·.returnType)
        set := fun s f => { f with returnType := s } },
      { key := "parameters", codec := .list .u32, get := (·.parameters)
        set := fun l f => { f with parameters := l } },
      { key := "blocks", codec := .list blockSchema.codec, get := (·.blocks)
        set := fun l f => { f with blocks := l } } ]

def valueSchema : Schema Value where
  name := "IrValue"
  blank := {}
  fields :=
    [ { key := "id", codec := .u32, get := (·.id)
        set := fun n v => { v with id := n } },
      { key := "type", codec := .text, get := (·.type)
        set := fun s v => { v with type := s } },
      { key := "kind", codec := .text, get := (·.kind)
        set := fun s v => { v with kind := s } },
      { key := "semantic", codec := .optional .text, get := (·.semantic)
        set := fun s v => { v with semantic := s } } ]

def resourceSchema : Schema Resource where
  name := "IrResource"
  blank := {}
  fields :=
    [ { key := "name", codec := .text, get := (·.name)
        set := fun s r => { r with name := s } },
      { key := "kind", codec := .text, get := (·.kind)
        set := fun s r => { r with kind := s } },
      { key := "type", codec := .text, get := (·.type)
        set := fun s r => { r with type := s } },
      { key := "writable", codec := .flag, get := (·.writable)
        set := fun b r => { r with writable := b } } ]

def moduleSchema : Schema Module where
  name := "IrModule"
  blank := {}
  fields :=
    [ { key := "formatVersion", codec := .optional .u32, get := (·.formatVersion)
        set := fun n m => { m with formatVersion := n } },
      { key := "profile", codec := .optional .text, get := (·.profile)
        set := fun p m => { m with profile := p } },
      { key := "entryPoint", codec := .optional entryPointSchema.codec, get := (·.entryPoint)
        set := fun e m => { m with entryPoint := e } },
      { key := "functions", codec := .list functionSchema.codec, get := (·.functions)
        set := fun l m => { m with functions := l } },
      { key := "values", codec := .list valueSchema.codec, get := (·.values)
        set := fun l m => { m with values := l } },
      { key := "resources", codec := .list resourceSchema.codec, get := (·.resources)
        set := fun l m => { m with resources := l } },
      { key := "diagnostics", codec := .list diagnosticSchema.codec, get := (·.diagnostics)
        set := fun l m => { m with diagnostics := l } } ]

end ShaderLegalizer.Wire
