import ShaderLegalizer.Structure.Fault
import ShaderLegalizer.Structure.Walk

/-!
The structural check of a module. It reports, in this order: value ids declared twice, an entry
point that names no function, for each function first its blocks and then its references, values
defined twice, and recursion.
-/

set_option autoImplicit false

namespace ShaderLegalizer

/-- The elements that occur at least twice, each once, in the order of their second occurrence. -/
def repeats {α : Type} [DecidableEq α] (l : List α) : List α :=
  go [] l
where
  go (before : List α) : List α → List α
    | [] => []
    | a :: l => if before.count a = 1 then a :: go (a :: before) l else go (a :: before) l

/-- The ids that an instruction refers to: its operands, then its result. -/
def Instruction.references (i : Instruction) : List ValueId :=
  i.operands ++ i.result.toList

namespace Block

/-- The faults of a block by itself. An open end comes before early terminators. -/
def faults (function : String) (b : Block) : List Fault :=
  match b.instructions.getLast? with
  | none => [.emptyBlock function b.id]
  | some last =>
    (if last.terminator then [] else [.openBlock function b.id last.op]) ++
      (b.instructions.dropLast.filter Instruction.terminator).map fun i =>
        .earlyTerminator function b.id i.op

def referenceFaults (declared : List ValueId) (function : String) (b : Block) : List Fault :=
  b.instructions.flatMap fun i =>
    (i.references.filter fun id => !declared.contains id).map fun id =>
      .undefinedReference function b.id i.op id

end Block

namespace Function

def blockFaults (f : Function) : List Fault :=
  f.blocks.flatMap (Block.faults f.name)

def referenceFaults (declared : List ValueId) (f : Function) : List Fault :=
  ((f.parameters.filter fun id => !declared.contains id).map fun id =>
    .undefinedParameter f.name id) ++
    f.blocks.flatMap (Block.referenceFaults declared f.name)

def faults (declared : List ValueId) (f : Function) : List Fault :=
  f.blockFaults ++ f.referenceFaults declared

end Function

namespace Module

def declaredIds (m : Module) : List ValueId :=
  m.values.map Value.id

def definedIds (m : Module) : List ValueId :=
  m.instructions.filterMap Instruction.result

def duplicateFaults (m : Module) : List Fault :=
  (repeats m.declaredIds).map .duplicateValue

/-- An entry point must name a function, unless the module has none or the name is empty. -/
def entryFaults (m : Module) : List Fault :=
  match m.entryPoint with
  | none => []
  | some e =>
    if m.functions.isEmpty || e.function.isEmpty || (m.function? e.function).isSome then []
    else [.missingEntry e.function]

def functionFaults (m : Module) : List Fault :=
  m.functions.flatMap (Function.faults m.declaredIds)

def definitionFaults (m : Module) : List Fault :=
  (repeats m.definedIds).map .multipleDefinition

def recursionFaults (m : Module) : List Fault :=
  m.callGraph.recursive.filterMap fun i => (m.functions[i]?).map fun f => .recursion f.name

def faults (m : Module) : List Fault :=
  m.duplicateFaults ++ m.entryFaults ++ m.functionFaults ++ m.definitionFaults ++
    m.recursionFaults

def check (m : Module) : List Diagnostic :=
  m.faults.map Fault.diagnostic

end Module

end ShaderLegalizer
