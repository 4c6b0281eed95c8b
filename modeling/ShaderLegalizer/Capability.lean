import ShaderLegalizer.Module
import ShaderLegalizer.Profile

/-!
Where a module exceeds a profile. There are nine kinds of finding; each is made at most once, in a
fixed order, and none depends on another. Operations are recognised by words in their names, so
that vendor spellings count too.
-/

set_option autoImplicit false

namespace ShaderLegalizer

namespace Instruction

def isGradient (i : Instruction) : Bool :=
  ["ddx", "ddy", "dsx", "dsy"].any (Text.sameName i.op)

def isTexture (i : Instruction) : Bool :=
  Text.mentions i.op "tex" || Text.mentions i.op "sample"

/-- A branch that takes its successor from a value: one that says so, or any with operands. -/
def isConditionalBranch (i : Instruction) : Bool :=
  Text.sameName i.op "branchcond" || (Text.mentions i.op "branch" && !i.operands.isEmpty)

end Instruction

namespace Resource

def isUav (r : Resource) : Bool :=
  r.writable || Text.sameName r.kind "uav" || Text.mentions r.type "uav"

/-- The kind without the characters that spellings of it differ in. -/
def plainKind (r : Resource) : String :=
  String.ofList (r.kind.toList.filter fun c => !(c == ' ' || c == '_' || c == '-'))

def isRenderTarget (r : Resource) : Bool :=
  Text.mentions r.plainKind "rendertarget" || Text.cutOpensWith r.name "color"

end Resource

inductive Finding where
  | instructionBudget (count limit : Nat)
  | tempBudget (count limit : Nat)
  | gradient
  | systemSemantic
  | textureBudget (count limit : Nat)
  | vertexTextureFetch
  | typedUav
  | renderTarget
  | dynamicBranching (count : Nat)
deriving DecidableEq, Repr

namespace Finding

def message (band : Label) (stage : String) : Finding → String
  | .instructionBudget count limit =>
    s!"Instruction count {count} exceeds profile limit {limit} for {band.name}."
  | .tempBudget count limit =>
    s!"Temporary register count {count} exceeds profile limit {limit} for {band.name}."
  | .gradient =>
    s!"Gradient operations are not supported in profile {band.name} (stage: {stage})."
  | .systemSemantic => s!"SV semantics are not allowed in profile {band.name}."
  | .textureBudget count limit =>
    s!"Texture instruction count {count} exceeds profile limit {limit} for {band.name}."
  | .vertexTextureFetch => s!"Vertex texture fetch is not supported in profile {band.name}."
  | .typedUav => s!"Typed UAVs are not supported in profile {band.name}."
  | .renderTarget => s!"Multiple render targets are not supported in profile {band.name}."
  | .dynamicBranching count =>
    s!"Dynamic branching is not supported in profile {band.name} (stage: {stage}); " ++
      s!"{count} conditional branch(es) flattened to select form."

end Finding

def legalizeStage : String := "legalize"

def exceeded? (count : Nat) (limit : Option Nat) : Option Nat :=
  limit.filter fun max => max < count

namespace Module

def textureCount (m : Module) : Nat :=
  m.instructions.countP Instruction.isTexture

def conditionalBranchCount (m : Module) : Nat :=
  m.instructions.countP Instruction.isConditionalBranch

def checks (m : Module) (p : Profile) : List (Option Finding) :=
  let count := m.instructions.length
  let textures := m.textureCount
  let branches := m.conditionalBranchCount
  [ (exceeded? count p.instructionSlots).map (.instructionBudget count),
    (exceeded? m.tempCount p.tempRegisters).map (.tempBudget m.tempCount),
    if !p.gradients && m.instructions.any Instruction.isGradient then some .gradient else none,
    if !p.systemSemantics && m.values.any Value.hasSystemSemantic then some .systemSemantic
      else none,
    (exceeded? textures p.textureLimit).map (.textureBudget textures),
    if !p.vertexTextureFetch && isVertexStage m.entryStage && 0 < textures then
      some .vertexTextureFetch else none,
    if !p.typedUavs && m.resources.any Resource.isUav then some .typedUav else none,
    if p.renderTargets == some 0 && m.resources.any Resource.isRenderTarget then
      some .renderTarget else none,
    if !p.dynamicBranching && 0 < branches then some (.dynamicBranching branches) else none ]

def findings (m : Module) (p : Profile) : List Finding :=
  (m.checks p).filterMap id

def validate (m : Module) (p : Profile) : List Diagnostic :=
  (m.findings p).map fun f =>
    { severity := .error, message := f.message p.band m.entryStage, stage := legalizeStage }

end Module

end ShaderLegalizer
