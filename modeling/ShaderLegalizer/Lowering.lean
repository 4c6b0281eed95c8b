import ShaderLegalizer.Capability
import ShaderLegalizer.Statistics

/-!
Lowering a module to a profile. Each instruction is looked at on its own and stays where it is. A
rule is chosen by words in the name of the operation, branches before loops before the rest. A
lowered instruction carries the tag of its rule and is left alone from then on.
-/

set_option autoImplicit false

namespace ShaderLegalizer

inductive Rule where
  | flatten
  | unroll
  | decompose
  | remove
  | keep
deriving DecidableEq, Repr

namespace Rule

def tag? : Rule → Option String
  | .flatten => some "flattened"
  | .unroll => some "unrolled"
  | .decompose => some "normalize.rewritten"
  | .remove => some "removed"
  | .keep => none

def tags : List String := [flatten, unroll, decompose, remove].filterMap tag?

def ofOp (p : Profile) (op : String) : Rule :=
  if !p.dynamicBranching && Text.mentions op "branch" then .flatten
  else if !p.loops && Text.mentions op "loop" then .unroll
  else if Text.sameName op "normalize" then .decompose
  else if Text.mentions op "unsupported" || Text.mentions op "unknown" then .remove
  else .keep

/-- The rule for an instruction, which is left alone if it carries the tag of one. -/
def ofInstruction (p : Profile) (i : Instruction) : Rule :=
  match i.tag with
  | some t => if t ∈ tags then .keep else ofOp p i.op
  | none => ofOp p i.op

def apply (i : Instruction) : Rule → Instruction
  | .flatten =>
    { i with
      op := if i.result.isSome then "Select" else "Nop"
      terminator := false
      tag := tag? .flatten }
  | .unroll => { i with op := "LoopUnrolled", terminator := false, tag := tag? .unroll }
  | .decompose => { i with tag := tag? .decompose }
  | .remove =>
    { i with
      op := "Nop"
      operands := []
      result := none
      terminator := false
      tag := tag? .remove }
  | .keep => i

def notice? (band : Label) (op : String) : Rule → Option Diagnostic
  | .flatten =>
    some ⟨.info, s!"Flattened branch-like op '{op}' for profile {band.name}.", legalizeStage⟩
  | .unroll =>
    some ⟨.info, s!"Unrolled loop-like op '{op}' for profile {band.name}.", legalizeStage⟩
  | .decompose =>
    some ⟨.info, "Rewriting 'normalize' using backend-neutral ops (dot + rsq + mul).",
      legalizeStage⟩
  | .remove => some ⟨.error, s!"Removed unsupported op '{op}'.", legalizeStage⟩
  | .keep => none

end Rule

namespace Instruction

def lower (p : Profile) (i : Instruction) : Instruction :=
  (Rule.ofInstruction p i).apply i

def notice? (p : Profile) (i : Instruction) : Option Diagnostic :=
  (Rule.ofInstruction p i).notice? p.band i.op

end Instruction

def Block.mapInstructions (f : Instruction → Instruction) (b : Block) : Block :=
  { b with instructions := b.instructions.map f }

def Function.mapInstructions (f : Instruction → Instruction) (fn : Function) : Function :=
  { fn with blocks := fn.blocks.map (Block.mapInstructions f) }

def Module.mapInstructions (f : Instruction → Instruction) (m : Module) : Module :=
  m.withFunctions (m.functions.map (Function.mapInstructions f))

structure Lowered where
  module : Module
  notices : List Diagnostic
  invalid : Bool
  statistics : Statistics
deriving DecidableEq, Repr

namespace Module

def ruleCount (m : Module) (p : Profile) (r : Rule) : Nat :=
  m.instructions.countP fun i => Rule.ofInstruction p i == r

/-- Lowers every instruction to the profile. The diagnostics that the module carries stay. -/
def lower (m : Module) (p : Profile) : Lowered where
  module := m.mapInstructions (Instruction.lower p)
  notices := m.instructions.filterMap (Instruction.notice? p)
  invalid := decide (0 < m.ruleCount p .remove)
  statistics :=
    { functions := m.functions.length
      blocks := m.blocks.length
      instructions := m.instructions.length
      branchesFlattened := m.ruleCount p .flatten
      loopsUnrolled := m.ruleCount p .unroll
      intrinsicsDecomposed := m.ruleCount p .decompose
      opsRemoved := m.ruleCount p .remove }

end Module

end ShaderLegalizer
