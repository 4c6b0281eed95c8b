import Mathlib.Data.List.Basic
import ShaderLegalizer.Proofs.FixedPoint
import ShaderLegalizer.Proofs.Spelling
import ShaderLegalizer.Proofs.StructurePreservation

/-!
Legalization does not see the case of letters in the names that it interprets. It treats a module as
it treats the folded one: the same rule at each instruction, the same findings, and the same faults
but for the operations they show. Two modules with one folded form therefore have outcomes that
differ only in spelling.
-/

set_option autoImplicit false

namespace ShaderLegalizer

/-! The names that are interpreted: operations, stages, the kinds and semantics of values, and all
three texts of a resource. Types of values, tags, names of functions and ids of blocks are not. -/

def EntryPoint.folded (e : EntryPoint) : EntryPoint :=
  { e with stage := Text.folded e.stage }

def Instruction.folded (i : Instruction) : Instruction :=
  { i with op := Text.folded i.op }

def Value.folded (v : Value) : Value :=
  { v with kind := Text.folded v.kind, semantic := v.semantic.map Text.folded }

def Resource.folded (r : Resource) : Resource :=
  { r with
    name := Text.folded r.name
    kind := Text.folded r.kind
    type := Text.folded r.type }

def Module.folded (m : Module) : Module :=
  { m.mapInstructions Instruction.folded with
    entryPoint := m.entryPoint.map EntryPoint.folded
    values := m.values.map Value.folded
    resources := m.resources.map Resource.folded }

/-- The modules differ at most in the case of ASCII letters in names that are interpreted. -/
def Module.Recased (m m' : Module) : Prop :=
  m.folded = m'.folded

instance (m m' : Module) : Decidable (m.Recased m') :=
  inferInstanceAs (Decidable (m.folded = m'.folded))

/-- Severity and stage of a diagnostic. -/
def Diagnostic.withoutMessage (d : Diagnostic) : Diagnostic :=
  { d with message := "" }

def Module.withoutMessages (m : Module) : Module :=
  m.withDiagnostics (m.diagnostics.map Diagnostic.withoutMessage)

theorem Module.withDiagnostics_withoutMessages (m : Module) (ds : List Diagnostic) :
    (m.withDiagnostics ds).withoutMessages =
      m.withDiagnostics (ds.map Diagnostic.withoutMessage) :=
  rfl

/-- The rule that is applied at each position, by function, block and instruction. -/
def Module.rules (m : Module) (p : Profile) : List (List (List Rule)) :=
  m.functions.map fun f => f.blocks.map fun b => b.instructions.map (Rule.ofInstruction p)

namespace Value

theorem folded_isTemp (v : Value) : v.folded.isTemp = v.isTemp :=
  Text.sameName_folded v.kind "temp"

theorem folded_hasSystemSemantic (v : Value) :
    v.folded.hasSystemSemantic = v.hasSystemSemantic := by
  simp only [hasSystemSemantic, folded, Option.any_map, Text.bytesOpenWith_folded]

theorem folded_folded (v : Value) : v.folded.folded = v.folded := by
  have hs : Text.folded ∘ Text.folded = Text.folded := funext Text.folded_folded
  simp only [folded, Text.folded_folded, Option.map_map, hs]

end Value

namespace Resource

theorem folded_isUav (r : Resource) : r.folded.isUav = r.isUav := by
  simp only [isUav, folded, Text.sameName_folded, Text.mentions_folded]

theorem fold_plainKind (r : Resource) : Text.fold r.folded.plainKind = Text.fold r.plainKind := by
  simp only [Text.fold, plainKind, folded, String.toList_ofList, Text.toList_folded,
    List.filter_map, Text.map_toLower_map_toLower]
  congr 2
  funext c
  rw [Function.comp_apply, Text.toLower_beq c ' ' (by decide) (by decide),
    Text.toLower_beq c '_' (by decide) (by decide), Text.toLower_beq c '-' (by decide) (by decide)]

theorem folded_isRenderTarget (r : Resource) : r.folded.isRenderTarget = r.isRenderTarget := by
  rw [isRenderTarget, isRenderTarget, Text.mentions_congr _ _ _ r.fold_plainKind]
  simp only [folded, Text.cutOpensWith_folded]

theorem folded_folded (r : Resource) : r.folded.folded = r.folded := by
  simp only [folded, Text.folded_folded]

end Resource

theorem EntryPoint.folded_folded (e : EntryPoint) : e.folded.folded = e.folded := by
  simp only [folded, Text.folded_folded]

namespace Instruction

theorem folded_isGradient (i : Instruction) : i.folded.isGradient = i.isGradient := by
  simp only [isGradient, folded, List.any_cons, List.any_nil, Text.sameName_folded]

theorem folded_isTexture (i : Instruction) : i.folded.isTexture = i.isTexture := by
  simp only [isTexture, folded, Text.mentions_folded]

theorem folded_isConditionalBranch (i : Instruction) :
    i.folded.isConditionalBranch = i.isConditionalBranch := by
  simp only [isConditionalBranch, folded, Text.sameName_folded, Text.mentions_folded]

theorem folded_callee? (i : Instruction) : i.folded.callee? = i.callee? := by
  simp only [callee?, folded, Text.sameName_folded]

end Instruction

namespace Rule

theorem ofInstruction_folded (p : Profile) (i : Instruction) :
    ofInstruction p i.folded = ofInstruction p i := by
  by_cases h : i.Tagged
  · rw [ofInstruction_of_tagged p i h, ofInstruction_of_tagged p i.folded h]
  · rw [ofInstruction_of_not_tagged p i h, ofInstruction_of_not_tagged p i.folded h]
    simp only [ofOp, Instruction.folded, Text.mentions_folded, Text.sameName_folded]

theorem apply_folded (i : Instruction) (r : Rule) :
    (r.apply i.folded).folded = (r.apply i).folded := by
  cases r with
  | flatten | unroll | remove => rfl
  | decompose | keep => simp only [apply, Instruction.folded, Text.folded_folded]

theorem notice?_withoutMessage (band : Label) (op op' : String) (r : Rule) :
    (r.notice? band op).map Diagnostic.withoutMessage =
      (r.notice? band op').map Diagnostic.withoutMessage := by
  cases r <;> simp only [notice?, Option.map_some, Option.map_none, Diagnostic.withoutMessage]

end Rule

theorem Instruction.lower_folded (p : Profile) (i : Instruction) :
    (i.folded.lower p).folded = (i.lower p).folded := by
  rw [lower, lower, Rule.ofInstruction_folded, Rule.apply_folded]

theorem Instruction.notice?_folded (p : Profile) (i : Instruction) :
    (i.folded.notice? p).map Diagnostic.withoutMessage =
      (i.notice? p).map Diagnostic.withoutMessage := by
  rw [notice?, notice?, Rule.ofInstruction_folded]
  exact Rule.notice?_withoutMessage _ _ _ _

theorem Block.mapInstructions_mapInstructions (g h : Instruction → Instruction) (b : Block) :
    (b.mapInstructions g).mapInstructions h = b.mapInstructions (h ∘ g) := by
  simp only [mapInstructions, List.map_map]

theorem Function.mapInstructions_mapInstructions (g h : Instruction → Instruction) (f : Function) :
    (f.mapInstructions g).mapInstructions h = f.mapInstructions (h ∘ g) := by
  have hb : Block.mapInstructions h ∘ Block.mapInstructions g = Block.mapInstructions (h ∘ g) :=
    funext fun b => b.mapInstructions_mapInstructions g h
  simp only [mapInstructions, List.map_map, hb]

section Unseen

variable {α : Type} (l : List α) {f : α → α} {uses : α → Bool} (h : ∀ a, uses (f a) = uses a)

include h

theorem countP_map_unseen : (l.map f).countP uses = l.countP uses := by
  rw [List.countP_map]
  exact List.countP_congr fun a _ => by rw [Function.comp_apply, h a]

theorem any_map_unseen : (l.map f).any uses = l.any uses := by
  rw [List.any_map]
  exact congrArg l.any (funext h)

end Unseen

namespace Module

variable (m : Module) (p : Profile)

theorem folded_functions :
    m.folded.functions = m.functions.map (Function.mapInstructions Instruction.folded) :=
  rfl

theorem folded_instructions : m.folded.instructions = m.instructions.map Instruction.folded :=
  m.mapInstructions_instructions _

theorem folded_entryPoint : m.folded.entryPoint = m.entryPoint.map EntryPoint.folded :=
  rfl

theorem folded_isVertexStage : isVertexStage m.folded.entryStage = isVertexStage m.entryStage := by
  rw [entryStage, entryStage, folded_entryPoint]
  cases m.entryPoint with
  | none => rfl
  | some e =>
    change isVertexStage (Text.folded e.stage) = isVertexStage e.stage
    rw [isVertexStage, isVertexStage, Text.opensWith_folded, Text.sameName_folded]

theorem folded_checks : m.folded.checks p = m.checks p := by
  have hl : m.folded.instructions.length = m.instructions.length := by
    rw [folded_instructions, List.length_map]
  have htemp : m.folded.tempCount = m.tempCount := countP_map_unseen _ Value.folded_isTemp
  have htex : m.folded.textureCount = m.textureCount := by
    rw [textureCount, folded_instructions, countP_map_unseen _ Instruction.folded_isTexture]
    rfl
  have hb : m.folded.conditionalBranchCount = m.conditionalBranchCount := by
    rw [conditionalBranchCount, folded_instructions,
      countP_map_unseen _ Instruction.folded_isConditionalBranch]
    rfl
  have hg : m.folded.instructions.any Instruction.isGradient =
      m.instructions.any Instruction.isGradient := by
    rw [folded_instructions, any_map_unseen _ Instruction.folded_isGradient]
  have hs : m.folded.values.any Value.hasSystemSemantic = m.values.any Value.hasSystemSemantic :=
    any_map_unseen _ Value.folded_hasSystemSemantic
  have hu : m.folded.resources.any Resource.isUav = m.resources.any Resource.isUav :=
    any_map_unseen _ Resource.folded_isUav
  have hr : m.folded.resources.any Resource.isRenderTarget =
      m.resources.any Resource.isRenderTarget :=
    any_map_unseen _ Resource.folded_isRenderTarget
  simp only [checks, hl, htemp, htex, hb, hg, hs, hu, hr, folded_isVertexStage]

theorem folded_validate :
    (m.folded.validate p).map Diagnostic.withoutMessage =
      (m.validate p).map Diagnostic.withoutMessage := by
  simp only [validate, findings, folded_checks, List.map_map, Function.comp_def,
    Diagnostic.withoutMessage]

theorem folded_rules : m.folded.rules p = m.rules p := by
  simp only [rules, folded_functions, Function.mapInstructions, Block.mapInstructions,
    List.map_map, Function.comp_def, Rule.ofInstruction_folded]

theorem folded_ruleCount (r : Rule) : m.folded.ruleCount p r = m.ruleCount p r := by
  rw [ruleCount, folded_instructions]
  refine countP_map_unseen _ fun i => ?_
  rw [Rule.ofInstruction_folded]

theorem folded_lower_invalid : (m.folded.lower p).invalid = (m.lower p).invalid := by
  simp only [lower, folded_ruleCount]

theorem folded_lower_statistics : (m.folded.lower p).statistics = (m.lower p).statistics := by
  have hb : m.folded.blocks.length = m.blocks.length := by
    simp only [blocks, folded_functions, List.length_flatMap, List.map_map, Function.comp_def,
      Function.mapInstructions, List.length_map]
  simp only [lower, folded_ruleCount, folded_instructions, folded_functions, List.length_map, hb]

theorem folded_lower_notices :
    (m.folded.lower p).notices.map Diagnostic.withoutMessage =
      (m.lower p).notices.map Diagnostic.withoutMessage := by
  simp only [lower, folded_instructions, List.filterMap_map, List.map_filterMap,
    Function.comp_def, Instruction.notice?_folded]

theorem folded_lower_folded : (m.folded.lower p).module.folded = (m.lower p).module.folded := by
  have he : EntryPoint.folded ∘ EntryPoint.folded = EntryPoint.folded :=
    funext EntryPoint.folded_folded
  have hv : Value.folded ∘ Value.folded = Value.folded := funext Value.folded_folded
  have hr : Resource.folded ∘ Resource.folded = Resource.folded := funext Resource.folded_folded
  have hf (f : Function) : ((f.mapInstructions Instruction.folded).mapInstructions
      (Instruction.lower p)).mapInstructions Instruction.folded =
      (f.mapInstructions (Instruction.lower p)).mapInstructions Instruction.folded := by
    simp only [Function.mapInstructions_mapInstructions]
    exact congrArg (Function.mapInstructions · f) (funext (Instruction.lower_folded p))
  simp only [folded, lower, mapInstructions, withFunctions, List.map_map, Option.map_map, he, hv,
    hr, Function.comp_def, hf]

end Module

def Fault.folded : Fault → Fault
  | .openBlock function block op => .openBlock function block (Text.folded op)
  | .earlyTerminator function block op => .earlyTerminator function block (Text.folded op)
  | .undefinedReference function block op id =>
    .undefinedReference function block (Text.folded op) id
  | fault => fault

theorem Block.folded_faults (function : String) (b : Block) :
    (b.mapInstructions Instruction.folded).faults function =
      (b.faults function).map Fault.folded := by
  simp only [faults, mapInstructions, List.getLast?_map]
  cases b.instructions.getLast? with
  | none => rfl
  | some last =>
    have hearly : ((b.instructions.map Instruction.folded).dropLast.filter
        Instruction.terminator) =
        (b.instructions.dropLast.filter Instruction.terminator).map Instruction.folded := by
      rw [← List.map_dropLast, List.filter_map]
      rfl
    simp only [Option.map_some, hearly, List.map_append, List.map_map]
    cases h : last.terminator <;> simp [Instruction.folded, h, Fault.folded]

theorem Block.folded_referenceFaults (declared : List ValueId) (function : String) (b : Block) :
    (b.mapInstructions Instruction.folded).referenceFaults declared function =
      (b.referenceFaults declared function).map Fault.folded := by
  simp only [referenceFaults, mapInstructions, List.flatMap_map, List.map_flatMap, List.map_map]
  rfl

theorem Function.folded_faults (declared : List ValueId) (f : Function) :
    (f.mapInstructions Instruction.folded).faults declared =
      (f.faults declared).map Fault.folded := by
  simp only [faults, blockFaults, referenceFaults, mapInstructions, List.flatMap_map,
    List.map_append, List.map_flatMap, List.map_map, Block.folded_faults,
    Block.folded_referenceFaults]
  rfl

namespace Module

theorem folded_declaredIds (m : Module) : m.folded.declaredIds = m.declaredIds := by
  change (m.values.map Value.folded).map Value.id = m.values.map Value.id
  rw [List.map_map]
  rfl

theorem folded_definedIds (m : Module) : m.folded.definedIds = m.definedIds := by
  rw [definedIds, folded_instructions, List.filterMap_map]
  rfl

theorem folded_entryFaults (m : Module) :
    m.folded.entryFaults = m.entryFaults.map Fault.folded := by
  have hf (name : String) : (m.folded.function? name).isSome = (m.function? name).isSome :=
    m.mapInstructions_function?_isSome _ name
  rw [entryFaults, entryFaults, folded_entryPoint]
  cases m.entryPoint with
  | none => rfl
  | some e =>
    simp only [Option.map_some, EntryPoint.folded, hf, folded_functions, List.isEmpty_map]
    split <;> rfl

theorem folded_functionFaults (m : Module) :
    m.folded.functionFaults = m.functionFaults.map Fault.folded := by
  simp only [functionFaults, folded_declaredIds, folded_functions, List.flatMap_map,
    List.map_flatMap, Function.folded_faults]

theorem folded_recursionFaults (m : Module) :
    m.folded.recursionFaults = m.recursionFaults.map Fault.folded := by
  have hr : m.folded.recursionFaults = m.recursionFaults :=
    m.mapInstructions_recursionFaults _ Instruction.folded_callee?
  rw [hr]
  simp only [recursionFaults, List.map_filterMap, Option.map_map]
  rfl

theorem folded_faults (m : Module) : m.folded.faults = m.faults.map Fault.folded := by
  simp only [faults, List.map_append, duplicateFaults, definitionFaults, List.map_map,
    folded_declaredIds, folded_definedIds, folded_entryFaults, folded_functionFaults,
    folded_recursionFaults]
  rfl

theorem folded_check (m : Module) :
    m.folded.check.map Diagnostic.withoutMessage = m.check.map Diagnostic.withoutMessage := by
  rw [check, check, folded_faults, List.map_map, List.map_map, List.map_map]
  rfl

theorem folded_newDiagnostics (m : Module) (p : Profile) :
    (m.folded.newDiagnostics check p).map Diagnostic.withoutMessage =
      (m.newDiagnostics check p).map Diagnostic.withoutMessage := by
  have hc : (m.folded.lower p).module.check.map Diagnostic.withoutMessage =
      (m.lower p).module.check.map Diagnostic.withoutMessage := by
    rw [← folded_check, folded_lower_folded, folded_check]
  simp only [newDiagnostics, List.map_append, folded_validate, folded_lower_notices,
    folded_lower_invalid, hc]

end Module

theorem Statistics.recordDiagnostics_withoutMessage (s : Statistics) (ds : List Diagnostic) :
    s.recordDiagnostics (ds.map Diagnostic.withoutMessage) = s.recordDiagnostics ds := by
  simp only [recordDiagnostics, List.countP_map]
  rfl

theorem any_isError_withoutMessage (ds : List Diagnostic) :
    (ds.map Diagnostic.withoutMessage).any Diagnostic.isError = ds.any Diagnostic.isError :=
  any_map_unseen ds fun _ => rfl

namespace Module.Recased

variable {m m' : Module} (h : m.Recased m') (p : Profile)

include h

theorem profile : m.profile = m'.profile := by
  have hp : m.folded.profile = m'.folded.profile := by rw [h]
  exact hp

theorem diagnostics : m.diagnostics = m'.diagnostics := by
  have hd : m.folded.diagnostics = m'.folded.diagnostics := by rw [h]
  exact hd

theorem rules : m.rules p = m'.rules p := by
  rw [← folded_rules, h, folded_rules]

theorem lower_statistics : (m.lower p).statistics = (m'.lower p).statistics := by
  rw [← folded_lower_statistics, h, folded_lower_statistics]

theorem lower_module : (m.lower p).module.Recased (m'.lower p).module := by
  rw [Recased, ← folded_lower_folded, h, folded_lower_folded]

theorem newDiagnostics :
    (m.newDiagnostics check p).map Diagnostic.withoutMessage =
      (m'.newDiagnostics check p).map Diagnostic.withoutMessage := by
  rw [← folded_newDiagnostics, h, folded_newDiagnostics]

theorem effective (override : Option String) :
    (Request.effective { module := m, override := override }).Recased
      (Request.effective { module := m', override := override }) := by
  cases override with
  | none => exact h
  | some o =>
    simp only [Request.effective]
    split
    · exact h
    · exact congrArg (withProfile · o) (show m.folded = m'.folded from h)

theorem withDiagnostics (ds : List Diagnostic) :
    (m.withDiagnostics ds).Recased (m'.withDiagnostics ds) :=
  congrArg (Module.withDiagnostics · ds) (show m.folded = m'.folded from h)

end Module.Recased

/-- Modules that differ at most in the case of ASCII letters in the names that are interpreted have
the same rule at every position, the same statistics and verdict, and diagnostics of the same
severities and stages. They come out as modules that differ in no more than that, messages aside. -/
theorem legalization_ignores_case {m m' : Module} (h : m.Recased m') (override : Option String)
    (b : Band) (hb : (Request.effective { module := m, override := override }).band? = some b) :
    let o := legalize { module := m, override := override }
    let o' := legalize { module := m', override := override }
    m.rules b.profile = m'.rules b.profile ∧
    o.statistics = o'.statistics ∧
    o.invalid = o'.invalid ∧
    o.diagnostics.map Diagnostic.withoutMessage = o'.diagnostics.map Diagnostic.withoutMessage ∧
    o.module.withoutMessages.Recased o'.module.withoutMessages := by
  intro o o'
  have he := h.effective override
  have hb' : (Request.effective { module := m', override := override }).band? = some b := by
    rw [Module.band?, ← he.profile]
    exact hb
  have hd : o.diagnostics.map Diagnostic.withoutMessage =
      o'.diagnostics.map Diagnostic.withoutMessage := by
    rw [legalize_diagnostics _ b hb, legalize_diagnostics _ b hb', List.map_append,
      List.map_append, he.diagnostics, he.newDiagnostics]
  refine ⟨h.rules b.profile, ?_, ?_, hd, ?_⟩
  · rw [legalize_statistics _ b hb, legalize_statistics _ b hb', he.lower_statistics,
      ← Statistics.recordDiagnostics_withoutMessage, hd,
      Statistics.recordDiagnostics_withoutMessage]
  · rw [legalize_invalid, legalize_invalid, ← any_isError_withoutMessage, hd,
      any_isError_withoutMessage]
  · rw [legalize_module _ b hb, legalize_module _ b hb']
    rw [Module.withDiagnostics_withoutMessages, Module.withDiagnostics_withoutMessages, hd]
    exact (he.lower_module b.profile).withDiagnostics _

def objectionable (branch sample call temp semantic target stage : String) : Module where
  profile := some "ps_2_0"
  entryPoint := some { function := "main", stage := stage }
  values := [{ id := 1, kind := temp, semantic := some semantic }]
  resources := [{ name := target, kind := "Render_Target", type := "float4" }]
  functions :=
    [ { name := "main", blocks := [{ id := "a", instructions :=
        [ { op := branch, operands := [1, 9] },
          { op := sample, result := some 1 },
          { op := call, tag := some "main" },
          { op := "UnknownOp" } ] }] } ]

theorem legalization_ignores_case_objectionable :
    let m := objectionable "BranchCond" "TexSample" "Call" "Temp" "SV_Position" "Color0" "vs_é"
    let m' := objectionable "bRANCHcOND" "TEXSAMPLE" "cALL" "TEMP" "sv_position" "COLOR0" "VS_é"
    m.Recased m' ∧
    (legalize { module := m }).invalid = (legalize { module := m' }).invalid ∧
    (legalize { module := m }).statistics = (legalize { module := m' }).statistics ∧
    (legalize { module := m }).diagnostics ≠ (legalize { module := m' }).diagnostics := by
  intro m m'
  have hm : m.Recased m' := by decide +kernel
  have h := legalization_ignores_case hm none .sm2 (by decide +kernel)
  exact ⟨hm, h.2.2.1, h.2.1, by decide +kernel⟩

end ShaderLegalizer
