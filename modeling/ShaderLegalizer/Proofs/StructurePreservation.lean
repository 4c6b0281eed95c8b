import Mathlib.Data.List.Basic
import ShaderLegalizer.Proofs.LoweringSteps
import ShaderLegalizer.Proofs.WellFormed

set_option autoImplicit false

namespace ShaderLegalizer

theorem Rule.ofInstruction_call (p : Profile) (i : Instruction)
    (h : Text.sameName i.op "call" = true) : ofInstruction p i = .keep := by
  by_cases ht : i.Tagged
  · exact ofInstruction_of_tagged p i ht
  · rw [ofInstruction_of_not_tagged p i ht, ofOp_eq_keep_iff, Text.sameName,
      (Text.sameName_iff i.op "call").1 h]
    simp only [Text.mentions_of_sameName h]
    exact ⟨fun _ => rfl, fun _ => rfl, rfl, rfl, rfl⟩

namespace Instruction

theorem lower_callee? (p : Profile) (i : Instruction) : (i.lower p).callee? = i.callee? := by
  by_cases hc : Text.sameName i.op "call" = true
  · rw [lower_of_keep p i (Rule.ofInstruction_call p i hc)]
  · have hl : ¬ Text.sameName (i.lower p).op "call" = true := fun h =>
      hc (op_of_lower (fun op => Text.sameName op "call") (by decide) p i h)
    rw [callee?, callee?, if_neg hc, if_neg hl]

theorem result_of_lower (p : Profile) (i : Instruction) (id : ValueId)
    (h : (i.lower p).result = some id) : i.result = some id := by
  rw [lower, Rule.apply_result] at h
  split at h
  · cases h
  · exact h

theorem references_of_lower (p : Profile) (i : Instruction) (id : ValueId)
    (h : id ∈ (i.lower p).references) : id ∈ i.references := by
  rcases List.mem_append.1 h with h | h
  · apply List.mem_append_left
    rw [lower, Rule.apply_operands] at h
    split at h
    · cases h
    · exact h
  · have hr : id ∈ i.result := result_of_lower p i id (Option.mem_toList.1 h)
    exact List.mem_append_right _ (Option.mem_toList.2 hr)

end Instruction

namespace Module

section MapInstructions

variable (m : Module) (g : Instruction → Instruction)

theorem mapInstructions_functions :
    (m.mapInstructions g).functions = m.functions.map (Function.mapInstructions g) :=
  rfl

theorem mapInstructions_lastPosition? (name : String) :
    (m.mapInstructions g).lastPosition? name = m.lastPosition? name := by
  rw [lastPosition?, mapInstructions_functions, List.zipIdx_map, List.filter_map,
    List.getLast?_map, Option.map_map]
  rfl

theorem mapInstructions_function?_isSome (name : String) :
    ((m.mapInstructions g).function? name).isSome = (m.function? name).isSome := by
  rw [function?, mapInstructions_functions, List.find?_map, Option.isSome_map]
  rfl

variable (hg : ∀ i : Instruction, (g i).callee? = i.callee?)

include hg

theorem mapInstructions_calleePositions (f : Function) :
    (m.mapInstructions g).calleePositions (f.mapInstructions g) = m.calleePositions f := by
  unfold calleePositions
  rw [Function.mapInstructions_instructions, List.filterMap_map]
  congr 2
  funext i
  simp only [Function.comp_apply, hg]
  congr 1
  funext name
  exact m.mapInstructions_lastPosition? g name

theorem mapInstructions_callGraph : (m.mapInstructions g).callGraph = m.callGraph := by
  unfold callGraph
  rw [mapInstructions_functions, List.map_map]
  congr 2
  funext f
  exact m.mapInstructions_calleePositions g hg f

theorem mapInstructions_recursionFaults :
    (m.mapInstructions g).recursionFaults = m.recursionFaults := by
  unfold recursionFaults
  rw [mapInstructions_callGraph m g hg, mapInstructions_functions]
  congr 1
  funext i
  rw [List.getElem?_map, Option.map_map]
  rfl

end MapInstructions

variable (m : Module) (p : Profile)

theorem lower_functions :
    (m.lower p).module.functions =
      m.functions.map (Function.mapInstructions (Instruction.lower p)) :=
  rfl

theorem lower_values : (m.lower p).module.values = m.values :=
  rfl

theorem lower_declares : (m.lower p).module.Declares = m.Declares :=
  rfl

theorem lower_recursionFaults : (m.lower p).module.recursionFaults = m.recursionFaults :=
  m.mapInstructions_recursionFaults _ (Instruction.lower_callee? p)

theorem lower_function?_isSome (name : String) :
    ((m.lower p).module.function? name).isSome = (m.function? name).isSome :=
  m.mapInstructions_function?_isSome _ name

theorem lower_entryFaults : (m.lower p).module.entryFaults = m.entryFaults := by
  unfold entryFaults
  simp only [lower_function?_isSome, lower_functions, List.isEmpty_map]
  rfl

end Module

/-- The faults that depend on nothing lowering can touch. -/
def Fault.isFixed : Fault → Bool
  | .duplicateValue _ | .missingEntry _ | .emptyBlock _ _ | .recursion _ => true
  | .openBlock _ _ _ | .earlyTerminator _ _ _ | .undefinedParameter _ _
  | .undefinedReference _ _ _ _ | .multipleDefinition _ => false

theorem Block.filter_faults (function : String) (b : Block) :
    (b.faults function).filter Fault.isFixed =
      if b.instructions.isEmpty then [.emptyBlock function b.id] else [] := by
  unfold faults
  cases h : b.instructions.getLast? with
  | none =>
    rw [List.getLast?_eq_none_iff.1 h]
    rfl
  | some last =>
    have hne : b.instructions.isEmpty = false := by
      rw [List.isEmpty_eq_false_iff]
      intro he
      rw [he] at h
      cases h
    simp only [hne, List.filter_append, List.filter_map, Bool.false_eq_true, if_false]
    split <;> simp [Fault.isFixed, Function.comp_def]

theorem Function.filter_faults (declared : List ValueId) (f : Function) :
    (f.faults declared).filter Fault.isFixed =
      f.blocks.flatMap fun b =>
        if b.instructions.isEmpty then [.emptyBlock f.name b.id] else [] := by
  have hr : (f.referenceFaults declared).filter Fault.isFixed = [] := by
    refine List.filter_eq_nil_iff.2 fun a ha => ?_
    rcases List.mem_append.1 ha with ha | ha
    · obtain ⟨id, -, rfl⟩ := List.mem_map.1 ha
      exact Bool.false_ne_true
    · obtain ⟨b, -, hb⟩ := List.mem_flatMap.1 ha
      obtain ⟨i, -, hi⟩ := List.mem_flatMap.1 hb
      obtain ⟨id, -, rfl⟩ := List.mem_map.1 hi
      exact Bool.false_ne_true
  rw [faults, List.filter_append, hr, List.append_nil, blockFaults, List.filter_flatMap]
  simp only [Block.filter_faults]

namespace Module

variable (m : Module) (p : Profile)

theorem lower_filter_functionFaults :
    (m.lower p).module.functionFaults.filter Fault.isFixed =
      m.functionFaults.filter Fault.isFixed := by
  unfold functionFaults
  simp only [List.filter_flatMap, lower_functions, List.flatMap_map, Function.filter_faults,
    Function.mapInstructions, Block.mapInstructions, List.isEmpty_map]

theorem lower_filter_faults :
    (m.lower p).module.faults.filter Fault.isFixed = m.faults.filter Fault.isFixed := by
  have hd (n : Module) : n.definitionFaults.filter Fault.isFixed = [] := by
    simp [definitionFaults, Fault.isFixed]
  simp only [faults, List.filter_append, lower_filter_functionFaults, hd, lower_entryFaults,
    lower_recursionFaults]
  rfl

end Module

/-- The fault of a block whose last instruction is replaced. -/
def Block.opening? (p : Profile) (function : String) (b : Block) : Option Fault :=
  b.instructions.getLast?.bind fun last =>
    if (Rule.ofInstruction p last).replaces then
      some (.openBlock function b.id (last.lower p).op)
    else none

theorem Block.lower_faults (p : Profile) (function : String) (b : Block) (h : b.Terminated) :
    (b.mapInstructions (Instruction.lower p)).faults function =
      (b.opening? p function).toList := by
  obtain ⟨body, last, hb, ht, hn⟩ := h
  have hl : (b.mapInstructions (Instruction.lower p)).instructions =
      body.map (Instruction.lower p) ++ [last.lower p] := by
    rw [mapInstructions, hb, List.map_append]
    rfl
  have hearly : (body.map (Instruction.lower p)).filter Instruction.terminator = [] := by
    refine List.filter_eq_nil_iff.2 fun i hi => ?_
    obtain ⟨j, hj, rfl⟩ := List.mem_map.1 hi
    rw [Instruction.lower_terminator, hn j hj]
    simp
  rw [faults, hl, List.getLast?_concat, List.dropLast_concat, opening?, hb, List.getLast?_concat,
    Option.bind_some]
  simp only [hearly, List.map_nil, List.append_nil, Instruction.lower_terminator, ht,
    Bool.true_and]
  cases (Rule.ofInstruction p last).replaces <;> rfl

theorem Function.lower_faults (p : Profile) (declared : List ValueId) (f : Function)
    (h : f.faults declared = []) :
    (f.mapInstructions (Instruction.lower p)).faults declared =
      f.blocks.filterMap (Block.opening? p f.name) := by
  obtain ⟨hb, hparam, hi⟩ := (f.faults_eq_nil_iff declared).1 h
  have hr : (f.mapInstructions (Instruction.lower p)).referenceFaults declared = [] := by
    refine (Function.referenceFaults_eq_nil_iff _ _).2 ⟨hparam, ?_⟩
    intro i hmem id hid
    rw [mapInstructions_instructions] at hmem
    obtain ⟨j, hj, rfl⟩ := List.mem_map.1 hmem
    exact hi j hj id (j.references_of_lower p id hid)
  rw [faults, hr, List.append_nil, blockFaults, mapInstructions, List.flatMap_map,
    List.filterMap_eq_flatMap_toList]
  exact List.flatMap_congr fun b hmem => b.lower_faults p f.name (hb b hmem)

namespace Module

/-- The blocks that lose their terminator, in program order. -/
def openings (m : Module) (p : Profile) : List Fault :=
  m.functions.flatMap fun f => f.blocks.filterMap (Block.opening? p f.name)

variable (m : Module) (p : Profile)

theorem lower_functionFaults (h : m.functionFaults = []) :
    (m.lower p).module.functionFaults = m.openings p := by
  rw [functionFaults, lower_functions, List.flatMap_map]
  refine List.flatMap_congr fun f hf => ?_
  exact f.lower_faults p m.declaredIds (List.flatMap_eq_nil_iff.1 h f hf)

theorem lower_definitionFaults (h : m.definitionFaults = []) :
    (m.lower p).module.definitionFaults = [] := by
  rw [definitionFaults_eq_nil_iff] at h ⊢
  rw [lower_instructions, List.pairwise_map]
  refine h.imp fun {i j} hij id hi hj => ?_
  exact hij id (i.result_of_lower p id hi) (j.result_of_lower p id hj)

theorem lower_faults (h : m.faults = []) : (m.lower p).module.faults = m.openings p := by
  simp only [faults, List.append_eq_nil_iff] at h
  obtain ⟨⟨⟨⟨hv, he⟩, hf⟩, hd⟩, hr⟩ := h
  have hv' : (m.lower p).module.duplicateFaults = [] := hv
  rw [faults, hv', lower_entryFaults, he, lower_functionFaults m p hf,
    lower_definitionFaults m p hd, lower_recursionFaults, hr]
  simp

theorem lower_check (h : m.check = []) :
    (m.lower p).module.check = (m.openings p).map Fault.diagnostic := by
  rw [check, m.lower_faults p (List.map_eq_nil_iff.1 h)]

/-- Lowering leaves the faults of values, entry point, empty blocks and recursion as they are. It
makes of a module without faults one that has exactly an open block for each block whose last
instruction is replaced. -/
theorem lowering_faults_exact (m : Module) (p : Profile) :
    (m.lower p).module.faults.filter Fault.isFixed = m.faults.filter Fault.isFixed ∧
      (m.check = [] → (m.lower p).module.check = (m.openings p).map Fault.diagnostic) := by
  exact ⟨m.lower_filter_faults p, m.lower_check p⟩

theorem lowering_faults_exact_callChain :
    (callChain { op := "Branch", terminator := true }).check = [] ∧
      ((callChain { op := "Branch", terminator := true }).lower Band.sm2.profile).module.check =
        [(Fault.openBlock "shade" "b" "Nop").diagnostic] := by
  have h : (callChain { op := "Branch", terminator := true }).check = [] := by decide +kernel
  refine ⟨h, ?_⟩
  rw [(lowering_faults_exact _ Band.sm2.profile).2 h]
  decide +kernel

end Module

end ShaderLegalizer
