import Mathlib.Data.List.Forall2
import ShaderLegalizer.Proofs.Acceptance
import ShaderLegalizer.Proofs.LoweringSteps

set_option autoImplicit false

namespace ShaderLegalizer

structure Instruction.SameData (i j : Instruction) : Prop where
  operands : j.operands = i.operands
  result : j.result = i.result
  type : j.type = i.type

structure Instruction.SameTransfer (i j : Instruction) : Prop where
  op : j.op = i.op
  operands : j.operands = i.operands
  terminator : j.terminator = i.terminator

structure Block.SameFlow (b c : Block) : Prop where
  id : c.id = b.id
  data : List.Forall₂ Instruction.SameData b.instructions c.instructions
  ending : Option.Rel Instruction.SameTransfer b.instructions.getLast? c.instructions.getLast?

structure Function.SameFlow (f g : Function) : Prop where
  name : g.name = f.name
  returnType : g.returnType = f.returnType
  parameters : g.parameters = f.parameters
  blocks : List.Forall₂ Block.SameFlow f.blocks g.blocks

namespace Instruction

theorem lower_sameData (p : Profile) (i : Instruction) (h : Rule.ofInstruction p i ≠ .remove) :
    i.SameData (i.lower p) where
  operands := by rw [lower, Rule.apply_operands, if_neg h]
  result := by rw [lower, Rule.apply_result, if_neg h]
  type := Rule.apply_type i _

theorem lower_sameTransfer (p : Profile) (i : Instruction) (h : (i.lower p).terminator = true) :
    i.SameTransfer (i.lower p) := by
  rcases lower_cases p i with ⟨-, hf⟩ | ⟨t, ht⟩
  · rw [hf] at h
    cases h
  · rw [ht]
    exact ⟨rfl, rfl, rfl⟩

end Instruction

theorem Block.Terminated.last {b : Block} (h : b.Terminated) (last : Instruction)
    (hl : b.instructions.getLast? = some last) : last.terminator = true := by
  obtain ⟨body, last', hb, ht, -⟩ := h
  rw [hb, List.getLast?_concat] at hl
  rw [← Option.some.inj hl]
  exact ht

theorem Block.lower_sameFlow (p : Profile) (b : Block)
    (hr : ∀ i ∈ b.instructions, Rule.ofInstruction p i ≠ .remove)
    (ht : (b.mapInstructions (Instruction.lower p)).Terminated) :
    b.SameFlow (b.mapInstructions (Instruction.lower p)) where
  id := rfl
  data := by
    refine List.forall₂_map_right_iff.2 (List.forall₂_same.2 ?_)
    intro i hi
    exact i.lower_sameData p (hr i hi)
  ending := by
    have hmap : (b.mapInstructions (Instruction.lower p)).instructions.getLast? =
        b.instructions.getLast?.map (Instruction.lower p) := List.getLast?_map
    cases hl : b.instructions.getLast? with
    | none =>
      rw [hmap, hl]
      exact .none
    | some last =>
      rw [hl] at hmap
      rw [hmap]
      exact .some (last.lower_sameTransfer p (ht.last _ hmap))

theorem Function.lower_sameFlow (p : Profile) (f : Function)
    (hr : ∀ i ∈ f.instructions, Rule.ofInstruction p i ≠ .remove)
    (ht : ∀ b ∈ f.blocks, (b.mapInstructions (Instruction.lower p)).Terminated) :
    f.SameFlow (f.mapInstructions (Instruction.lower p)) where
  name := rfl
  returnType := rfl
  parameters := rfl
  blocks := by
    refine List.forall₂_map_right_iff.2 (List.forall₂_same.2 ?_)
    intro b hb
    exact b.lower_sameFlow p (fun i hi => hr i (List.mem_flatMap.2 ⟨b, hb, hi⟩)) (ht b hb)

theorem Module.WellFormed.lower_blocks {m : Module} {p : Profile}
    (h : (m.lower p).module.WellFormed) :
    ∀ f ∈ m.functions, ∀ b ∈ f.blocks,
      (b.mapInstructions (Instruction.lower p)).Terminated := by
  intro f hf b hb
  exact h.blocks _ (List.mem_map_of_mem hf) _ (List.mem_map_of_mem hb)

theorem Module.lower_sameFlow (m : Module) (p : Profile)
    (hr : ∀ i ∈ m.instructions, Rule.ofInstruction p i ≠ .remove)
    (hw : (m.lower p).module.WellFormed) :
    List.Forall₂ Function.SameFlow m.functions (m.lower p).module.functions := by
  refine List.forall₂_map_right_iff.2 (List.forall₂_same.2 ?_)
  intro f hf
  exact f.lower_sameFlow p (fun i hi => hr i (List.mem_flatMap.2 ⟨f, hf, hi⟩))
    (hw.lower_blocks f hf)

/-- A valid legalization gives the same functions and blocks, instruction by instruction with the
same operands, results and types, and the same end of each block. All else but the diagnostics is
that of the request, whose override replaces the profile unless it is blank. -/
theorem valid_legalization_keeps_flow (r : Request) (h : (legalize r).invalid = false) :
    List.Forall₂ Function.SameFlow r.module.functions (legalize r).module.functions ∧
    (legalize r).module.formatVersion = r.module.formatVersion ∧
    (legalize r).module.entryPoint = r.module.entryPoint ∧
    (legalize r).module.values = r.module.values ∧
    (legalize r).module.resources = r.module.resources ∧
    (legalize r).module.profile =
      (r.override.filter fun o => !Text.isBlankText o).or r.module.profile := by
  obtain ⟨b, hb, -, hr, hw⟩ := of_legalize_valid r h
  have hflow := r.effective.lower_sameFlow b.profile hr hw
  rw [legalize, legalizeWith_module _ r b hb]
  rw [r.effective_eq] at hflow ⊢
  exact ⟨hflow, rfl, rfl, rfl, rfl, rfl⟩

def selectRequest : Request where
  override := some " "
  module :=
    { profile := some "ps_2_0"
      values := [{ id := 1 }, { id := 2 }]
      functions :=
        [ { name := "main", parameters := [1], blocks := [{ id := "a", instructions :=
            [ { op := "BranchSelect", result := some 2, type := some "float" },
              { op := "NORMALIZE", operands := [2], terminator := true } ] }] } ] }

theorem valid_legalization_keeps_flow_selectRequest :
    (legalize selectRequest).statistics.changes = 2 ∧
      List.Forall₂ Function.SameFlow selectRequest.module.functions
        (legalize selectRequest).module.functions :=
  ⟨by decide +kernel, (valid_legalization_keeps_flow selectRequest (by decide +kernel)).1⟩

end ShaderLegalizer
