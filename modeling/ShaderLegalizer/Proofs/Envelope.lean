import Mathlib.Data.List.Basic
import ShaderLegalizer.Capability

set_option autoImplicit false

namespace ShaderLegalizer.Module

structure WithinEnvelope (m : Module) (p : Profile) : Prop where
  instructions : ∀ max, p.instructionSlots = some max → m.instructions.length ≤ max
  temps : ∀ max, p.tempRegisters = some max → m.values.countP Value.isTemp ≤ max
  textures : ∀ max, p.textureLimit = some max →
    m.instructions.countP Instruction.isTexture ≤ max
  gradients : p.gradients = false → ∀ i ∈ m.instructions, i.isGradient = false
  semantics : p.systemSemantics = false → ∀ v ∈ m.values, v.hasSystemSemantic = false
  vertexTextures : p.vertexTextureFetch = false → isVertexStage m.entryStage = true →
    ∀ i ∈ m.instructions, i.isTexture = false
  uavs : p.typedUavs = false → ∀ r ∈ m.resources, r.isUav = false
  renderTargets : p.renderTargets = some 0 → ∀ r ∈ m.resources, r.isRenderTarget = false
  branches : p.dynamicBranching = false → ∀ i ∈ m.instructions, i.isConditionalBranch = false

theorem exceeded?_map_eq_none_iff (count : Nat) (limit : Option Nat) (f : Nat → Finding) :
    (exceeded? count limit).map f = none ↔ ∀ max, limit = some max → count ≤ max := by
  cases limit with
  | none => simp [exceeded?]
  | some max => simp [exceeded?]

theorem lacking_any_iff {α : Type} (feature : Bool) (l : List α) (uses : α → Bool) (f : Finding) :
    (if !feature && l.any uses then some f else none) = none ↔
      (feature = false → ∀ a ∈ l, uses a = false) := by
  cases feature with
  | false => simp
  | true => simp

theorem checks_eq_none_iff (m : Module) (p : Profile) :
    (∀ c ∈ m.checks p, c = none) ↔ m.WithinEnvelope p := by
  have hv : (if !p.vertexTextureFetch && isVertexStage m.entryStage && 0 < m.textureCount then
      some Finding.vertexTextureFetch else none) = none ↔
      (p.vertexTextureFetch = false → isVertexStage m.entryStage = true →
        ∀ i ∈ m.instructions, i.isTexture = false) := by
    simp [textureCount]
  have hr : (if p.renderTargets == some 0 && m.resources.any Resource.isRenderTarget then
      some Finding.renderTarget else none) = none ↔
      (p.renderTargets = some 0 → ∀ r ∈ m.resources, r.isRenderTarget = false) := by
    simp
  have hb : (if !p.dynamicBranching && 0 < m.conditionalBranchCount then
      some (Finding.dynamicBranching m.conditionalBranchCount) else none) = none ↔
      (p.dynamicBranching = false → ∀ i ∈ m.instructions, i.isConditionalBranch = false) := by
    simp [conditionalBranchCount]
  simp only [checks, List.forall_mem_cons, List.not_mem_nil, false_imp_iff, implies_true,
    exceeded?_map_eq_none_iff, lacking_any_iff, hv, hr, hb]
  constructor
  · rintro ⟨hi, ht, hg, hs, hx, hv, hu, hr, hb, -⟩
    exact ⟨hi, ht, hx, hg, hs, hv, hu, hr, hb⟩
  · rintro ⟨hi, ht, hx, hg, hs, hv, hu, hr, hb⟩
    exact ⟨hi, ht, hg, hs, hx, hv, hu, hr, hb, trivial⟩

theorem validate_eq_nil_iff (m : Module) (p : Profile) :
    m.validate p = [] ↔ m.WithinEnvelope p := by
  rw [validate, List.map_eq_nil_iff, findings, List.filterMap_eq_nil_iff, ← checks_eq_none_iff]
  rfl

end ShaderLegalizer.Module
