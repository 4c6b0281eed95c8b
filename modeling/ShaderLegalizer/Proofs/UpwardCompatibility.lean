import Mathlib.Tactic.MkIffOfInductiveProp
import ShaderLegalizer.Proofs.FlowPreservation
import ShaderLegalizer.Proofs.Straightening

/-!
From one profile to another that offers no less. The envelope only grows, and an instruction is
treated alike by both profiles unless the first straightens it and the other does not. That
difference can count against a module: straightening hides a terminator that stands too early, and
the word that gives an operation away as unsupported or unknown. A module that is valid for the
first profile is valid for the second exactly if it has no such instruction.
-/

set_option autoImplicit false

namespace ShaderLegalizer

/-- A limit is at most another if there is no such other, or if both are there and in that order. -/
def LimitAtMost : Option Nat → Option Nat → Prop
  | _, none => True
  | none, some _ => False
  | some k, some n => k ≤ n

instance : (k n : Option Nat) → Decidable (LimitAtMost k n)
  | _, none => isTrue trivial
  | none, some _ => isFalse id
  | some k, some n => inferInstanceAs (Decidable (k ≤ n))

theorem LimitAtMost.refl (k : Option Nat) : LimitAtMost k k := by
  cases k with
  | none => trivial
  | some k => exact Nat.le_refl k

theorem LimitAtMost.le {k n : Option Nat} (h : LimitAtMost k n) (count : Nat)
    (hk : ∀ max, k = some max → count ≤ max) : ∀ max, n = some max → count ≤ max := by
  rintro max rfl
  cases k with
  | none => exact h.elim
  | some k => exact (hk k rfl).trans h

theorem LimitAtMost.eq_zero {k : Option Nat} (h : LimitAtMost k (some 0)) : k = some 0 := by
  cases k with
  | none => exact h.elim
  | some k => rw [Nat.le_zero.1 h]

/-- The second profile offers whatever the first does. -/
@[mk_iff]
structure Profile.AtMost (p q : Profile) : Prop where
  dynamicBranching : p.dynamicBranching = true → q.dynamicBranching = true
  loops : p.loops = true → q.loops = true
  predication : p.predication = true → q.predication = true
  gradients : p.gradients = true → q.gradients = true
  vertexTextureFetch : p.vertexTextureFetch = true → q.vertexTextureFetch = true
  systemSemantics : p.systemSemantics = true → q.systemSemantics = true
  typedUavs : p.typedUavs = true → q.typedUavs = true
  textureLimit : LimitAtMost p.textureLimit q.textureLimit
  tempRegisters : LimitAtMost p.tempRegisters q.tempRegisters
  instructionSlots : LimitAtMost p.instructionSlots q.instructionSlots
  renderTargets : LimitAtMost p.renderTargets q.renderTargets

instance (p q : Profile) : Decidable (p.AtMost q) :=
  decidable_of_iff _ (Profile.atMost_iff p q).symm

theorem Profile.AtMost.refl (p : Profile) : p.AtMost p :=
  ⟨id, id, id, id, id, id, id, .refl _, .refl _, .refl _, .refl _⟩

theorem Band.ofProfileName?_name (b : Band) : Band.ofProfileName? b.name = some b := by
  cases b <;> decide +kernel

theorem Band.profile_atMost (a b : Band) (h : Band.all.idxOf a ≤ Band.all.idxOf b) :
    a.profile.AtMost b.profile := by
  revert h
  cases a <;> cases b <;> decide

section

variable {p q : Profile} (hpq : p.AtMost q)

include hpq

theorem Module.WithinEnvelope.mono {m : Module} (h : m.WithinEnvelope p) : m.WithinEnvelope q where
  instructions := hpq.instructionSlots.le _ h.instructions
  temps := hpq.tempRegisters.le _ h.temps
  textures := hpq.textureLimit.le _ h.textures
  gradients := fun hq => h.gradients (lacks_of_imp hpq.gradients hq)
  semantics := fun hq => h.semantics (lacks_of_imp hpq.systemSemantics hq)
  vertexTextures := fun hq => h.vertexTextures (lacks_of_imp hpq.vertexTextureFetch hq)
  uavs := fun hq => h.uavs (lacks_of_imp hpq.typedUavs hq)
  renderTargets := fun hq => h.renderTargets (hq ▸ hpq.renderTargets).eq_zero
  branches := fun hq => h.branches (lacks_of_imp hpq.dynamicBranching hq)

theorem Instruction.Straightened.anti {i : Instruction} (h : i.Straightened q) :
    i.Straightened p :=
  ⟨h.1, h.2.imp (And.imp_left (lacks_of_imp hpq.dynamicBranching))
    (And.imp_left (lacks_of_imp hpq.loops))⟩

end

namespace Instruction

theorem lower_terminator_iff (p : Profile) (i : Instruction)
    (h : Rule.ofInstruction p i ≠ .remove) :
    (i.lower p).terminator = true ↔ i.terminator = true ∧ ¬ i.Straightened p := by
  rw [lower_terminator, Bool.and_eq_true, ← Rule.replaces_ofInstruction_iff p i h]
  simp

theorem lower_terminator_upward_iff (p q : Profile) (i : Instruction)
    (hp : Rule.ofInstruction p i ≠ .remove) (hq : Rule.ofInstruction q i ≠ .remove)
    (h : (i.lower p).terminator = false) :
    (i.lower q).terminator = false ↔
      (i.Straightened p → ¬ i.Straightened q → i.terminator = false) := by
  rw [← Bool.not_eq_true, lower_terminator_iff p i hp] at h
  rw [← Bool.not_eq_true, lower_terminator_iff q i hq, ← Bool.not_eq_true]
  constructor
  · intro hn _ hsq ht
    exact hn ⟨ht, hsq⟩
  · rintro hc ⟨ht, hsq⟩
    have hsp : i.Straightened p := not_not.1 fun hsp => h ⟨ht, hsp⟩
    exact hc hsp hsq ht

theorem Straightened.plain_eq_remove_iff {p : Profile} {i : Instruction} (h : i.Straightened p) :
    Rule.plain i = .remove ↔
      Text.mentions i.op "unsupported" = true ∨ Text.mentions i.op "unknown" = true := by
  apply Rule.plain_eq_remove_iff i h.1
  by_contra hn
  have hsame := eq_true_of_ne_false hn
  rcases h.2 with ⟨-, hw⟩ | ⟨-, hw⟩ <;>
    · rw [Text.mentions_of_sameName hsame] at hw
      revert hw
      decide

theorem ne_remove_upward_iff (p q : Profile) (i : Instruction)
    (h : Rule.ofInstruction p i ≠ .remove) :
    Rule.ofInstruction q i ≠ .remove ↔
      (i.Straightened p → ¬ i.Straightened q →
        Text.mentions i.op "unsupported" = false ∧ Text.mentions i.op "unknown" = false) := by
  constructor
  · intro hq hsp hsq
    rw [Rule.ofInstruction_of_not_straightened q i hsq, Ne, hsp.plain_eq_remove_iff] at hq
    simpa using hq
  · intro hc
    refine Rule.ofInstruction_ne_remove q i fun hsq => ?_
    by_cases hsp : i.Straightened p
    · exact Rule.plain_ne_remove i (hc hsp hsq).1 (hc hsp hsq).2
    · rw [← Rule.ofInstruction_of_not_straightened p i hsp]
      exact h

end Instruction

theorem Block.lower_terminated_iff (p : Profile) (b : Block) :
    (b.mapInstructions (Instruction.lower p)).Terminated ↔
      ∃ body last, b.instructions = body ++ [last] ∧ (last.lower p).terminator = true ∧
        ∀ i ∈ body, (i.lower p).terminator = false := by
  constructor
  · rintro ⟨body', last', hb, ht, hn⟩
    obtain ⟨body, rest, hsplit, rfl, hrest⟩ := List.map_eq_append_iff.1 hb
    obtain ⟨last, rfl, rfl⟩ := List.map_eq_singleton_iff.1 hrest
    exact ⟨body, last, hsplit, ht, List.forall_mem_map.1 hn⟩
  · rintro ⟨body, last, hsplit, ht, hn⟩
    refine ⟨body.map (Instruction.lower p), last.lower p, ?_, ht, List.forall_mem_map.2 hn⟩
    rw [mapInstructions, hsplit, List.map_append]
    rfl

section

variable {p q : Profile} (hpq : p.AtMost q)

include hpq

theorem Block.lower_terminated_upward_iff (b : Block)
    (hp : ∀ i ∈ b.instructions, Rule.ofInstruction p i ≠ .remove)
    (hq : ∀ i ∈ b.instructions, Rule.ofInstruction q i ≠ .remove)
    (h : (b.mapInstructions (Instruction.lower p)).Terminated) :
    (b.mapInstructions (Instruction.lower q)).Terminated ↔
      ∀ i ∈ b.instructions, i.Straightened p → ¬ i.Straightened q → i.terminator = false := by
  rw [lower_terminated_iff] at h ⊢
  obtain ⟨body, last, hb, ht, hn⟩ := h
  rw [hb, List.forall_mem_append, List.forall_mem_singleton] at hp hq ⊢
  rw [last.lower_terminator_iff p hp.2] at ht
  have hbody (i : Instruction) (hi : i ∈ body) :=
    i.lower_terminator_upward_iff p q (hp.1 i hi) (hq.1 i hi) (hn i hi)
  constructor
  · rintro ⟨body', last', hb', -, hn'⟩
    obtain ⟨rfl, -⟩ : body = body' ∧ [last] = [last'] := List.append_inj' hb' rfl
    exact ⟨fun i hi => (hbody i hi).1 (hn' i hi), fun hsp => absurd hsp ht.2⟩
  · rintro ⟨hc, -⟩
    refine ⟨body, last, rfl, ?_, fun i hi => (hbody i hi).2 (hc i hi)⟩
    exact (last.lower_terminator_iff q hq.2).2 ⟨ht.1, fun hs => ht.2 (hs.anti hpq)⟩

theorem Module.lower_terminated_upward_iff (m : Module)
    (hp : ∀ i ∈ m.instructions, Rule.ofInstruction p i ≠ .remove)
    (hq : ∀ i ∈ m.instructions, Rule.ofInstruction q i ≠ .remove)
    (h : ∀ f ∈ m.functions, ∀ b ∈ f.blocks,
      (b.mapInstructions (Instruction.lower p)).Terminated) :
    (∀ f ∈ m.functions, ∀ b ∈ f.blocks,
      (b.mapInstructions (Instruction.lower q)).Terminated) ↔
      ∀ i ∈ m.instructions, i.Straightened p → ¬ i.Straightened q → i.terminator = false := by
  have hmem (f : Function) (hf : f ∈ m.functions) (b : Block) (hb : b ∈ f.blocks)
      (i : Instruction) (hi : i ∈ b.instructions) : i ∈ m.instructions :=
    (m.mem_instructions_iff i).2 ⟨f, hf, b, hb, hi⟩
  have hblock (f : Function) (hf : f ∈ m.functions) (b : Block) (hb : b ∈ f.blocks) :=
    b.lower_terminated_upward_iff hpq (fun i hi => hp i (hmem f hf b hb i hi))
      (fun i hi => hq i (hmem f hf b hb i hi)) (h f hf b hb)
  constructor
  · intro hall i hi
    obtain ⟨f, hf, b, hb, hib⟩ := (m.mem_instructions_iff i).1 hi
    exact (hblock f hf b hb).1 (hall f hf b hb) i hib
  · intro hc f hf b hb
    exact (hblock f hf b hb).2 fun i hi => hc i (hmem f hf b hb i hi)

end

namespace Module

variable {m : Module} {p q : Profile}

theorem WellFormed.lower_other (hp : ∀ i ∈ m.instructions, Rule.ofInstruction p i ≠ .remove)
    (hq : ∀ i ∈ m.instructions, Rule.ofInstruction q i ≠ .remove)
    (h : (m.lower p).module.WellFormed)
    (hb : ∀ f ∈ m.functions, ∀ b ∈ f.blocks,
      (b.mapInstructions (Instruction.lower q)).Terminated) :
    (m.lower q).module.WellFormed := by
  have hmem (i : Instruction) (hi : i ∈ m.instructions) :
      i.lower p ∈ (m.lower p).module.instructions := by
    rw [lower_instructions]
    exact List.mem_map_of_mem hi
  have hoperands (i : Instruction) (hi : i ∈ m.instructions) :
      (i.lower q).operands = (i.lower p).operands :=
    (i.lower_sameData q (hq i hi)).operands.trans (i.lower_sameData p (hp i hi)).operands.symm
  have hresult (i : Instruction) (hi : i ∈ m.instructions) :
      (i.lower q).result = (i.lower p).result :=
    (i.lower_sameData q (hq i hi)).result.trans (i.lower_sameData p (hp i hi)).result.symm
  have hdeclares : (m.lower q).module.Declares = (m.lower p).module.Declares :=
    (m.lower_declares q).trans (m.lower_declares p).symm
  constructor
  case values =>
    rw [lower_values, ← m.lower_values p]
    exact h.values
  case entry =>
    rw [← entryFaults_eq_nil_iff, lower_entryFaults, ← m.lower_entryFaults p,
      entryFaults_eq_nil_iff]
    exact h.entry
  case blocks =>
    rw [lower_functions, List.forall_mem_map]
    intro f hf
    exact List.forall_mem_map.2 (hb f hf)
  case parameters =>
    have hparam := h.parameters
    rw [lower_functions, List.forall_mem_map] at hparam ⊢
    rw [hdeclares]
    exact hparam
  case operands =>
    rw [lower_instructions, List.forall_mem_map, hdeclares]
    intro i hi
    rw [hoperands i hi]
    exact h.operands _ (hmem i hi)
  case results =>
    rw [lower_instructions, List.forall_mem_map, hdeclares]
    intro i hi
    rw [hresult i hi]
    exact h.results _ (hmem i hi)
  case definitions =>
    have hdef := h.definitions
    rw [lower_instructions, List.pairwise_map] at hdef ⊢
    refine hdef.imp_of_mem fun {i j} hi hj hij => ?_
    rw [hresult i hi, hresult j hj]
    exact hij
  case acyclic =>
    rw [← recursionFaults_eq_nil_iff, lower_recursionFaults, ← m.lower_recursionFaults p,
      recursionFaults_eq_nil_iff]
    exact h.acyclic

/-- The profile has nothing against the module, before or after it is lowered. -/
@[mk_iff]
structure Accepted (m : Module) (p : Profile) : Prop where
  within : m.WithinEnvelope p
  supported : ∀ i ∈ m.instructions, Rule.ofInstruction p i ≠ .remove
  wellFormed : (m.lower p).module.WellFormed

theorem Accepted.upward_iff (hpq : p.AtMost q) (h : m.Accepted p) :
    m.Accepted q ↔
      ∀ i ∈ m.instructions, i.Straightened p → ¬ i.Straightened q →
        i.terminator = false ∧ Text.mentions i.op "unsupported" = false ∧
          Text.mentions i.op "unknown" = false := by
  constructor
  · intro hq i hi hsp hsq
    have ht := (m.lower_terminated_upward_iff hpq h.supported hq.supported
      h.wellFormed.lower_blocks).1 hq.wellFormed.lower_blocks
    have hr := (i.ne_remove_upward_iff p q (h.supported i hi)).1 (hq.supported i hi)
    exact ⟨ht i hi hsp hsq, hr hsp hsq⟩
  · intro hc
    have hs : ∀ i ∈ m.instructions, Rule.ofInstruction q i ≠ .remove := fun i hi =>
      (i.ne_remove_upward_iff p q (h.supported i hi)).2 fun hsp hsq => (hc i hi hsp hsq).2
    have hb := (m.lower_terminated_upward_iff hpq h.supported hs h.wellFormed.lower_blocks).2
      fun i hi hsp hsq => (hc i hi hsp hsq).1
    exact ⟨h.within.mono hpq, hs, h.wellFormed.lower_other h.supported hs hb⟩

def requestFor (m : Module) (b : Band) : Request where
  module := m.withProfile b.name

theorem legalize_requestFor_valid_iff (m : Module) (b : Band) :
    (legalize (m.requestFor b)).invalid = false ↔
      (∀ d ∈ m.diagnostics, d.severity ≠ .error) ∧ m.Accepted b.profile := by
  have hb : (m.requestFor b).effective.band? = some b := b.ofProfileName?_name
  rw [legalize_invalid_of_band?_eq_some (m.requestFor b) b hb, List.any_append,
    Bool.or_eq_false_iff, any_isError_eq_false_iff, accepted_iff, ← any_isError_newDiagnostics]
  exact Iff.rfl

theorem not_straightened_of_ne_sm2 (a : Band) (ha : a ≠ .sm2) (i : Instruction) :
    ¬ i.Straightened a.profile := by
  cases a with
  | sm2 => exact absurd rfl ha
  | sm3 | sm4 | sm5 => rintro ⟨-, ⟨hp, -⟩ | ⟨hp, -⟩⟩ <;> cases hp

/-- A module that is valid for a band is valid for a later one exactly if the later band, in leaving
branches and loops as they are, uncovers no terminator and no unsupported or unknown operation among
them. Only the first band hides any. -/
theorem acceptance_upward_iff (m : Module) (a b : Band)
    (hab : Band.all.idxOf a ≤ Band.all.idxOf b)
    (h : (legalize (m.requestFor a)).invalid = false) :
    ((legalize (m.requestFor b)).invalid = false ↔
      ∀ i ∈ m.instructions, i.Straightened a.profile → ¬ i.Straightened b.profile →
        i.terminator = false ∧ Text.mentions i.op "unsupported" = false ∧
          Text.mentions i.op "unknown" = false) ∧
    (a ≠ .sm2 → (legalize (m.requestFor b)).invalid = false) := by
  rw [legalize_requestFor_valid_iff] at h ⊢
  obtain ⟨hd, hm⟩ := h
  have hiff := hm.upward_iff (Band.profile_atMost a b hab)
  refine ⟨(and_iff_right hd).trans hiff, fun ha => ⟨hd, hiff.2 ?_⟩⟩
  intro i _ hs
  exact absurd hs (not_straightened_of_ne_sm2 a ha i)

def leading (first : Instruction) : Module where
  functions :=
    [ { name := "main", blocks := [{ id := "a", instructions :=
        [first, { op := "Return", terminator := true }] }] } ]

theorem acceptance_upward_iff_leading :
    (legalize ((leading { op := "Branch" }).requestFor .sm2)).statistics.changes = 1 ∧
      (legalize ((leading { op := "Branch" }).requestFor .sm5)).invalid = false := by
  refine ⟨by decide +kernel, ?_⟩
  have h := acceptance_upward_iff (leading { op := "Branch" }) .sm2 .sm5 (by decide)
    (by decide +kernel)
  exact h.1.2 (by decide +kernel)

/-- An early terminator that is a branch and an unsupported operation that is a loop: both are
straightened for the first band, and the next one finds fault with them. -/
theorem acceptance_not_upward :
    Band.all.idxOf .sm2 ≤ Band.all.idxOf .sm3 ∧
    ∀ first ∈ [{ op := "Branch", terminator := true }, ({ op := "UnsupportedLoop" } : Instruction)],
      (legalize ((leading first).requestFor .sm2)).invalid = false ∧
      (legalize ((leading first).requestFor .sm3)).invalid = true := by
  refine ⟨by decide, ?_⟩
  simp only [List.forall_mem_cons, List.not_mem_nil, false_imp_iff, implies_true, and_true]
  refine ⟨⟨?_, ?_⟩, ?_, ?_⟩ <;> decide +kernel

end Module

end ShaderLegalizer
