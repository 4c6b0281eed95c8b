import Mathlib.Data.List.Count
import ShaderLegalizer.Proofs.LoweringRuns
import ShaderLegalizer.Proofs.StructurePreservation

set_option autoImplicit false

namespace ShaderLegalizer

/-- The instruction names a branch or a loop that the profile lacks, and no rule has tagged it. -/
def Instruction.Straightened (p : Profile) (i : Instruction) : Prop :=
  ¬ i.Tagged ∧
    (p.dynamicBranching = false ∧ Text.mentions i.op "branch" = true ∨
      p.loops = false ∧ Text.mentions i.op "loop" = true)

instance (p : Profile) (i : Instruction) : Decidable (i.Straightened p) :=
  inferInstanceAs (Decidable (_ ∧ (_ ∨ _)))

namespace Rule

/-- The rule for an instruction where branches and loops are at hand. -/
def plain (i : Instruction) : Rule :=
  if i.Tagged then .keep
  else if Text.sameName i.op "normalize" then .decompose
  else if Text.mentions i.op "unsupported" || Text.mentions i.op "unknown" then .remove
  else .keep

theorem replaces_plain (i : Instruction) (h : plain i ≠ .remove) : (plain i).replaces = false := by
  unfold plain at h ⊢
  split
  · rfl
  · split
    · rfl
    · split
      · next ht hn hw => simp [ht, hn, hw] at h
      · rfl

theorem plain_eq_remove_iff (i : Instruction) (ht : ¬ i.Tagged)
    (hn : Text.sameName i.op "normalize" = false) :
    plain i = .remove ↔
      Text.mentions i.op "unsupported" = true ∨ Text.mentions i.op "unknown" = true := by
  rw [plain, if_neg ht, hn, ← Bool.or_eq_true_iff]
  simp only [Bool.false_eq_true, if_false]
  split
  · next hw => simp [hw]
  · next hw => simp [hw]

theorem plain_ne_remove (i : Instruction) (hs : Text.mentions i.op "unsupported" = false)
    (hu : Text.mentions i.op "unknown" = false) : plain i ≠ .remove := by
  unfold plain
  split
  · decide
  · split
    · decide
    · simp [hs, hu]

theorem ofOp_of_branch (p : Profile) (op : String) (hp : p.dynamicBranching = false)
    (h : Text.mentions op "branch" = true) : ofOp p op = .flatten := by
  simp [ofOp, hp, h]

theorem ofInstruction_of_straightened (p : Profile) (i : Instruction) (h : i.Straightened p) :
    ofInstruction p i = .flatten ∨ ofInstruction p i = .unroll := by
  obtain ⟨ht, hw⟩ := h
  rw [ofInstruction_of_not_tagged p i ht]
  by_cases hb : p.dynamicBranching = false ∧ Text.mentions i.op "branch" = true
  · exact .inl (ofOp_of_branch p i.op hb.1 hb.2)
  · obtain ⟨hp, hl⟩ := hw.resolve_left hb
    right
    rw [ofOp, if_neg (by simpa using hb)]
    simp [hp, hl]

theorem ofInstruction_of_not_straightened (p : Profile) (i : Instruction)
    (h : ¬ i.Straightened p) : ofInstruction p i = plain i := by
  by_cases ht : i.Tagged
  · rw [ofInstruction_of_tagged p i ht, plain, if_pos ht]
  · have hb : ¬ (p.dynamicBranching = false ∧ Text.mentions i.op "branch" = true) :=
      fun hb => h ⟨ht, .inl hb⟩
    have hl : ¬ (p.loops = false ∧ Text.mentions i.op "loop" = true) := fun hl => h ⟨ht, .inr hl⟩
    rw [ofInstruction_of_not_tagged p i ht, plain, if_neg ht, ofOp, if_neg (by simpa using hb),
      if_neg (by simpa using hl)]

theorem ofInstruction_ne_remove (p : Profile) (i : Instruction)
    (h : ¬ i.Straightened p → plain i ≠ .remove) : ofInstruction p i ≠ .remove := by
  by_cases hs : i.Straightened p
  · rcases ofInstruction_of_straightened p i hs with hr | hr <;> rw [hr] <;> decide
  · rw [ofInstruction_of_not_straightened p i hs]
    exact h hs

theorem replaces_ofInstruction_iff (p : Profile) (i : Instruction)
    (h : ofInstruction p i ≠ .remove) :
    (ofInstruction p i).replaces = true ↔ i.Straightened p := by
  by_cases hs : i.Straightened p
  · rcases ofInstruction_of_straightened p i hs with hr | hr <;> simp [hr, hs, replaces]
  · rw [ofInstruction_of_not_straightened p i hs] at h ⊢
    simp [replaces_plain i h, hs]

end Rule

/-! ### Conditional branches -/

namespace Instruction

theorem mentions_branch (i : Instruction) (h : i.isConditionalBranch = true) :
    Text.mentions i.op "branch" = true := by
  rcases Bool.or_eq_true_iff.1 h with hn | hw
  · rw [Text.mentions_of_sameName hn]
    decide
  · exact (Bool.and_eq_true_iff.1 hw).1

theorem ofInstruction_conditionalBranch (p : Profile) (hp : p.dynamicBranching = false)
    (i : Instruction) (h : i.isConditionalBranch = true) (ht : ¬ i.Tagged) :
    Rule.ofInstruction p i = .flatten := by
  rw [Rule.ofInstruction_of_not_tagged p i ht]
  exact Rule.ofOp_of_branch p i.op hp (i.mentions_branch h)

theorem lower_isConditionalBranch (p : Profile) (hp : p.dynamicBranching = false)
    (i : Instruction) :
    (i.lower p).isConditionalBranch = (i.isConditionalBranch && decide i.Tagged) := by
  by_cases ht : i.Tagged
  · rw [lower_of_keep p i (Rule.ofInstruction_of_tagged p i ht)]
    simp [ht]
  · simp only [ht, decide_false, Bool.and_false]
    by_contra hl
    have hc := i.isConditionalBranch_of_lower p (eq_true_of_ne_false hl)
    have hr := ofInstruction_conditionalBranch p hp i hc ht
    have hm := (i.lower p).mentions_branch (eq_true_of_ne_false hl)
    have hop : (i.lower p).op ∈ Rule.replacements :=
      Rule.apply_op_mem i _ (by rw [hr]; rfl)
    have hw : ∀ op ∈ Rule.replacements, Text.mentions op "branch" = false := by decide
    rw [hw _ hop] at hm
    cases hm

end Instruction

namespace Module

/-- The conditional branches that carry the tag of a rule, though no rule leaves any. -/
def taggedBranches (m : Module) : List Instruction :=
  m.instructions.filter fun i => i.isConditionalBranch && decide i.Tagged

theorem Applies.filter_isConditionalBranch {m u : Module} {p : Profile} (h : Applies m p u)
    (hp : p.dynamicBranching = false) :
    u.instructions.filter Instruction.isConditionalBranch = m.taggedBranches := by
  have hf : m.instructions.filter (Instruction.isConditionalBranch ∘ Instruction.lower p) =
      m.taggedBranches :=
    List.filter_congr fun i _ => i.lower_isConditionalBranch p hp
  rw [h.instructions, List.filter_map, hf]
  have hid : m.taggedBranches.map (Instruction.lower p) = m.taggedBranches.map id := by
    apply List.map_congr_left
    intro i hi
    obtain ⟨-, ht⟩ := Bool.and_eq_true_iff.1 (List.mem_filter.1 hi).2
    exact i.lower_of_keep p (Rule.ofInstruction_of_tagged p i (of_decide_eq_true ht))
  rw [hid, List.map_id]

theorem conditionalBranchCount_le (m : Module) (p : Profile) (hp : p.dynamicBranching = false) :
    m.conditionalBranchCount ≤ m.ruleCount p .flatten + m.taggedBranches.length := by
  have hsplit := m.instructions.countP_eq_countP_filter_add Instruction.isConditionalBranch
    fun i => decide i.Tagged
  have htagged : (m.instructions.filter fun i => decide i.Tagged).countP
      Instruction.isConditionalBranch = m.taggedBranches.length := by
    rw [List.countP_eq_length_filter, List.filter_filter, taggedBranches]
  have hflat : (m.instructions.filter fun i => !decide i.Tagged).countP
      Instruction.isConditionalBranch ≤ m.ruleCount p .flatten := by
    rw [List.countP_filter]
    refine List.countP_mono_left fun i _ h => ?_
    obtain ⟨hc, ht⟩ := Bool.and_eq_true_iff.1 h
    rw [i.ofInstruction_conditionalBranch p hp hc (by simpa using ht)]
    rfl
  unfold conditionalBranchCount
  omega

theorem count_of_mem_findings (m : Module) (p : Profile) (n : Nat)
    (h : .dynamicBranching n ∈ m.findings p) : n = m.conditionalBranchCount := by
  obtain ⟨c, hc, hn⟩ := List.mem_filterMap.1 h
  simp only [checks, List.mem_cons, List.not_mem_nil, or_false] at hc
  rcases hc with rfl | rfl | rfl | rfl | rfl | rfl | rfl | rfl | rfl <;> simp at hn
  exact hn.2.symm

/-- A profile without dynamic branching flattens every conditional branch that carries no tag of a
rule. So no more are reported than are flattened or carry a tag, and those with a tag are all that
is left. -/
theorem conditional_branches_flattened (m : Module) (p : Profile)
    (hp : p.dynamicBranching = false) :
    (∀ i ∈ m.instructions, i.isConditionalBranch = true → ¬ i.Tagged →
      Rule.ofInstruction p i = .flatten) ∧
    (∀ n, .dynamicBranching n ∈ m.findings p →
      n ≤ (m.lower p).statistics.branchesFlattened + m.taggedBranches.length) ∧
    ∀ u, Applies m p u →
      u.instructions.filter Instruction.isConditionalBranch = m.taggedBranches := by
  refine ⟨fun i _ => i.ofInstruction_conditionalBranch p hp, ?_, ?_⟩
  · intro n hn
    rw [m.count_of_mem_findings p n hn]
    exact m.conditionalBranchCount_le p hp
  · intro u hu
    exact hu.filter_isConditionalBranch hp

def branchPair : Module where
  profile := some "ps_2_0"
  values := [{ id := 1 }]
  functions :=
    [ { name := "main", blocks := [{ id := "a", instructions :=
        [ { op := "BranchCond", operands := [1], tag := some "then;else" },
          { op := "Branch", operands := [1], tag := some "flattened" },
          { op := "Return", terminator := true } ] }] } ]

theorem conditional_branches_flattened_branchPair :
    Rule.ofInstruction Band.sm2.profile
        { op := "BranchCond", operands := [1], tag := some "then;else" } = .flatten ∧
      2 ≤ (branchPair.lower Band.sm2.profile).statistics.branchesFlattened + 1 ∧
      (legalize { module := branchPair }).module.instructions.filter
          Instruction.isConditionalBranch =
        [{ op := "Branch", operands := [1], tag := some "flattened" }] := by
  obtain ⟨hrule, hcount, hleft⟩ := conditional_branches_flattened branchPair Band.sm2.profile rfl
  refine ⟨hrule _ (by decide +kernel) (by decide +kernel) (by decide +kernel),
    hcount 2 (by decide +kernel), ?_⟩
  calc (legalize { module := branchPair }).module.instructions.filter
          Instruction.isConditionalBranch
      = branchPair.taggedBranches :=
        hleft _ (.legalized check branchPair none .sm2 (by decide +kernel))
    _ = _ := by decide +kernel

/-- A tag that is not true of its instruction keeps a conditional branch from being flattened. It
counts as flattened in what is reported all the same, and is still there in the end. -/
theorem tagged_branch_stays :
    .dynamicBranching 2 ∈ branchPair.findings Band.sm2.profile ∧
      (branchPair.lower Band.sm2.profile).statistics.branchesFlattened = 1 ∧
      ∃ i ∈ (legalize { module := branchPair }).module.instructions,
        i ∈ branchPair.instructions ∧ i.isConditionalBranch = true ∧
          Rule.ofInstruction Band.sm2.profile i = .keep := by
  decide +kernel

end Module

end ShaderLegalizer
