import Mathlib.Data.List.Basic
import ShaderLegalizer.Proofs.Acceptance
import ShaderLegalizer.Proofs.LoweringSteps

set_option autoImplicit false

namespace ShaderLegalizer

/-- What the tag of a rule says of the instruction that carries it. -/
def Rule.Shape (i : Instruction) : Rule → Prop
  | .flatten => i.terminator = false ∧ i.op = if i.result.isSome then "Select" else "Nop"
  | .unroll => i.terminator = false ∧ i.op = "LoopUnrolled"
  | .decompose => Text.sameName i.op "normalize" = true
  | .remove => i.terminator = false ∧ i.op = "Nop" ∧ i.operands = [] ∧ i.result = none
  | .keep => True

namespace Instruction

def Honest (i : Instruction) : Prop :=
  ∀ r : Rule, i.tag = r.tag? → r.Shape i

/-- Nothing is left for the profile to translate, and the tag can be trusted. -/
structure Translated (p : Profile) (i : Instruction) : Prop where
  supported : Text.mentions i.op "unsupported" = false
  known : Text.mentions i.op "unknown" = false
  normalize : Text.sameName i.op "normalize" = true → i.tag = some "normalize.rewritten"
  branch : p.dynamicBranching = false → Text.mentions i.op "branch" = false
  loop : p.loops = false → Text.mentions i.op "loop" = true →
    i.op = "LoopUnrolled" ∧ i.tag = some "unrolled"
  honest : i.Honest

theorem honest_of_not_tagged (i : Instruction) (h : ¬ i.Tagged) : i.Honest := by
  intro r hr
  cases r with
  | flatten => exact absurd ⟨_, by decide, hr⟩ h
  | unroll => exact absurd ⟨_, by decide, hr⟩ h
  | decompose => exact absurd ⟨_, by decide, hr⟩ h
  | remove => exact absurd ⟨_, by decide, hr⟩ h
  | keep => trivial

theorem Tagged.rule {i : Instruction} (h : i.Tagged) : ∃ r : Rule, r ≠ .keep ∧ i.tag = r.tag? := by
  obtain ⟨t, ht, hi⟩ := h
  obtain ⟨r, -, hr⟩ := List.mem_filterMap.1 ht
  refine ⟨r, ?_, hi.trans hr.symm⟩
  rintro rfl
  cases hr

theorem translated_of_plain (p : Profile) (i : Instruction) (h : i.Honest)
    (hop : i.op ∈ ["Select", "Nop"]) : i.Translated p := by
  have hw : ∀ op ∈ ["Select", "Nop"], Text.mentions op "unsupported" = false ∧
      Text.mentions op "unknown" = false ∧ Text.sameName op "normalize" = false ∧
      Text.mentions op "branch" = false ∧ Text.mentions op "loop" = false := by decide
  obtain ⟨hs, hu, hn, hb, hl⟩ := hw i.op hop
  exact ⟨hs, hu, by simp [hn], fun _ => hb, by simp [hl], h⟩

theorem translated_of_tagged (p : Profile) (i : Instruction) (h : i.Honest) (ht : i.Tagged) :
    i.Translated p := by
  obtain ⟨r, hr, htag⟩ := ht.rule
  have hshape := h r htag
  cases r with
  | flatten =>
    apply translated_of_plain p i h
    rw [hshape.2]
    split <;> decide
  | unroll =>
    have hop : i.op = "LoopUnrolled" := hshape.2
    obtain ⟨hs, hu, hn, hb⟩ : Text.mentions i.op "unsupported" = false ∧
        Text.mentions i.op "unknown" = false ∧ Text.sameName i.op "normalize" = false ∧
        Text.mentions i.op "branch" = false := by
      rw [hop]
      decide
    exact ⟨hs, hu, by simp [hn], fun _ => hb, fun _ _ => ⟨hop, htag⟩, h⟩
  | decompose =>
    obtain ⟨hs, hu, hb, hl⟩ : Text.mentions i.op "unsupported" = false ∧
        Text.mentions i.op "unknown" = false ∧ Text.mentions i.op "branch" = false ∧
        Text.mentions i.op "loop" = false := by
      simp only [Text.mentions_of_sameName hshape]
      decide
    exact ⟨hs, hu, fun _ => htag, fun _ => hb, by simp [hl], h⟩
  | remove =>
    apply translated_of_plain p i h
    rw [hshape.2.1]
    decide
  | keep => exact absurd rfl hr

theorem translated_of_not_tagged (p : Profile) (i : Instruction) (ht : ¬ i.Tagged)
    (hk : Rule.ofInstruction p i = .keep) : i.Translated p := by
  rw [Rule.ofInstruction_of_not_tagged p i ht, Rule.ofOp_eq_keep_iff] at hk
  obtain ⟨hb, hl, hn, hs, hu⟩ := hk
  refine ⟨hs, hu, ?_, hb, ?_, i.honest_of_not_tagged ht⟩
  · intro h
    rw [hn] at h
    cases h
  · intro hp h
    rw [hl hp] at h
    cases h

end Instruction

namespace Rule

theorem tag?_injective {r s : Rule} (h : r.tag? = s.tag?) : r = s := by
  revert h
  cases r <;> cases s <;> decide

theorem shape_apply (p : Profile) (i : Instruction) :
    (ofInstruction p i).Shape ((ofInstruction p i).apply i) := by
  cases hr : ofInstruction p i with
  | flatten => exact ⟨rfl, rfl⟩
  | unroll => exact ⟨rfl, rfl⟩
  | decompose =>
    have ht : ¬ i.Tagged := by
      intro ht
      rw [ofInstruction_of_tagged p i ht] at hr
      cases hr
    rw [ofInstruction_of_not_tagged p i ht] at hr
    exact sameName_of_ofOp p i.op hr
  | remove => exact ⟨rfl, rfl, rfl, rfl⟩
  | keep => trivial

end Rule

namespace Instruction

theorem lower_translated (p : Profile) (i : Instruction) (h : i.Honest) :
    (i.lower p).Translated p := by
  by_cases hr : Rule.ofInstruction p i = .keep
  · rw [lower_of_keep p i hr]
    by_cases ht : i.Tagged
    · exact i.translated_of_tagged p h ht
    · exact i.translated_of_not_tagged p ht hr
  · have hl : (i.lower p).Honest := by
      intro s hs
      rw [lower, Rule.apply_tag i _ hr] at hs
      rw [← Rule.tag?_injective hs]
      exact Rule.shape_apply p i
    exact (i.lower p).translated_of_tagged p hl (Rule.apply_tagged i _ hr)

end Instruction

namespace Module

/-- One application of a profile, by itself or in a legalization that resolves to it. -/
inductive Applies : Module → Profile → Module → Prop where
  | alone (m : Module) (p : Profile) : Applies m p (m.lower p).module
  | legalized (check : Module → List Diagnostic) (m : Module) (override : Option String)
      (b : Band) (h : (Request.effective { module := m, override := override }).band? = some b) :
      Applies m b.profile (legalizeWith check { module := m, override := override }).module

/-- Profiles applied one after another. -/
inductive Run : Module → List Profile → Module → Prop where
  | refl (m : Module) : Run m [] m
  | next {m u v : Module} {p : Profile} {ps : List Profile} (h : Applies m p u)
      (tail : Run u ps v) : Run m (p :: ps) v

theorem Applies.instructions {m u : Module} {p : Profile} (h : Applies m p u) :
    u.instructions = m.instructions.map (Instruction.lower p) := by
  cases h with
  | alone => exact m.lower_instructions p
  | legalized check _ override b hb =>
    rw [legalizeWith_module check _ b hb, Request.effective_eq]
    exact lower_instructions _ b.profile

theorem Applies.translated {m u : Module} {p : Profile} (h : Applies m p u)
    (hm : ∀ i ∈ m.instructions, i.Honest) : ∀ i ∈ u.instructions, i.Translated p := by
  intro i hi
  rw [h.instructions] at hi
  obtain ⟨j, hj, rfl⟩ := List.mem_map.1 hi
  exact j.lower_translated p (hm j hj)

theorem Run.honest {m u : Module} {ps : List Profile} (h : Run m ps u)
    (hm : ∀ i ∈ m.instructions, i.Honest) : ∀ i ∈ u.instructions, i.Honest := by
  induction h with
  | refl _ => exact hm
  | next h _ ih => exact ih fun i hi => (h.translated hm i hi).honest

/-- After any profiles and a last one, nothing is left that the last one would translate, and every
tag of a rule is true of its instruction, provided that no instruction had one at the start. -/
theorem run_leaves_translated {m u v : Module} {ps : List Profile} {p : Profile}
    (hm : ∀ i ∈ m.instructions, ¬ i.Tagged) (hrun : Run m ps u) (hlast : Applies u p v) :
    ∀ i ∈ v.instructions, i.Translated p :=
  hlast.translated (hrun.honest fun i hi => i.honest_of_not_tagged (hm i hi))

def mixedOps : Module where
  functions :=
    [ { name := "main", blocks := [{ id := "a", instructions :=
        [ { op := "UnsupportedBranch", operands := [1], result := some 2 },
          { op := "LoopBranch", result := some 3 },
          { op := "Loop", tag := some "outer" },
          { op := "Normalize", operands := [3] },
          { op := "Return", terminator := true } ] }] } ]

theorem run_leaves_translated_mixedOps :
    (∀ i ∈ mixedOps.instructions, ¬ i.Tagged) ∧
    ∀ i ∈ (legalizeWith check
        { module := (mixedOps.lower Band.sm5.profile).module
          override := some "SM2" }).module.instructions,
      i.Translated Band.sm2.profile := by
  have hm : ∀ i ∈ mixedOps.instructions, ¬ i.Tagged := by decide +kernel
  refine ⟨hm, ?_⟩
  exact run_leaves_translated hm (.next (.alone mixedOps Band.sm5.profile) (.refl _))
    (.legalized check _ (some "SM2") .sm2 (by decide +kernel))

/-- What was lowered to one profile is left as it is, and without a word, by every profile that has
dynamic branching and loops wherever the first has them. -/
theorem lowering_absorbed (m : Module) (p q : Profile)
    (hb : p.dynamicBranching = true → q.dynamicBranching = true)
    (hl : p.loops = true → q.loops = true) :
    ((m.lower p).module.lower q).module = (m.lower p).module ∧
    ((m.lower p).module.lower q).notices = [] ∧
    ((m.lower p).module.lower q).statistics.changes = 0 ∧
    ((m.lower p).module.lower q).invalid = false := by
  have hk : (m.lower p).module.Kept q := m.lower_kept p q hb hl
  exact ⟨hk.lower_module, hk.lower_notices, hk.lower_changes, hk.lower_invalid⟩

theorem lowering_absorbed_mixedOps :
    (mixedOps.lower Band.sm2.profile).statistics.changes = 4 ∧
    (mixedOps.lower Band.sm5.profile).invalid = true ∧
    ((mixedOps.lower Band.sm2.profile).module.lower Band.sm5.profile).invalid = false := by
  refine ⟨by decide +kernel, by decide +kernel, ?_⟩
  exact (lowering_absorbed mixedOps Band.sm2.profile Band.sm5.profile (by decide) (by decide)).2.2.2

end Module

end ShaderLegalizer
