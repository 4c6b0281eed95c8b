import Mathlib.Tactic.MkIffOfInductiveProp
import ShaderLegalizer.Proofs.FixedPoint
import ShaderLegalizer.Proofs.Straightening

set_option autoImplicit false

namespace ShaderLegalizer

theorem filter_isError_eq_nil_iff (ds : List Diagnostic) :
    ds.filter Diagnostic.isError = [] ↔ ds.any Diagnostic.isError = false := by
  rw [List.filter_eq_nil_iff, List.any_eq_false]

namespace Module

/-- Nothing is wrong with the module as it stands: it brings no error along, neither its structure
nor the profile is against it, and no operation says that it is unsupported or unknown. -/
@[mk_iff]
structure Clean (m : Module) (p : Profile) : Prop where
  carried : ∀ d ∈ m.diagnostics, d.severity ≠ .error
  structured : m.check = []
  within : m.validate p = []
  supported : ∀ i ∈ m.instructions, Text.mentions i.op "unsupported" = false
  known : ∀ i ∈ m.instructions, Text.mentions i.op "unknown" = false

instance (m : Module) (p : Profile) : Decidable (m.Clean p) :=
  decidable_of_iff _ (clean_iff m p).symm

theorem openings_eq_nil_iff (m : Module) (p : Profile)
    (hr : ∀ i ∈ m.instructions, Rule.ofInstruction p i ≠ .remove) :
    m.openings p = [] ↔
      ∀ b ∈ m.blocks, ∀ last ∈ b.instructions.getLast?, ¬ last.Straightened p := by
  have hblock : ∀ f ∈ m.functions, ∀ b ∈ f.blocks, (b.opening? p f.name = none ↔
      ∀ last ∈ b.instructions.getLast?, ¬ last.Straightened p) := by
    intro f hf b hb
    unfold Block.opening?
    cases hl : b.instructions.getLast? with
    | none => simp
    | some last =>
      have hmem : last ∈ m.instructions :=
        (m.mem_instructions_iff last).2 ⟨f, hf, b, hb, List.mem_of_getLast? hl⟩
      simp [← Rule.replaces_ofInstruction_iff p last (hr last hmem)]
  simp only [openings, List.flatMap_eq_nil_iff, List.filterMap_eq_nil_iff, blocks,
    List.mem_flatMap]
  constructor
  · rintro h b ⟨f, hf, hb⟩
    exact (hblock f hf b hb).1 (h f hf b hb)
  · intro h f hf b hb
    exact (hblock f hf b hb).2 (h b ⟨f, hf, hb⟩)

namespace Clean

variable {m : Module} {p : Profile} (h : m.Clean p)

include h

theorem ne_remove : ∀ i ∈ m.instructions, Rule.ofInstruction p i ≠ .remove := by
  intro i hi
  exact Rule.ofInstruction_ne_remove p i fun _ =>
    Rule.plain_ne_remove i (h.supported i hi) (h.known i hi)

theorem newDiagnostics :
    m.newDiagnostics check p = (m.lower p).notices ++ (m.openings p).map Fault.diagnostic := by
  have hi : (m.lower p).invalid = false := (m.lower_invalid_eq_false_iff p).2 h.ne_remove
  simp [Module.newDiagnostics, h.within, hi, m.lower_check p h.structured]

theorem errors :
    (m.diagnostics ++ m.newDiagnostics check p).filter Diagnostic.isError =
      (m.openings p).map Fault.diagnostic := by
  have hc : m.diagnostics.any Diagnostic.isError = false :=
    (any_isError_eq_false_iff _).2 h.carried
  have hn : (m.lower p).notices.any Diagnostic.isError = false :=
    (m.any_isError_notices p).2 h.ne_remove
  have hf : ((m.openings p).map Fault.diagnostic).filter Diagnostic.isError =
      (m.openings p).map Fault.diagnostic := by
    refine List.filter_eq_self.2 fun d hd => ?_
    obtain ⟨f, -, rfl⟩ := List.mem_map.1 hd
    rfl
  rw [h.newDiagnostics, List.filter_append, List.filter_append, hf,
    (filter_isError_eq_nil_iff _).2 hc, (filter_isError_eq_nil_iff _).2 hn]
  rfl

end Clean

/-- The errors of legalizing a module with nothing wrong are one for each block whose last
instruction is straightened, so it comes out valid exactly if there is no such block. -/
theorem clean_legalization_errors (m : Module) (b : Band) (hb : m.band? = some b)
    (h : m.Clean b.profile) :
    (legalize { module := m }).errors = (m.openings b.profile).map Fault.diagnostic ∧
      ((legalize { module := m }).invalid = false ↔
        ∀ blk ∈ m.blocks, ∀ last ∈ blk.instructions.getLast?, ¬ last.Straightened b.profile) := by
  have he : (legalize { module := m }).errors = (m.openings b.profile).map Fault.diagnostic := by
    rw [legalize, legalizeWith_of_band?_eq_some _ { module := m } b hb]
    exact h.errors
  refine ⟨he, ?_⟩
  rw [legalize_invalid, ← filter_isError_eq_nil_iff]
  change (legalize { module := m }).errors = [] ↔ _
  rw [he, List.map_eq_nil_iff, m.openings_eq_nil_iff b.profile h.ne_remove]

def jumpModule (jump : Instruction) : Module where
  profile := some "ps_2_0"
  entryPoint := some { function := "main", stage := "ps" }
  functions :=
    [ { name := "main", blocks :=
        [ { id := "entry", instructions := [{ op := "Loop" }, jump] },
          { id := "exit", instructions := [{ op := "Return", terminator := true }] } ] } ]

theorem clean_legalization_errors_jumpModule :
    (legalize { module := jumpModule { op := "Jump", terminator := true } }).invalid = false ∧
      (legalize { module := jumpModule { op := "EndLoop", terminator := true } }).errors =
        [(Fault.openBlock "main" "entry" "LoopUnrolled").diagnostic] := by
  constructor
  · have h := clean_legalization_errors (jumpModule { op := "Jump", terminator := true }) .sm2
      (by decide +kernel) (by decide +kernel)
    exact h.2.2 (by decide +kernel)
  · have h := clean_legalization_errors (jumpModule { op := "EndLoop", terminator := true }) .sm2
      (by decide +kernel) (by decide +kernel)
    rw [h.1]
    decide +kernel

/-- An unconditional branch at the end of a block is nothing wrong. It is flattened all the same
where there is no dynamic branching, and leaves the block open. -/
theorem clean_module_rejected :
    (jumpModule { op := "Branch", terminator := true }).band? = some .sm2 ∧
    (jumpModule { op := "Branch", terminator := true }).Clean Band.sm2.profile ∧
    (legalize { module := jumpModule { op := "Branch", terminator := true } }).invalid = true := by
  decide +kernel

end Module

end ShaderLegalizer
