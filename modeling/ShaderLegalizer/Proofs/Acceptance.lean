import ShaderLegalizer.Legalize
import ShaderLegalizer.Proofs.Envelope
import ShaderLegalizer.Proofs.WellFormed

set_option autoImplicit false

namespace ShaderLegalizer

theorem any_isError_eq_false_iff (ds : List Diagnostic) :
    ds.any Diagnostic.isError = false ↔ ∀ d ∈ ds, d.severity ≠ .error := by
  simp [Diagnostic.isError]

theorem any_isError_eq_false_iff_nil (ds : List Diagnostic) (h : ∀ d ∈ ds, d.severity = .error) :
    ds.any Diagnostic.isError = false ↔ ds = [] := by
  rw [any_isError_eq_false_iff, List.eq_nil_iff_forall_not_mem]
  constructor
  · intro hn d hd
    exact hn d hd (h d hd)
  · intro hn d hd
    exact absurd hd (hn d)

namespace Module

theorem any_isError_validate (m : Module) (p : Profile) :
    (m.validate p).any Diagnostic.isError = false ↔ m.WithinEnvelope p := by
  rw [any_isError_eq_false_iff_nil, validate_eq_nil_iff]
  intro d hd
  obtain ⟨f, -, rfl⟩ := List.mem_map.1 hd
  rfl

theorem any_isError_check (m : Module) :
    m.check.any Diagnostic.isError = false ↔ m.WellFormed := by
  rw [any_isError_eq_false_iff_nil, check_eq_nil_iff]
  intro d hd
  exact (m.check_error d hd).1

theorem notice?_error_iff (p : Profile) (i : Instruction) :
    (∃ d, i.notice? p = some d ∧ d.severity = .error) ↔ Rule.ofInstruction p i = .remove := by
  unfold Instruction.notice?
  cases Rule.ofInstruction p i <;> simp [Rule.notice?]

theorem any_isError_notices (m : Module) (p : Profile) :
    (m.lower p).notices.any Diagnostic.isError = false ↔
      ∀ i ∈ m.instructions, Rule.ofInstruction p i ≠ .remove := by
  rw [any_isError_eq_false_iff]
  change (∀ d ∈ m.instructions.filterMap (Instruction.notice? p), d.severity ≠ .error) ↔ _
  constructor
  · intro h i hi hr
    obtain ⟨d, hd, he⟩ := (notice?_error_iff p i).2 hr
    exact h d (List.mem_filterMap.2 ⟨i, hi, hd⟩) he
  · intro h d hd he
    obtain ⟨i, hi, hid⟩ := List.mem_filterMap.1 hd
    exact h i hi ((notice?_error_iff p i).1 ⟨d, hid, he⟩)

theorem lower_invalid_eq_false_iff (m : Module) (p : Profile) :
    (m.lower p).invalid = false ↔ ∀ i ∈ m.instructions, Rule.ofInstruction p i ≠ .remove := by
  simp [lower, ruleCount]

theorem any_isError_newDiagnostics (m : Module) (p : Profile) :
    (m.newDiagnostics check p).any Diagnostic.isError = false ↔
      m.WithinEnvelope p ∧ (∀ i ∈ m.instructions, Rule.ofInstruction p i ≠ .remove) ∧
        (m.lower p).module.WellFormed := by
  have hr : (if (m.lower p).invalid then [removalError] else []).any Diagnostic.isError = false ↔
      ∀ i ∈ m.instructions, Rule.ofInstruction p i ≠ .remove := by
    rw [← lower_invalid_eq_false_iff]
    cases (m.lower p).invalid with
    | false => simp
    | true => simp [removalError, Diagnostic.isError]
  simp only [newDiagnostics, List.any_append, Bool.or_eq_false_iff, any_isError_validate,
    any_isError_notices, any_isError_check, hr]
  constructor
  · rintro ⟨⟨⟨he, hn⟩, -⟩, hw⟩
    exact ⟨he, hn, hw⟩
  · rintro ⟨he, hn, hw⟩
    exact ⟨⟨⟨he, hn⟩, hn⟩, hw⟩

end Module

theorem Request.effective_eq (r : Request) :
    r.effective =
      { r.module with
        profile := (r.override.filter fun o => !Text.isBlankText o).or r.module.profile } := by
  unfold effective
  cases r.override with
  | none => rfl
  | some o =>
    rw [Option.filter_some]
    cases hb : Text.isBlankText o with
    | false => simp only [hb]; rfl
    | true => simp only [hb]; rfl

theorem Request.effective_diagnostics (r : Request) :
    r.effective.diagnostics = r.module.diagnostics := by
  rw [r.effective_eq]

theorem legalizeWith_of_band?_eq_none (check : Module → List Diagnostic) (r : Request)
    (h : r.effective.band? = none) :
    legalizeWith check r =
      .close r.effective (r.effective.diagnostics ++ [r.effective.unknownProfile]) {} := by
  unfold legalizeWith
  simp only [h]

theorem legalizeWith_of_band?_eq_some (check : Module → List Diagnostic) (r : Request) (b : Band)
    (h : r.effective.band? = some b) :
    legalizeWith check r =
      .close (r.effective.lower b.profile).module
        (r.effective.diagnostics ++ r.effective.newDiagnostics check b.profile)
        (r.effective.lower b.profile).statistics := by
  unfold legalizeWith
  simp only [h]

theorem legalizeWith_module (check : Module → List Diagnostic) (r : Request) (b : Band)
    (h : r.effective.band? = some b) :
    (legalizeWith check r).module =
      (r.effective.lower b.profile).module.withDiagnostics (legalizeWith check r).diagnostics := by
  rw [legalizeWith_of_band?_eq_some check r b h]
  rfl

theorem legalizeWith_module_diagnostics (check : Module → List Diagnostic) (r : Request) :
    (legalizeWith check r).module.diagnostics = (legalizeWith check r).diagnostics := by
  cases h : r.effective.band? with
  | none =>
    rw [legalizeWith_of_band?_eq_none check r h]
    rfl
  | some b =>
    rw [legalizeWith_of_band?_eq_some check r b h]
    rfl

theorem legalize_invalid_of_band?_eq_none (r : Request) (h : r.effective.band? = none) :
    (legalize r).invalid = true := by
  unfold legalize legalizeWith
  simp [h, Outcome.close, Module.unknownProfile, Diagnostic.isError]

theorem legalize_invalid_of_band?_eq_some (r : Request) (b : Band)
    (h : r.effective.band? = some b) :
    (legalize r).invalid =
      (r.effective.diagnostics ++ r.effective.newDiagnostics Module.check b.profile).any
        Diagnostic.isError := by
  unfold legalize legalizeWith
  simp only [h, Outcome.close]

theorem of_legalize_valid (r : Request) (h : (legalize r).invalid = false) :
    ∃ b, r.effective.band? = some b ∧ r.effective.WithinEnvelope b.profile ∧
      (∀ i ∈ r.effective.instructions, Rule.ofInstruction b.profile i ≠ .remove) ∧
      (r.effective.lower b.profile).module.WellFormed := by
  cases hb : r.effective.band? with
  | none =>
    rw [legalize_invalid_of_band?_eq_none r hb] at h
    cases h
  | some b =>
    rw [legalize_invalid_of_band?_eq_some r b hb, List.any_append, Bool.or_eq_false_iff,
      Module.any_isError_newDiagnostics] at h
    exact ⟨b, rfl, h.2⟩

/-- A legalization is valid exactly when the profile is known, no error came along, the module lies
in the envelope, nothing has to be removed, and what is left is well formed. -/
theorem legalize_valid_iff (r : Request) :
    (legalize r).invalid = false ↔
      ∃ b, r.effective.band? = some b ∧
        (∀ d ∈ r.effective.diagnostics, d.severity ≠ .error) ∧
        r.effective.WithinEnvelope b.profile ∧
        (∀ i ∈ r.effective.instructions, Rule.ofInstruction b.profile i ≠ .remove) ∧
        (r.effective.lower b.profile).module.WellFormed := by
  cases h : r.effective.band? with
  | none =>
    rw [legalize_invalid_of_band?_eq_none r h]
    simp
  | some b =>
    rw [legalize_invalid_of_band?_eq_some r b h, List.any_append, Bool.or_eq_false_iff,
      any_isError_eq_false_iff, Module.any_isError_newDiagnostics]
    simp

end ShaderLegalizer
