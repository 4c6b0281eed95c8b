import Mathlib.Data.List.Basic
import ShaderLegalizer.Proofs.Acceptance
import ShaderLegalizer.Proofs.LoweringSteps

set_option autoImplicit false

namespace ShaderLegalizer

namespace Module

section Envelope

variable {m : Module} (p q : Profile)

theorem unused_of_lower (uses : Instruction → Bool)
    (hu : ∀ i : Instruction, uses (i.lower p) = true → uses i = true)
    (h : ∀ i ∈ m.instructions, uses i = false) :
    ∀ i ∈ (m.lower p).module.instructions, uses i = false := by
  intro i hi
  rw [lower_instructions] at hi
  obtain ⟨j, hj, rfl⟩ := List.mem_map.1 hi
  by_contra hn
  have hj' := hu j (eq_true_of_ne_false hn)
  rw [h j hj] at hj'
  cases hj'

/-- Lowering to one profile takes no module out of the envelope of any other. -/
theorem WithinEnvelope.lower (h : m.WithinEnvelope q) : (m.lower p).module.WithinEnvelope q where
  instructions := by
    rw [lower_instructions, List.length_map]
    exact h.instructions
  temps := h.temps
  textures := by
    intro max hmax
    have hle : (m.instructions.map (Instruction.lower p)).countP Instruction.isTexture ≤
        m.instructions.countP Instruction.isTexture := by
      rw [List.countP_map]
      exact List.countP_mono_left fun i _ hi => Instruction.isTexture_of_lower p i hi
    rw [lower_instructions]
    exact hle.trans (h.textures max hmax)
  gradients := fun hg => unused_of_lower p _ (Instruction.isGradient_of_lower p) (h.gradients hg)
  semantics := h.semantics
  vertexTextures := fun hv hs =>
    unused_of_lower p _ (Instruction.isTexture_of_lower p) (h.vertexTextures hv hs)
  uavs := h.uavs
  renderTargets := h.renderTargets
  branches := fun hb =>
    unused_of_lower p _ (Instruction.isConditionalBranch_of_lower p) (h.branches hb)

end Envelope

/-- What the profile and the structural check have against the module as it stands. -/
def objections (m : Module) (p : Profile) : List Diagnostic :=
  m.validate p ++ m.check

theorem Kept.newDiagnostics {m : Module} {p : Profile} (h : m.Kept p) :
    m.newDiagnostics check p = m.objections p := by
  simp only [Module.newDiagnostics, h.lower_notices, h.lower_invalid, h.lower_module,
    Bool.false_eq_true, if_false, List.append_nil, objections]

theorem objections_withDiagnostics (m : Module) (p : Profile) (ds : List Diagnostic) :
    (m.withDiagnostics ds).objections p = m.objections p :=
  rfl

end Module

namespace Request

/-- The outcomes of legalizing a request and then, over and over, the module that came out. Each
time the override of the request is given again or not, as `again` says. -/
def passes (q : Request) (again : Nat → Bool) : Nat → Outcome
  | 0 => legalize q
  | n + 1 =>
    legalize
      { module := (q.passes again n).module
        override := if again n then q.override else none }

theorem effective_again (q : Request) (m : Module) (again : Bool)
    (h : m.profile = q.effective.profile) :
    effective { module := m, override := if again then q.override else none } = m := by
  cases again with
  | false => rfl
  | true =>
    unfold effective at h ⊢
    cases ho : q.override with
    | none => rfl
    | some o =>
      simp only [ho, if_true] at h ⊢
      split
      · rfl
      · next hb =>
        rw [if_neg hb] at h
        change { m with profile := some o } = m
        change m.profile = some o at h
        rw [← h]

end Request

theorem legalize_of_kept (r : Request) (m : Module) (b : Band) (he : r.effective = m)
    (hb : m.band? = some b) (hk : m.Kept b.profile) :
    legalize r =
      .close m (m.diagnostics ++ m.objections b.profile) (m.lower b.profile).statistics := by
  subst he
  rw [legalize, legalizeWith_of_band?_eq_some _ r b hb, hk.newDiagnostics, hk.lower_module]

section Passes

variable (q : Request) (b : Band) (hb : q.effective.band? = some b)

include hb

theorem legalize_module :
    (legalize q).module =
      (q.effective.lower b.profile).module.withDiagnostics (legalize q).diagnostics :=
  legalizeWith_module _ q b hb

theorem legalize_diagnostics :
    (legalize q).diagnostics =
      q.effective.diagnostics ++ q.effective.newDiagnostics Module.check b.profile := by
  rw [legalize, legalizeWith_of_band?_eq_some _ q b hb]
  rfl

theorem legalize_statistics :
    (legalize q).statistics =
      (q.effective.lower b.profile).statistics.recordDiagnostics (legalize q).diagnostics := by
  rw [legalize, legalizeWith_of_band?_eq_some _ q b hb]
  rfl

theorem legalize_module_kept : (legalize q).module.Kept b.profile := by
  rw [legalize_module q b hb]
  exact q.effective.lower_kept b.profile b.profile id id

theorem legalize_module_profile : (legalize q).module.profile = q.effective.profile := by
  rw [legalize_module q b hb]
  rfl

theorem legalize_module_band? : (legalize q).module.band? = some b := by
  rw [Module.band?, legalize_module_profile q b hb]
  exact hb

theorem legalize_again (again : Bool) (ds : List Diagnostic) :
    ∃ s : Statistics, s.changes = 0 ∧
      legalize
          { module := (legalize q).module.withDiagnostics ds
            override := if again then q.override else none } =
        .close (legalize q).module (ds ++ (legalize q).module.objections b.profile) s := by
  have hp := legalize_module_profile q b hb
  have hm := legalize_module_band? q b hb
  have hk := legalize_module_kept q b hb
  generalize (legalize q).module = m at hp hm hk ⊢
  have hk' : (m.withDiagnostics ds).Kept b.profile := hk
  refine ⟨_, hk'.lower_changes, ?_⟩
  rw [legalize_of_kept _ _ b (q.effective_again (m.withDiagnostics ds) again hp) hm hk',
    m.objections_withDiagnostics]
  rfl

theorem passes_step (again : Nat → Bool) (n : Nat)
    (h : (q.passes again n).module =
      (legalize q).module.withDiagnostics (q.passes again n).diagnostics) :
    ∃ s : Statistics, s.changes = 0 ∧
      q.passes again (n + 1) =
        .close (legalize q).module
          ((q.passes again n).diagnostics ++ (legalize q).module.objections b.profile) s := by
  rw [Request.passes, h]
  exact legalize_again q b hb (again n) _

theorem passes_module (again : Nat → Bool) (n : Nat) :
    (q.passes again n).module =
      (legalize q).module.withDiagnostics (q.passes again n).diagnostics := by
  induction n with
  | zero =>
    change (legalize q).module = (legalize q).module.withDiagnostics (legalize q).diagnostics
    rw [legalize_module q b hb]
    rfl
  | succ n ih =>
    obtain ⟨s, -, hs⟩ := passes_step q b hb again n ih
    rw [hs]
    rfl

theorem passes_succ (again : Nat → Bool) (n : Nat) :
    (q.passes again (n + 1)).statistics.changes = 0 ∧
      (q.passes again (n + 1)).diagnostics =
        (q.passes again n).diagnostics ++ (legalize q).module.objections b.profile := by
  obtain ⟨s, hc, hs⟩ := passes_step q b hb again n (passes_module q b hb again n)
  rw [hs]
  exact ⟨hc, rfl⟩

theorem objections_eq_nil (h : (legalize q).invalid = false) :
    (legalize q).module.objections b.profile = [] := by
  obtain ⟨b', hb', henv, -, hwf⟩ := of_legalize_valid q h
  obtain rfl : b' = b := Option.some.inj (hb'.symm.trans hb)
  rw [legalize_module q b' hb, Module.objections_withDiagnostics, Module.objections,
    List.append_eq_nil_iff]
  exact ⟨(Module.validate_eq_nil_iff _ _).2 (henv.lower b'.profile b'.profile),
    (Module.check_eq_nil_iff _).2 hwf⟩

theorem passes_diagnostics (h : (legalize q).invalid = false) (again : Nat → Bool) (n : Nat) :
    (q.passes again n).diagnostics = (legalize q).diagnostics := by
  induction n with
  | zero => rfl
  | succ n ih =>
    rw [(passes_succ q b hb again n).2, objections_eq_nil q b hb h, List.append_nil, ih]

end Passes

theorem legalize_invalid (r : Request) :
    (legalize r).invalid = (legalize r).diagnostics.any Diagnostic.isError := by
  unfold legalize legalizeWith
  cases h : r.effective.band? with
  | none => simp only [h, Outcome.close]
  | some b => simp only [h, Outcome.close]

theorem passes_invalid (q : Request) (again : Nat → Bool) (n : Nat) :
    (q.passes again n).invalid = (q.passes again n).diagnostics.any Diagnostic.isError := by
  cases n with
  | zero => exact legalize_invalid q
  | succ n => exact legalize_invalid _

/-- After the first call nothing is lowered any more. Each later call keeps the module and adds the
same objections to its diagnostics; for a module that came out valid there are none. -/
theorem repeated_legalization_settles (q : Request) (again : Nat → Bool) (b : Band)
    (hb : q.effective.band? = some b) :
    (legalize q).module.band? = some b ∧
    (∀ n,
      (q.passes again (n + 1)).module =
        (legalize q).module.withDiagnostics (q.passes again (n + 1)).diagnostics ∧
      (q.passes again (n + 1)).statistics.changes = 0 ∧
      (q.passes again (n + 1)).diagnostics =
        (q.passes again n).diagnostics ++ (legalize q).module.objections b.profile) ∧
    ((legalize q).invalid = false →
      (legalize q).module.objections b.profile = [] ∧
      ∀ n,
        (q.passes again n).module = (legalize q).module ∧
        (q.passes again n).diagnostics = (legalize q).diagnostics ∧
        (q.passes again n).invalid = false) := by
  refine ⟨legalize_module_band? q b hb, ?_, ?_⟩
  · intro n
    exact ⟨passes_module q b hb again (n + 1), passes_succ q b hb again n⟩
  · intro h
    refine ⟨objections_eq_nil q b hb h, ?_⟩
    intro n
    have hd := passes_diagnostics q b hb h again n
    refine ⟨?_, hd, ?_⟩
    · rw [passes_module q b hb again n, hd]
      exact (passes_module q b hb again 0).symm
    · rw [passes_invalid, hd, ← legalize_invalid]
      exact h

def loopRequest (last : String) : Request where
  override := some "ps_2_0"
  module :=
    { profile := some "ps_5_0"
      values := [{ id := 1 }, { id := 2 }]
      functions :=
        [ { name := "main", blocks := [{ id := "a", instructions :=
            [ { op := "Loop", tag := some "outer" },
              { op := "Normalize", operands := [1], result := some 2 },
              { op := last, terminator := true } ] }] } ] }

theorem repeated_legalization_settles_loopRequest :
    (legalize (loopRequest "Return")).statistics.changes = 2 ∧
    ((loopRequest "Return").passes (· == 1) 3).module = (legalize (loopRequest "Return")).module ∧
    ((loopRequest "Branch").passes (· == 1) 3).diagnostics =
      ((loopRequest "Branch").passes (· == 1) 2).diagnostics ++
        [(Fault.openBlock "main" "a" "Nop").diagnostic] := by
  refine ⟨by decide +kernel, ?_, ?_⟩
  · have h := repeated_legalization_settles (loopRequest "Return") (· == 1) .sm2 (by decide +kernel)
    exact ((h.2.2 (by decide +kernel)).2 3).1
  · have h := repeated_legalization_settles (loopRequest "Branch") (· == 1) .sm2 (by decide +kernel)
    have ho : (legalize (loopRequest "Branch")).module.objections Band.sm2.profile =
        [(Fault.openBlock "main" "a" "Nop").diagnostic] := by decide +kernel
    rw [(h.2.1 2).2.2, ho]

end ShaderLegalizer
