import ShaderLegalizer.Proofs.Acceptance
import ShaderLegalizer.Proofs.ModuleRoundTrip

set_option autoImplicit false

namespace ShaderLegalizer

/-- What can be done to a module. -/
inductive Operation where
  | setProfile (profile : String)
  | setFunctions (functions : List Function)
  | lower (p : Profile)
  | legalize (check : Module → List Diagnostic) (override : Option String)
  | reread

def Operation.run (m : Module) : Operation → Except ReadError Module
  | .setProfile p => .ok (m.withProfile p)
  | .setFunctions fs => .ok (m.withFunctions fs)
  | .lower p => .ok (m.lower p).module
  | .legalize check override =>
    .ok (legalizeWith check { module := m, override := override }).module
  | .reread => Module.ofText m.toText

namespace Module

/-- The module after the operations, one after another. The first that fails ends the run. -/
def after (m : Module) (ops : List Operation) : Except ReadError Module :=
  ops.foldlM Operation.run m

/-- Messages and stages of the diagnostics. -/
def history (m : Module) : List (String × String) :=
  m.diagnostics.map fun d => (d.message, d.stage)

/-- Nothing that the first module reports is lost in the second. -/
structure Extends (m m' : Module) : Prop where
  history : m.history <+: m'.history
  errors : m.hasErrors = true → m'.hasErrors = true

theorem Extends.refl (m : Module) : m.Extends m :=
  ⟨List.prefix_refl _, id⟩

theorem Extends.trans {m u v : Module} (h : m.Extends u) (h' : u.Extends v) : m.Extends v :=
  ⟨h.history.trans h'.history, fun he => h'.errors (h.errors he)⟩

theorem extends_of_append {m m' : Module} (ds : List Diagnostic)
    (h : m'.diagnostics = m.diagnostics ++ ds) : m.Extends m' where
  history := by
    rw [Module.history, Module.history, h, List.map_append]
    exact List.prefix_append _ _
  errors := by
    intro he
    rw [hasErrors] at he
    rw [hasErrors, h, List.any_append, he, Bool.true_or]

theorem extends_of_eq {m m' : Module} (h : m'.diagnostics = m.diagnostics) : m.Extends m' :=
  extends_of_append [] (by rw [h, List.append_nil])

theorem extends_legalizeWith (check : Module → List Diagnostic) (r : Request) :
    r.module.Extends (legalizeWith check r).module := by
  cases hb : r.effective.band? with
  | none =>
    apply extends_of_append [r.effective.unknownProfile]
    rw [legalizeWith_module_diagnostics, legalizeWith_of_band?_eq_none check r hb,
      ← r.effective_diagnostics]
    rfl
  | some b =>
    apply extends_of_append (r.effective.newDiagnostics check b.profile)
    rw [legalizeWith_module_diagnostics, legalizeWith_of_band?_eq_some check r b hb,
      ← r.effective_diagnostics]
    rfl

theorem canonical_history (m : Module) : m.canonical.history = m.history := by
  simp only [history, canonical, withDiagnostics, List.map_map]
  rfl

theorem extends_canonical (m : Module) : m.Extends m.canonical where
  history := m.canonical_history ▸ List.prefix_refl _
  errors := by
    intro he
    obtain ⟨d, hd, hde⟩ := List.any_eq_true.1 he
    refine List.any_eq_true.2 ⟨d.canonical, List.mem_map_of_mem hd, ?_⟩
    have hs : d.severity = .error := by simpa [Diagnostic.isError] using hde
    simp only [Diagnostic.isError, Diagnostic.canonical, hs]
    rfl

end Module

theorem Operation.run_extends (m : Module) (op : Operation) :
    ∃ m', op.run m = .ok m' ∧ m.Extends m' := by
  cases op with
  | setProfile p => exact ⟨_, rfl, Module.extends_of_eq rfl⟩
  | setFunctions fs => exact ⟨_, rfl, Module.extends_of_eq rfl⟩
  | lower p => exact ⟨_, rfl, Module.extends_of_eq rfl⟩
  | legalize check override =>
    exact ⟨_, rfl, Module.extends_legalizeWith check { module := m, override := override }⟩
  | reread => exact ⟨_, m.ofText_toText, m.extends_canonical⟩

namespace Module

theorem after_extends (m : Module) (ops : List Operation) :
    ∃ m', m.after ops = .ok m' ∧ m.Extends m' := by
  induction ops generalizing m with
  | nil => exact ⟨m, rfl, .refl m⟩
  | cons op ops ih =>
    obtain ⟨u, hu, hmu⟩ := op.run_extends m
    obtain ⟨v, hv, huv⟩ := ih u
    refine ⟨v, ?_, hmu.trans huv⟩
    rw [after, List.foldlM_cons, hu]
    exact hv

theorem after_append {m u : Module} {ops : List Operation} (h : m.after ops = .ok u)
    (later : List Operation) : m.after (ops ++ later) = u.after later := by
  rw [after] at h
  rw [after, List.foldlM_append, h]
  rfl

/-- However a module is worked on, no operation fails. What its diagnostics say at one point of the
run is how the list begins at every later point, and a module with errors keeps having errors. -/
theorem history_append_only (m : Module) (ops later : List Operation) :
    ∃ u v, m.after ops = .ok u ∧ m.after (ops ++ later) = .ok v ∧
      u.history <+: v.history ∧ (u.hasErrors = true → v.hasErrors = true) := by
  obtain ⟨u, hu, -⟩ := m.after_extends ops
  obtain ⟨v, hv, huv⟩ := u.after_extends later
  exact ⟨u, v, hu, (after_append hu later).trans hv, huv.history, huv.errors⟩

example : Diagnostic.isError { severity := .other " ERROR" } = false ∧
    Diagnostic.isError (Diagnostic.canonical { severity := .other " ERROR" }) = true := by decide

end Module

end ShaderLegalizer
