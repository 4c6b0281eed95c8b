import ShaderLegalizer.Proofs.FixedPoint

set_option autoImplicit false

namespace ShaderLegalizer

namespace Module

structure SameProgram (m m' : Module) : Prop where
  entryPoint : m.entryPoint = m'.entryPoint
  functions : m.functions = m'.functions
  values : m.values = m'.values
  resources : m.resources = m'.resources

/-- The module with nothing but its program. -/
def program (m : Module) : Module where
  entryPoint := m.entryPoint
  functions := m.functions
  values := m.values
  resources := m.resources

theorem sameProgram_iff (m m' : Module) : m.SameProgram m' ↔ m.program = m'.program := by
  simp only [program, Module.mk.injEq, true_and, and_true]
  constructor
  · intro h
    exact ⟨h.entryPoint, h.functions, h.values, h.resources⟩
  · rintro ⟨he, hf, hv, hr⟩
    exact ⟨he, hf, hv, hr⟩

variable (m : Module) (p : Profile)

theorem program_lower_module : (m.program.lower p).module = (m.lower p).module.program :=
  rfl

theorem program_lower_statistics : (m.program.lower p).statistics = (m.lower p).statistics :=
  rfl

theorem program_newDiagnostics :
    m.program.newDiagnostics check p = m.newDiagnostics check p := by
  have hv : m.program.validate p = m.validate p := rfl
  have hn : (m.program.lower p).notices = (m.lower p).notices := rfl
  have hi : (m.program.lower p).invalid = (m.lower p).invalid := rfl
  have hc : (m.lower p).module.program.check = (m.lower p).module.check := rfl
  rw [newDiagnostics, newDiagnostics, program_lower_module, hv, hn, hi, hc]

end Module

theorem Request.effective_program (r : Request) : r.effective.program = r.module.program := by
  rw [r.effective_eq]
  rfl

/-- The counts of what was visited and changed, without those of diagnostics. -/
def Statistics.work (s : Statistics) : Statistics :=
  { s with infos := 0, warnings := 0, errors := 0, others := 0 }

theorem Statistics.recordDiagnostics_work (s : Statistics) (ds : List Diagnostic) :
    (s.recordDiagnostics ds).work = s.work :=
  rfl

section OneRun

variable (r : Request) (b : Band) (hb : r.effective.band? = some b)

include hb

theorem legalize_module_program :
    (legalize r).module.program = (r.module.program.lower b.profile).module := by
  rw [legalize_module r b hb, ← r.effective_program, Module.program_lower_module]
  rfl

theorem legalize_statistics_work :
    (legalize r).statistics.work = (r.module.program.lower b.profile).statistics.work := by
  rw [legalize_statistics r b hb, Statistics.recordDiagnostics_work, ← r.effective_program,
    Module.program_lower_statistics]

theorem legalize_diagnostics_program :
    (legalize r).diagnostics =
      r.module.diagnostics ++ r.module.program.newDiagnostics Module.check b.profile := by
  rw [legalize_diagnostics r b hb, r.effective_diagnostics, ← r.effective_program,
    Module.program_newDiagnostics]

end OneRun

/-- Requests with the same program and the same band have outcomes with the same program and the
same work done. Each keeps the diagnostics it came with, and behind them both have one list. -/
theorem legalization_reads_program_only (r r' : Request)
    (h : r.module.SameProgram r'.module) (b : Band)
    (hb : r.effective.band? = some b) (hb' : r'.effective.band? = some b) :
    (legalize r).module.SameProgram (legalize r').module ∧
    (legalize r).statistics.work = (legalize r').statistics.work ∧
    ∃ ds, (legalize r).diagnostics = r.module.diagnostics ++ ds ∧
      (legalize r').diagnostics = r'.module.diagnostics ++ ds := by
  have hp : r.module.program = r'.module.program := (Module.sameProgram_iff _ _).1 h
  refine ⟨?_, ?_, r.module.program.newDiagnostics Module.check b.profile, ?_, ?_⟩
  · rw [Module.sameProgram_iff, legalize_module_program r b hb, legalize_module_program r' b hb',
      hp]
  · rw [legalize_statistics_work r b hb, legalize_statistics_work r' b hb', hp]
  · exact legalize_diagnostics_program r b hb
  · rw [hp]
    exact legalize_diagnostics_program r' b hb'

def flawed (version : Option UInt32) (profile : Option String) (carried : List Diagnostic) :
    Module where
  formatVersion := version
  profile := profile
  entryPoint := some { function := "main", stage := "ps" }
  functions :=
    [ { name := "main", blocks := [{ id := "a", instructions :=
        [{ op := "Branch", operands := [7] }, { op := "UnknownOp", terminator := true }] }] } ]
  diagnostics := carried

theorem legalization_reads_program_only_flawed :
    let r : Request := { module := flawed (some 3) (some " PS_2_b ") [] }
    let r' : Request :=
      { module := flawed none (some "ps_5_0") [⟨.error, "bad", "parse"⟩], override := some "SM2x" }
    r.effective.band? = some .sm2 ∧ r'.effective.band? = some .sm2 ∧
    (legalize r).statistics.work = (legalize r').statistics.work ∧
    (legalize r').diagnostics = ⟨.error, "bad", "parse"⟩ :: (legalize r).diagnostics := by
  intro r r'
  have hb : r.effective.band? = some .sm2 := by decide +kernel
  have hb' : r'.effective.band? = some .sm2 := by decide +kernel
  obtain ⟨-, hw, ds, hd, hd'⟩ :=
    legalization_reads_program_only r r' ⟨rfl, rfl, rfl, rfl⟩ .sm2 hb hb'
  refine ⟨hb, hb', hw, ?_⟩
  rw [hd, hd']
  rfl

end ShaderLegalizer
