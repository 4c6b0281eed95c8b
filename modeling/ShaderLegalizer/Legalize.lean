import ShaderLegalizer.Lowering
import ShaderLegalizer.Structure.Check

/-!
Legalization: one call takes a module to a profile. The module is first compared with the profile,
then lowered to it, then checked. Diagnostics accumulate behind those that the module brought
along, and the module takes the whole list with it.
-/

set_option autoImplicit false

namespace ShaderLegalizer

structure Request where
  module : Module
  override : Option String := none
deriving DecidableEq, Repr

namespace Request

/-- The module with the override in place. A blank override counts as none. -/
def effective (r : Request) : Module :=
  match r.override with
  | some p => if Text.isBlankText p then r.module else r.module.withProfile p
  | none => r.module

end Request

structure Outcome where
  module : Module
  diagnostics : List Diagnostic
  invalid : Bool
  statistics : Statistics
deriving DecidableEq, Repr

namespace Outcome

def errors (o : Outcome) : List Diagnostic :=
  o.diagnostics.filter Diagnostic.isError

def close (m : Module) (ds : List Diagnostic) (s : Statistics) : Outcome where
  module := m.withDiagnostics ds
  diagnostics := ds
  invalid := ds.any Diagnostic.isError
  statistics := s.recordDiagnostics ds

end Outcome

namespace Module

def band? (m : Module) : Option Band :=
  Band.ofProfileName? (m.profile.getD "")

def unknownProfile (m : Module) : Diagnostic where
  severity := .error
  message :=
    "Unknown or missing profile '" ++ m.profile.getD "<none>" ++ "' for legalization."
  stage := legalizeStage

def removalError : Diagnostic where
  severity := .error
  message := "Unsupported operations removed during legalization."
  stage := legalizeStage

def newDiagnostics (check : Module → List Diagnostic) (m : Module) (p : Profile) :
    List Diagnostic :=
  let lowered := m.lower p
  m.validate p ++ lowered.notices ++ (if lowered.invalid then [removalError] else []) ++
    check lowered.module

end Module

/-- Legalizes a request. The last step, the check of the lowered module, is left to the caller. -/
def legalizeWith (check : Module → List Diagnostic) (r : Request) : Outcome :=
  let m := r.effective
  match m.band? with
  | none => .close m (m.diagnostics ++ [m.unknownProfile]) {}
  | some b =>
    let lowered := m.lower b.profile
    .close lowered.module (m.diagnostics ++ m.newDiagnostics check b.profile) lowered.statistics

def legalize (r : Request) : Outcome :=
  legalizeWith Module.check r

end ShaderLegalizer
