import ShaderLegalizer.Diagnostic

set_option autoImplicit false

namespace ShaderLegalizer

structure Statistics where
  functions : Nat := 0
  blocks : Nat := 0
  instructions : Nat := 0
  branchesFlattened : Nat := 0
  loopsUnrolled : Nat := 0
  intrinsicsDecomposed : Nat := 0
  opsRemoved : Nat := 0
  infos : Nat := 0
  warnings : Nat := 0
  errors : Nat := 0
  others : Nat := 0
deriving DecidableEq, Repr, Inhabited

namespace Statistics

def changes (s : Statistics) : Nat :=
  s.branchesFlattened + s.loopsUnrolled + s.intrinsicsDecomposed + s.opsRemoved

/-- Counts the severities of a list anew. -/
def recordDiagnostics (s : Statistics) (ds : List Diagnostic) : Statistics :=
  { s with
    infos := ds.countP fun d => d.severity == .info
    warnings := ds.countP fun d => d.severity == .warning
    errors := ds.countP Diagnostic.isError
    others := ds.countP fun d => d.severity.isOther }

def lines (s : Statistics) : List String :=
  [ "Legalization Statistics:",
    s!"  Functions visited: {s.functions}",
    s!"  Blocks visited: {s.blocks}",
    s!"  Instructions visited: {s.instructions}",
    s!"  Branches flattened: {s.branchesFlattened}",
    s!"  Loops unrolled: {s.loopsUnrolled}",
    s!"  Intrinsics rewritten: {s.intrinsicsDecomposed}",
    s!"  Ops removed: {s.opsRemoved}",
    s!"  Diagnostics: {s.errors} error(s), {s.warnings} warning(s), {s.infos} info, " ++
      s!"{s.others} other" ]

def report (s : Statistics) : String :=
  "\n".intercalate s.lines

end Statistics

end ShaderLegalizer
