import Mathlib.Data.List.Forall2
import ShaderLegalizer.Proofs.Acceptance
import ShaderLegalizer.Proofs.LoweringSteps

/-!
The account that lowering gives of itself. A pass over the module, function by function, block by
block and instruction by instruction, keeps a ledger of diagnostics and counts; what is in it in the
end is what `Module.lower` says. Each rule but the one that keeps leaves its tag and is applied to
untagged instructions only, so a change is counted exactly where an instruction comes out different,
and one diagnostic is added for it.
-/

set_option autoImplicit false

namespace ShaderLegalizer

/-- The diagnostics and the counts of a pass so far. -/
structure Ledger where
  diagnostics : List Diagnostic
  statistics : Statistics := {}

namespace Ledger

def enterFunction (l : Ledger) : Ledger :=
  { l with statistics := { l.statistics with functions := l.statistics.functions + 1 } }

def enterBlock (l : Ledger) : Ledger :=
  { l with statistics := { l.statistics with blocks := l.statistics.blocks + 1 } }

def record (p : Profile) (i : Instruction) (l : Ledger) : Ledger :=
  let rule := Rule.ofInstruction p i
  let s := { l.statistics with instructions := l.statistics.instructions + 1 }
  { diagnostics := l.diagnostics ++ (rule.notice? p.band i.op).toList
    statistics :=
      match rule with
      | .flatten => { s with branchesFlattened := s.branchesFlattened + 1 }
      | .unroll => { s with loopsUnrolled := s.loopsUnrolled + 1 }
      | .decompose => { s with intrinsicsDecomposed := s.intrinsicsDecomposed + 1 }
      | .remove => { s with opsRemoved := s.opsRemoved + 1 }
      | .keep => s }

end Ledger

/-! ### The pass -/

def Instruction.visit (p : Profile) (i : Instruction) : StateM Ledger Instruction := do
  modify (Ledger.record p i)
  return (Rule.ofInstruction p i).apply i

def Block.visit (p : Profile) (b : Block) : StateM Ledger Block := do
  modify Ledger.enterBlock
  let instructions ← b.instructions.mapM (Instruction.visit p)
  return { b with instructions := instructions }

def Function.visit (p : Profile) (f : Function) : StateM Ledger Function := do
  modify Ledger.enterFunction
  let blocks ← f.blocks.mapM (Block.visit p)
  return { f with blocks := blocks }

def Module.visit (p : Profile) (m : Module) : StateM Ledger Module := do
  let functions ← m.functions.mapM (Function.visit p)
  return m.withFunctions functions

namespace Ledger

/-- The ledger after the functions, blocks and instructions given have been visited. -/
def book (p : Profile) (l : Ledger) (fs : List Function) (bs : List Block)
    (is : List Instruction) : Ledger where
  diagnostics := l.diagnostics ++ is.filterMap (Instruction.notice? p)
  statistics :=
    { l.statistics with
      functions := l.statistics.functions + fs.length
      blocks := l.statistics.blocks + bs.length
      instructions := l.statistics.instructions + is.length
      branchesFlattened :=
        l.statistics.branchesFlattened + is.countP (Rule.ofInstruction p · == .flatten)
      loopsUnrolled := l.statistics.loopsUnrolled + is.countP (Rule.ofInstruction p · == .unroll)
      intrinsicsDecomposed :=
        l.statistics.intrinsicsDecomposed + is.countP (Rule.ofInstruction p · == .decompose)
      opsRemoved := l.statistics.opsRemoved + is.countP (Rule.ofInstruction p · == .remove) }

variable (p : Profile) (l : Ledger)

theorem book_nil : l.book p [] [] [] = l := by
  simp [book]

theorem book_book (fs fs' : List Function) (bs bs' : List Block) (is is' : List Instruction) :
    (l.book p fs bs is).book p fs' bs' is' = l.book p (fs ++ fs') (bs ++ bs') (is ++ is') := by
  simp only [book, List.filterMap_append, List.countP_append, List.length_append,
    List.append_assoc, Nat.add_assoc]

theorem enterFunction_eq (f : Function) : l.enterFunction = l.book p [f] [] [] := by
  simp [enterFunction, book]

theorem enterBlock_eq (b : Block) : l.enterBlock = l.book p [] [b] [] := by
  simp [enterBlock, book]

theorem record_eq (i : Instruction) : l.record p i = l.book p [] [] [i] := by
  unfold record book Instruction.notice?
  cases h : Rule.ofInstruction p i <;> simp [h, Rule.notice?]

theorem run_bind {α β : Type} (x : StateM Ledger α) (f : α → StateM Ledger β) :
    (x >>= f).run l = (f (x.run l).1).run (x.run l).2 :=
  rfl

theorem run_modify (f : Ledger → Ledger) : (modify f : StateM Ledger Unit).run l = ((), f l) :=
  rfl

theorem run_mapM {α : Type} (visit : α → StateM Ledger α) (result : α → α)
    (fs : α → List Function) (bs : α → List Block) (is : α → List Instruction)
    (h : ∀ a l, (visit a).run l = (result a, l.book p (fs a) (bs a) (is a))) (as : List α) :
    (as.mapM visit).run l =
      (as.map result, l.book p (as.flatMap fs) (as.flatMap bs) (as.flatMap is)) := by
  induction as generalizing l with
  | nil =>
    rw [List.flatMap_nil, List.flatMap_nil, List.flatMap_nil, book_nil]
    rfl
  | cons a as ih =>
    rw [List.mapM_cons, run_bind, h, run_bind, ih, book_book]
    rfl

theorem flatMap_none {α β : Type} (as : List α) : as.flatMap (fun _ => ([] : List β)) = [] :=
  List.flatMap_eq_nil_iff.2 fun _ _ => rfl

end Ledger

theorem Instruction.visit_run (p : Profile) (i : Instruction) (l : Ledger) :
    (i.visit p).run l = (i.lower p, l.book p [] [] [i]) := by
  rw [← l.record_eq p i]
  rfl

theorem Block.visit_run (p : Profile) (b : Block) (l : Ledger) :
    (b.visit p).run l =
      (b.mapInstructions (Instruction.lower p), l.book p [] [b] b.instructions) := by
  have hloop := l.enterBlock.run_mapM p _ _ _ _ _ (Instruction.visit_run p) b.instructions
  rw [Ledger.flatMap_none, Ledger.flatMap_none, List.flatMap_singleton', l.enterBlock_eq p b,
    Ledger.book_book] at hloop
  rw [visit, Ledger.run_bind, Ledger.run_modify, l.enterBlock_eq p b, Ledger.run_bind, hloop]
  rfl

theorem Function.visit_run (p : Profile) (f : Function) (l : Ledger) :
    (f.visit p).run l =
      (f.mapInstructions (Instruction.lower p), l.book p [f] f.blocks f.instructions) := by
  have hloop := l.enterFunction.run_mapM p _ _ _ _ _ (Block.visit_run p) f.blocks
  rw [Ledger.flatMap_none, List.flatMap_singleton', l.enterFunction_eq p f,
    Ledger.book_book] at hloop
  rw [visit, Ledger.run_bind, Ledger.run_modify, l.enterFunction_eq p f, Ledger.run_bind, hloop]
  rfl

namespace Module

variable (m : Module) (p : Profile)

/-- The pass gives the lowered module and enters in the ledger what lowering says of itself. -/
theorem visit_run (ds : List Diagnostic) :
    (m.visit p).run { diagnostics := ds } =
      ((m.lower p).module,
        { diagnostics := ds ++ (m.lower p).notices, statistics := (m.lower p).statistics }) := by
  let l : Ledger := { diagnostics := ds }
  have hloop := l.run_mapM p _ _ _ _ _ (Function.visit_run p) m.functions
  rw [List.flatMap_singleton'] at hloop
  have hbook : l.book p m.functions m.blocks m.instructions =
      { diagnostics := ds ++ (m.lower p).notices, statistics := (m.lower p).statistics } := by
    simp [Ledger.book, l, lower, ruleCount]
  rw [visit, Ledger.run_bind, hloop, ← hbook]
  rfl

end Module

/-! ### Where instructions come out different -/

namespace Instruction

theorem lower_eq_self_iff (p : Profile) (i : Instruction) :
    i.lower p = i ↔ Rule.ofInstruction p i = .keep := by
  refine ⟨fun h => ?_, i.lower_of_keep p⟩
  by_contra hr
  have ht : (i.lower p).Tagged := Rule.apply_tagged i _ hr
  rw [h] at ht
  exact hr (Rule.ofInstruction_of_tagged p i ht)

/-- The diagnostic is the one for the rule that is applied to the instruction. -/
structure Noticed (p : Profile) (i : Instruction) (d : Diagnostic) : Prop where
  changed : Rule.ofInstruction p i ≠ .keep
  notice : i.notice? p = some d
  severity : d.severity = if Rule.ofInstruction p i = .remove then .error else .info

theorem exists_noticed (p : Profile) (i : Instruction) (h : Rule.ofInstruction p i ≠ .keep) :
    ∃ d, i.Noticed p d := by
  cases hr : Rule.ofInstruction p i with
  | flatten => exact ⟨_, h, by rw [notice?, hr]; rfl, by rw [hr]; rfl⟩
  | unroll => exact ⟨_, h, by rw [notice?, hr]; rfl, by rw [hr]; rfl⟩
  | decompose => exact ⟨_, h, by rw [notice?, hr]; rfl, by rw [hr]; rfl⟩
  | remove => exact ⟨_, h, by rw [notice?, hr]; rfl, by rw [hr]; rfl⟩
  | keep => exact absurd hr h

end Instruction

namespace Module

/-- What stands at the same position of two modules, in program order, where it is not the same. -/
def differences (m m' : Module) : List (Instruction × Instruction) :=
  (m.instructions.zip m'.instructions).filter fun ij => ij.1 ≠ ij.2

/-- The number of instructions of each block of each function. -/
def shape (m : Module) : List (List Nat) :=
  m.functions.map fun f => f.blocks.map fun b => b.instructions.length

variable (m : Module) (p : Profile)

theorem lower_shape : (m.lower p).module.shape = m.shape := by
  simp [shape, lower, mapInstructions, withFunctions, Function.mapInstructions,
    Block.mapInstructions, Function.comp_def]

theorem lower_differences :
    m.differences (m.lower p).module =
      (m.instructions.filter fun i => Rule.ofInstruction p i ≠ .keep).map
        fun i => (i, i.lower p) := by
  rw [differences, lower_instructions, ← List.map_prod_left_eq_zip, List.filter_map]
  congr 1
  refine List.filter_congr fun i _ => ?_
  have h := (Iff.intro Eq.symm Eq.symm).trans (i.lower_eq_self_iff p)
  simp [h]

theorem lower_noticed :
    List.Forall₂ (fun ij d => ij.1.Noticed p d) (m.differences (m.lower p).module)
      (m.lower p).notices := by
  rw [lower_differences, List.forall₂_map_left_iff]
  change List.Forall₂ _ _ (m.instructions.filterMap (Instruction.notice? p))
  induction m.instructions with
  | nil => exact .nil
  | cons i is ih =>
    by_cases h : Rule.ofInstruction p i = .keep
    · rw [List.filter_cons_of_neg (by simp [h]), List.filterMap_cons, i.notice?_of_keep p h]
      exact ih
    · obtain ⟨d, hd⟩ := i.exists_noticed p h
      rw [List.filter_cons_of_pos (by simp [h]), List.filterMap_cons, hd.notice]
      exact .cons hd ih

theorem differences_length :
    (m.differences (m.lower p).module).length = (m.lower p).statistics.changes := by
  rw [lower_differences, List.length_map, ← List.countP_eq_length_filter]
  change m.instructions.countP (fun i => Rule.ofInstruction p i ≠ .keep) =
    m.ruleCount p .flatten + m.ruleCount p .unroll + m.ruleCount p .decompose +
      m.ruleCount p .remove
  unfold ruleCount
  induction m.instructions with
  | nil => rfl
  | cons i is ih =>
    simp only [List.countP_cons, ih]
    cases Rule.ofInstruction p i <;> simp <;> omega

theorem notices_length : (m.lower p).notices.length = (m.lower p).statistics.changes := by
  rw [← differences_length]
  exact (m.lower_noticed p).length_eq.symm

theorem notices_errors :
    (m.lower p).notices.countP Diagnostic.isError = (m.lower p).statistics.opsRemoved := by
  change (m.instructions.filterMap (Instruction.notice? p)).countP _ = m.ruleCount p .remove
  rw [ruleCount, List.countP_filterMap]
  refine List.countP_congr fun i _ => ?_
  rw [Instruction.notice?, beq_iff_eq]
  cases Rule.ofInstruction p i <;> simp [Rule.notice?, Diagnostic.isError]

theorem notices_rest (d : Diagnostic) (hd : d ∈ (m.lower p).notices) (he : d.isError = false) :
    d.severity = .info := by
  obtain ⟨i, -, hi⟩ := List.mem_filterMap.1 hd
  have hk : Rule.ofInstruction p i ≠ .keep := by
    intro hk
    rw [i.notice?_of_keep p hk] at hi
    cases hi
  obtain ⟨d', hd'⟩ := i.exists_noticed p hk
  obtain rfl : d = d' := Option.some.inj (hi.symm.trans hd'.notice)
  have hs := hd'.severity
  split at hs
  · rw [Diagnostic.isError, hs] at he
    cases he
  · exact hs

end Module

/-! ### Severities -/

theorem Statistics.recordDiagnostics_total (s : Statistics) (ds : List Diagnostic) :
    (s.recordDiagnostics ds).infos + (s.recordDiagnostics ds).warnings +
      (s.recordDiagnostics ds).errors + (s.recordDiagnostics ds).others = ds.length := by
  simp only [recordDiagnostics]
  induction ds with
  | nil => rfl
  | cons d ds ih =>
    obtain ⟨severity, _, _⟩ := d
    simp only [List.countP_cons, List.length_cons, ← ih, Diagnostic.isError]
    cases severity <;> simp [Severity.isOther] <;> omega

theorem Statistics.recordDiagnostics_errors_pos (s : Statistics) (ds : List Diagnostic) :
    0 < (s.recordDiagnostics ds).errors ↔ ds.any Diagnostic.isError = true := by
  rw [List.any_eq_true]
  exact List.countP_pos_iff

/-- The outcome counts each of its diagnostics once, and its counts, its list and its module have
errors together or not at all. -/
structure Outcome.Accounted (o : Outcome) : Prop where
  total : o.statistics.infos + o.statistics.warnings + o.statistics.errors + o.statistics.others =
    o.diagnostics.length
  invalid_iff_counted : o.invalid = true ↔ 0 < o.statistics.errors
  invalid_iff_carried : o.invalid = true ↔ o.module.hasErrors = true

theorem Outcome.close_accounted (m : Module) (ds : List Diagnostic) (s : Statistics) :
    (Outcome.close m ds s).Accounted where
  total := s.recordDiagnostics_total ds
  invalid_iff_counted := (s.recordDiagnostics_errors_pos ds).symm
  invalid_iff_carried := Iff.rfl

theorem legalizeWith_accounted (check : Module → List Diagnostic) (r : Request) :
    (legalizeWith check r).Accounted := by
  cases hb : r.effective.band? with
  | none =>
    rw [legalizeWith_of_band?_eq_none check r hb]
    exact Outcome.close_accounted _ _ _
  | some b =>
    rw [legalizeWith_of_band?_eq_some check r b hb]
    exact Outcome.close_accounted _ _ _

/-- What a lowering says of itself is true of the module that it began with. -/
structure Lowered.Accounted (m : Module) (p : Profile) (l : Lowered) : Prop where
  functions : l.statistics.functions = m.functions.length
  blocks : l.statistics.blocks = m.blocks.length
  instructions : l.statistics.instructions = m.instructions.length
  flattened : l.statistics.branchesFlattened =
    m.instructions.countP fun i => Rule.ofInstruction p i = .flatten
  unrolled : l.statistics.loopsUnrolled =
    m.instructions.countP fun i => Rule.ofInstruction p i = .unroll
  decomposed : l.statistics.intrinsicsDecomposed =
    m.instructions.countP fun i => Rule.ofInstruction p i = .decompose
  removed : l.statistics.opsRemoved =
    m.instructions.countP fun i => Rule.ofInstruction p i = .remove
  shape : l.module.shape = m.shape
  changes : l.statistics.changes = (m.differences l.module).length
  notices : List.Forall₂ (fun ij d => ij.1.Noticed p d) (m.differences l.module) l.notices
  errors : l.notices.countP Diagnostic.isError = l.statistics.opsRemoved
  rest : ∀ d ∈ l.notices, d.isError = false → d.severity = .info
  invalid : l.invalid = true ↔ 0 < l.statistics.opsRemoved

/-- The account of a lowering is exact. The pass, begun with any diagnostics, gives the lowered
module and adds to the ledger what lowering says of itself, and all of that is true. So is what the
outcome of a legalization says of its diagnostics, whatever the check. -/
theorem lowering_accounted (m : Module) (p : Profile) (ds : List Diagnostic) :
    (m.visit p).run { diagnostics := ds } =
      ((m.lower p).module,
        { diagnostics := ds ++ (m.lower p).notices, statistics := (m.lower p).statistics }) ∧
    (m.lower p).notices.length = (m.lower p).statistics.changes ∧
    (m.lower p).Accounted m p ∧
    ∀ check r, (legalizeWith check r).Accounted := by
  refine ⟨m.visit_run p ds, m.notices_length p, ?_, legalizeWith_accounted⟩
  exact
    { functions := rfl
      blocks := rfl
      instructions := rfl
      flattened := rfl
      unrolled := rfl
      decomposed := rfl
      removed := rfl
      shape := m.lower_shape p
      changes := (m.differences_length p).symm
      notices := m.lower_noticed p
      errors := m.notices_errors p
      rest := m.notices_rest p
      invalid := decide_eq_true_iff }

end ShaderLegalizer
