import Mathlib.Data.List.Basic
import ShaderLegalizer.Proofs.UpwardCompatibility

set_option autoImplicit false

namespace ShaderLegalizer

def Diagnostic.begins (words : String) (d : Diagnostic) : Bool :=
  words.toList.isPrefixOf d.message.toList

theorem Diagnostic.begins_iff (words : String) (d : Diagnostic) :
    d.begins words = true ↔ words.toList <+: d.message.toList :=
  List.isPrefixOf_iff_prefix

theorem Text.prefix_append {w : List Char} {s : String} (h : w <+: s.toList) (t : String) :
    w <+: (s ++ t).toList := by
  rw [String.toList_append]
  exact h.trans (List.prefix_append _ _)

namespace Finding

inductive Kind where
  | instructionBudget
  | tempBudget
  | gradient
  | systemSemantic
  | textureBudget
  | vertexTextureFetch
  | typedUav
  | renderTarget
  | dynamicBranching
deriving DecidableEq, Repr

def Kind.all : List Kind :=
  [.instructionBudget, .tempBudget, .gradient, .systemSemantic, .textureBudget,
    .vertexTextureFetch, .typedUav, .renderTarget, .dynamicBranching]

/-- The kinds that operations have no part in: their checks count instructions or look at values and
resources. -/
def Kind.steady : List Kind :=
  [.instructionBudget, .tempBudget, .systemSemantic, .typedUav, .renderTarget]

theorem Kind.mem_all (k : Kind) : k ∈ Kind.all := by
  cases k <;> decide

def kind : Finding → Kind
  | .instructionBudget _ _ => .instructionBudget
  | .tempBudget _ _ => .tempBudget
  | .gradient => .gradient
  | .systemSemantic => .systemSemantic
  | .textureBudget _ _ => .textureBudget
  | .vertexTextureFetch => .vertexTextureFetch
  | .typedUav => .typedUav
  | .renderTarget => .renderTarget
  | .dynamicBranching _ => .dynamicBranching

def count? : Finding → Option Nat
  | .instructionBudget n _ | .tempBudget n _ | .textureBudget n _ | .dynamicBranching n => some n
  | _ => none

/-- The words that messages of the kind begin with. -/
def Kind.opening : Kind → String
  | .instructionBudget => "Instruction count "
  | .tempBudget => "Temporary register count "
  | .gradient => "Gradient operations "
  | .systemSemantic => "SV semantics "
  | .textureBudget => "Texture instruction count "
  | .vertexTextureFetch => "Vertex texture fetch "
  | .typedUav => "Typed UAVs "
  | .renderTarget => "Multiple render targets "
  | .dynamicBranching => "Dynamic branching "

/-- Whether the diagnostic reads as a finding of the kind. -/
def Kind.names (k : Kind) (d : Diagnostic) : Bool :=
  d.begins k.opening

def diagnostic (p : Profile) (stage : String) (f : Finding) : Diagnostic :=
  { severity := .error, message := f.message p.band stage, stage := legalizeStage }

theorem opening_prefix (b : Label) (stage : String) (f : Finding) :
    f.kind.opening.toList <+: (f.message b stage).toList := by
  cases f with
  | instructionBudget n max =>
    iterate 6 apply Text.prefix_append
    exact List.prefix_refl _
  | tempBudget n max =>
    iterate 6 apply Text.prefix_append
    exact List.prefix_refl _
  | gradient =>
    iterate 4 apply Text.prefix_append
    decide
  | systemSemantic =>
    iterate 2 apply Text.prefix_append
    decide
  | textureBudget n max =>
    iterate 6 apply Text.prefix_append
    exact List.prefix_refl _
  | vertexTextureFetch =>
    iterate 2 apply Text.prefix_append
    decide
  | typedUav =>
    iterate 2 apply Text.prefix_append
    decide
  | renderTarget =>
    iterate 2 apply Text.prefix_append
    decide
  | dynamicBranching n =>
    iterate 5 apply Text.prefix_append
    change Kind.dynamicBranching.opening.toList <+: _
    decide

theorem Kind.eq_of_prefix {k k' : Kind} (h : k.opening.toList <+: k'.opening.toList) : k = k' := by
  revert h
  cases k <;> cases k' <;> decide

theorem names_iff (k : Kind) (p : Profile) (stage : String) (f : Finding) :
    k.names (f.diagnostic p stage) = true ↔ f.kind = k := by
  have hf := f.opening_prefix p.band stage
  rw [Kind.names, Diagnostic.begins_iff]
  constructor
  · intro hk
    rcases List.prefix_or_prefix_of_prefix hf hk with h | h
    · exact Kind.eq_of_prefix h
    · exact (Kind.eq_of_prefix h).symm
  · rintro rfl
    exact hf

end Finding

namespace Module

/-- The check for one kind of finding. -/
def finding? (m : Module) (p : Profile) : Finding.Kind → Option Finding
  | .instructionBudget =>
    (exceeded? m.instructions.length p.instructionSlots).map
      (.instructionBudget m.instructions.length)
  | .tempBudget => (exceeded? m.tempCount p.tempRegisters).map (.tempBudget m.tempCount)
  | .gradient =>
    if !p.gradients && m.instructions.any Instruction.isGradient then some .gradient else none
  | .systemSemantic =>
    if !p.systemSemantics && m.values.any Value.hasSystemSemantic then some .systemSemantic
    else none
  | .textureBudget => (exceeded? m.textureCount p.textureLimit).map (.textureBudget m.textureCount)
  | .vertexTextureFetch =>
    if !p.vertexTextureFetch && isVertexStage m.entryStage && 0 < m.textureCount then
      some .vertexTextureFetch else none
  | .typedUav =>
    if !p.typedUavs && m.resources.any Resource.isUav then some .typedUav else none
  | .renderTarget =>
    if p.renderTargets == some 0 && m.resources.any Resource.isRenderTarget then
      some .renderTarget else none
  | .dynamicBranching =>
    if !p.dynamicBranching && 0 < m.conditionalBranchCount then
      some (.dynamicBranching m.conditionalBranchCount) else none

theorem checks_eq (m : Module) (p : Profile) : m.checks p = Finding.Kind.all.map (m.finding? p) :=
  rfl

theorem findings_eq (m : Module) (p : Profile) :
    m.findings p = Finding.Kind.all.filterMap (m.finding? p) := by
  rw [findings, checks_eq, List.filterMap_map]
  rfl

theorem kind_of_finding? {m : Module} {p : Profile} {k : Finding.Kind} {f : Finding}
    (h : m.finding? p k = some f) : f.kind = k := by
  cases k with
  | instructionBudget | tempBudget | textureBudget =>
    obtain ⟨max, -, rfl⟩ := Option.map_eq_some_iff.1 h
    rfl
  | _ =>
    obtain ⟨-, ⟨⟩⟩ := Option.ite_none_right_eq_some.1 h
    rfl

theorem mem_findings_iff (m : Module) (p : Profile) (f : Finding) :
    f ∈ m.findings p ↔ m.finding? p f.kind = some f := by
  rw [findings_eq, List.mem_filterMap]
  constructor
  · rintro ⟨k, -, h⟩
    rw [kind_of_finding? h]
    exact h
  · intro h
    exact ⟨f.kind, f.kind.mem_all, h⟩

theorem findings_filter (m : Module) (p : Profile) (k : Finding.Kind) :
    (m.findings p).filter (fun f => f.kind = k) = (m.finding? p k).toList := by
  have hone : ∀ k', (m.finding? p k').toList.filter (fun f => f.kind = k) =
      if k' = k then (m.finding? p k).toList else [] := by
    intro k'
    have hkind : ∀ f ∈ (m.finding? p k').toList, f.kind = k' := fun f hf =>
      kind_of_finding? (Option.mem_toList.1 hf)
    by_cases hk : k' = k
    · rw [if_pos hk, ← hk]
      exact List.filter_eq_self.2 fun f hf => decide_eq_true (hkind f hf)
    · rw [if_neg hk]
      exact List.filter_eq_nil_iff.2 fun f hf h =>
        hk ((hkind f hf).symm.trans (of_decide_eq_true h))
  rw [findings_eq, List.filterMap_eq_flatMap_toList, List.filter_flatMap]
  simp only [hone]
  cases k <;> simp [Finding.Kind.all]

theorem validate_filter (m : Module) (p : Profile) (k : Finding.Kind) :
    (m.validate p).filter k.names =
      ((m.finding? p k).map (Finding.diagnostic p m.entryStage)).toList := by
  have hk : (k.names ∘ Finding.diagnostic p m.entryStage) = fun f => decide (f.kind = k) := by
    funext f
    rw [Bool.eq_iff_iff, decide_eq_true_iff]
    exact f.names_iff k p m.entryStage
  change ((m.findings p).map (Finding.diagnostic p m.entryStage)).filter k.names = _
  rw [List.filter_map, hk, findings_filter, Option.toList_map]

theorem validate_countP (m : Module) (p : Profile) (k : Finding.Kind) :
    (m.validate p).countP k.names = (m.finding? p k).toList.length := by
  rw [List.countP_eq_length_filter, validate_filter, Option.toList_map, List.length_map]

theorem validate_countP_le (m : Module) (p : Profile) (k : Finding.Kind) :
    (m.validate p).countP k.names ≤ 1 := by
  rw [validate_countP]
  cases m.finding? p k with
  | none => exact Nat.zero_le 1
  | some f => exact le_rfl

/-- The second module uses whatever the first does, as far as the checks can see. -/
structure UsesAtMost (m m' : Module) : Prop where
  vertex : isVertexStage m.entryStage = true → isVertexStage m'.entryStage = true
  instructions : m.instructions.length ≤ m'.instructions.length
  temps : m.tempCount ≤ m'.tempCount
  textures : m.textureCount ≤ m'.textureCount
  branches : m.conditionalBranchCount ≤ m'.conditionalBranchCount
  gradients : m.instructions.any Instruction.isGradient = true →
    m'.instructions.any Instruction.isGradient = true
  semantics : m.values.any Value.hasSystemSemantic = true →
    m'.values.any Value.hasSystemSemantic = true
  uavs : m.resources.any Resource.isUav = true → m'.resources.any Resource.isUav = true
  renderTargets : m.resources.any Resource.isRenderTarget = true →
    m'.resources.any Resource.isRenderTarget = true

theorem exceeded?_mono {c c' : Nat} {k n : Option Nat} (hc : c ≤ c') (hk : LimitAtMost k n)
    {max : Nat} (h : exceeded? c n = some max) : ∃ max', exceeded? c' k = some max' := by
  obtain ⟨rfl, hmax⟩ := Option.filter_eq_some_iff.1 h
  have hlt : max < c := of_decide_eq_true hmax
  cases k with
  | none => exact hk.elim
  | some k =>
    have hle : k ≤ max := hk
    refine ⟨k, Option.filter_some_pos ?_⟩
    exact decide_eq_true (by omega)

end Module

/-- The second finding is of the same kind as the first and tells no smaller number. -/
structure Finding.AtMost (f g : Finding) : Prop where
  kind : f.kind = g.kind
  count : Option.Rel (· ≤ ·) f.count? g.count?

namespace Module

/-! The parts of a check, each with a condition that holds for the second module and profile if it
does for the first. -/

theorem and_mono {a a' b b' : Bool} (ha : a = true → a' = true) (hb : b = true → b' = true)
    (h : (a && b) = true) : (a' && b') = true := by
  obtain ⟨h, h'⟩ := Bool.and_eq_true_iff.1 h
  rw [ha h, hb h']
  rfl

theorem not_mono {a b : Bool} (hab : a = true → b = true) (h : (!b) = true) : (!a) = true := by
  rw [lacks_of_imp hab (by simpa using h)]
  rfl

theorem pos_mono {c c' : Nat} (hc : c ≤ c') (h : decide (0 < c) = true) :
    decide (0 < c') = true :=
  decide_eq_true (lt_of_lt_of_le (of_decide_eq_true h) hc)

theorem zero_mono {k n : Option Nat} (hk : LimitAtMost k n) (h : (n == some 0) = true) :
    (k == some 0) = true := by
  rw [beq_iff_eq] at h ⊢
  exact (h ▸ hk).eq_zero

theorem budget_mono {c c' : Nat} {k n : Option Nat} {make : Nat → Nat → Finding} {f : Finding}
    (h : (exceeded? c n).map (make c) = some f) (hc : c ≤ c') (hk : LimitAtMost k n)
    (hmake : ∀ max max', (make c max).AtMost (make c' max')) :
    ∃ g, (exceeded? c' k).map (make c') = some g ∧ f.AtMost g := by
  obtain ⟨max, hmax, rfl⟩ := Option.map_eq_some_iff.1 h
  obtain ⟨max', hmax'⟩ := exceeded?_mono hc hk hmax
  exact ⟨make c' max', by rw [hmax']; rfl, hmake max max'⟩

theorem feature_mono {a a' : Bool} {f g r : Finding}
    (h : (if a then some f else none) = some r) (ha : a = true → a' = true) (hfg : f.AtMost g) :
    ∃ s, (if a' then some g else none) = some s ∧ r.AtMost s := by
  obtain ⟨hc, ⟨⟩⟩ := Option.ite_none_right_eq_some.1 h
  exact ⟨g, if_pos (ha hc), hfg⟩

section

variable {m m' : Module} {p q : Profile} (hm : m.UsesAtMost m') (hpq : p.AtMost q)

include hm hpq

theorem finding?_mono {k : Finding.Kind} {f : Finding} (h : m.finding? q k = some f) :
    ∃ g, m'.finding? p k = some g ∧ f.AtMost g := by
  cases k with
  | instructionBudget =>
    exact budget_mono h hm.instructions hpq.instructionSlots
      fun _ _ => ⟨rfl, .some hm.instructions⟩
  | tempBudget =>
    exact budget_mono h hm.temps hpq.tempRegisters fun _ _ => ⟨rfl, .some hm.temps⟩
  | gradient =>
    exact feature_mono h (and_mono (not_mono hpq.gradients) hm.gradients) ⟨rfl, .none⟩
  | systemSemantic =>
    exact feature_mono h (and_mono (not_mono hpq.systemSemantics) hm.semantics) ⟨rfl, .none⟩
  | textureBudget =>
    exact budget_mono h hm.textures hpq.textureLimit fun _ _ => ⟨rfl, .some hm.textures⟩
  | vertexTextureFetch =>
    exact feature_mono h (and_mono (and_mono (not_mono hpq.vertexTextureFetch) hm.vertex)
      (pos_mono hm.textures)) ⟨rfl, .none⟩
  | typedUav =>
    exact feature_mono h (and_mono (not_mono hpq.typedUavs) hm.uavs) ⟨rfl, .none⟩
  | renderTarget =>
    exact feature_mono h (and_mono (zero_mono hpq.renderTargets) hm.renderTargets) ⟨rfl, .none⟩
  | dynamicBranching =>
    exact feature_mono h (and_mono (not_mono hpq.dynamicBranching) (pos_mono hm.branches))
      ⟨rfl, .some hm.branches⟩

theorem findings_mono (f : Finding) (h : f ∈ m.findings q) :
    ∃ g ∈ m'.findings p, f.AtMost g := by
  obtain ⟨g, hg, hfg⟩ := finding?_mono hm hpq ((m.mem_findings_iff q f).1 h)
  refine ⟨g, (m'.mem_findings_iff p g).2 ?_, hfg⟩
  rw [← hfg.kind]
  exact hg

theorem validate_mono (k : Finding.Kind) :
    (m.validate q).countP k.names ≤ (m'.validate p).countP k.names := by
  rw [validate_countP, validate_countP]
  cases h : m.finding? q k with
  | none => exact Nat.zero_le _
  | some f =>
    obtain ⟨g, hg, -⟩ := finding?_mono hm hpq h
    rw [hg]
    rfl

end

/-! ### Modules with more in them -/

theorem any_of_sublist {α : Type} {l l' : List α} (h : l.Sublist l') (uses : α → Bool)
    (hu : l.any uses = true) : l'.any uses = true := by
  obtain ⟨a, ha, hua⟩ := List.any_eq_true.1 hu
  exact List.any_eq_true.2 ⟨a, h.subset ha, hua⟩

/-- The first module has whatever the second has, in the same order, and the same entry point. -/
structure Includes (m' m : Module) : Prop where
  entryPoint : m.entryPoint = m'.entryPoint
  instructions : m.instructions.Sublist m'.instructions
  values : m.values.Sublist m'.values
  resources : m.resources.Sublist m'.resources

theorem Includes.usesAtMost {m m' : Module} (h : m'.Includes m) : m.UsesAtMost m' where
  vertex := by
    rw [entryStage, entryStage, h.entryPoint]
    exact id
  instructions := h.instructions.length_le
  temps := h.values.countP_le
  textures := h.instructions.countP_le
  branches := h.instructions.countP_le
  gradients := any_of_sublist h.instructions _
  semantics := any_of_sublist h.values _
  uavs := any_of_sublist h.resources _
  renderTargets := any_of_sublist h.resources _

theorem exists_kind_of_mem_validate (m : Module) (p : Profile) (d : Diagnostic)
    (h : d ∈ m.validate p) : ∃! k : Finding.Kind, k.names d = true := by
  obtain ⟨f, -, rfl⟩ := List.mem_map.1 h
  refine ⟨f.kind, (f.names_iff f.kind p m.entryStage).2 rfl, ?_⟩
  intro k hk
  exact ((f.names_iff k p m.entryStage).1 hk).symm

/-- Whatever a profile has against a module, one that offers no more has against every module that
includes it. Each diagnostic is of one of the nine kinds, and of each kind there is at most one. -/
theorem validation_monotone (p q : Profile) (hpq : p.AtMost q) (m m' : Module)
    (hm : m'.Includes m) :
    (∀ d ∈ m.validate q, ∃! k : Finding.Kind, k.names d = true) ∧
    (∀ k : Finding.Kind,
      (m.validate q).countP k.names ≤ (m'.validate p).countP k.names ∧
        (m'.validate p).countP k.names ≤ 1) ∧
    ∀ f ∈ m.findings q, ∃ g ∈ m'.findings p, f.AtMost g := by
  refine ⟨m.exists_kind_of_mem_validate q, ?_, findings_mono hm.usesAtMost hpq⟩
  intro k
  exact ⟨validate_mono hm.usesAtMost hpq k, m'.validate_countP_le p k⟩

def vertexModule (instructions : List Instruction) : Module where
  entryPoint := some { function := "main", stage := "vs_3_0" }
  values := [{ id := 1, kind := "Temp", semantic := some "SV_Position" }]
  functions := [{ name := "main", blocks := [{ id := "a", instructions := instructions }] }]

theorem validation_monotone_vertexModule :
    Band.sm2.profile.AtMost Band.sm3.profile ∧
    (vertexModule [{ op := "ddx" }, { op := "tex2D" }]).Includes
      (vertexModule [{ op := "ddx" }]) ∧
    (vertexModule [{ op := "ddx" }]).findings Band.sm3.profile = [.systemSemantic] ∧
    ((vertexModule [{ op := "ddx" }, { op := "tex2D" }]).validate Band.sm2.profile).countP
      Finding.Kind.systemSemantic.names = 1 := by
  have hp : Band.sm2.profile.AtMost Band.sm3.profile := by decide
  have hm : (vertexModule [{ op := "ddx" }, { op := "tex2D" }]).Includes
      (vertexModule [{ op := "ddx" }]) :=
    ⟨rfl, by decide, by decide, by decide⟩
  refine ⟨hp, hm, by decide +kernel, ?_⟩
  obtain ⟨-, hcount, -⟩ := validation_monotone Band.sm2.profile Band.sm3.profile hp _ _ hm
  have hone : ((vertexModule [{ op := "ddx" }]).validate Band.sm3.profile).countP
      Finding.Kind.systemSemantic.names = 1 := by decide +kernel
  have h := hcount .systemSemantic
  omega

/-! ### Lowered modules -/

theorem lower_countP_le (m : Module) (p : Profile) (uses : Instruction → Bool)
    (hu : ∀ i : Instruction, uses (i.lower p) = true → uses i = true) :
    (m.lower p).module.instructions.countP uses ≤ m.instructions.countP uses := by
  rw [lower_instructions, List.countP_map]
  exact List.countP_mono_left fun i _ hi => hu i hi

theorem lower_usesAtMost (m : Module) (p : Profile) : (m.lower p).module.UsesAtMost m where
  vertex := id
  instructions := by rw [lower_instructions, List.length_map]
  temps := le_rfl
  textures := m.lower_countP_le p _ (Instruction.isTexture_of_lower p)
  branches := m.lower_countP_le p _ (Instruction.isConditionalBranch_of_lower p)
  gradients := by
    intro h
    obtain ⟨i, hi, hg⟩ := List.any_eq_true.1 h
    rw [lower_instructions] at hi
    obtain ⟨j, hj, rfl⟩ := List.mem_map.1 hi
    exact List.any_eq_true.2 ⟨j, hj, j.isGradient_of_lower p hg⟩
  semantics := id
  uavs := id
  renderTargets := id

theorem lower_finding? (m : Module) (p q : Profile) (k : Finding.Kind)
    (hk : k ∈ Finding.Kind.steady) :
    (m.lower p).module.finding? q k = m.finding? q k := by
  have hlen : (m.lower p).module.instructions.length = m.instructions.length := by
    rw [lower_instructions, List.length_map]
  cases k with
  | instructionBudget => rw [finding?, finding?, hlen]
  | tempBudget | systemSemantic | typedUav | renderTarget => rfl
  | _ => exact absurd hk (by decide)

/-- Lowering to one profile gives no profile anything new to object to. What operations have no part
in is reported as before, word for word. Any other finding was there before lowering, and with a
number that was no smaller. -/
theorem lowering_adds_no_finding (m : Module) (p q : Profile) :
    (∀ k ∈ Finding.Kind.steady,
      ((m.lower p).module.validate q).filter k.names = (m.validate q).filter k.names) ∧
    (∀ k : Finding.Kind,
      ((m.lower p).module.validate q).countP k.names ≤ (m.validate q).countP k.names) ∧
    ∀ f ∈ (m.lower p).module.findings q, ∃ g ∈ m.findings q, f.AtMost g := by
  refine ⟨?_, validate_mono (m.lower_usesAtMost p) (.refl q),
    findings_mono (m.lower_usesAtMost p) (.refl q)⟩
  intro k hk
  rw [validate_filter, validate_filter, m.lower_finding? p q k hk]
  rfl

theorem lowering_adds_no_finding_vertexModule :
    ((vertexModule [{ op := "BranchCond" }]).findings Band.sm2.profile) =
      [.systemSemantic, .dynamicBranching 1] ∧
    (((vertexModule [{ op := "BranchCond" }]).lower Band.sm2.profile).module.validate
        Band.sm2.profile).filter Finding.Kind.systemSemantic.names =
      ((vertexModule [{ op := "BranchCond" }]).validate Band.sm2.profile).filter
        Finding.Kind.systemSemantic.names :=
  ⟨by decide +kernel, (lowering_adds_no_finding _ _ _).1 _ (by decide)⟩

end Module

end ShaderLegalizer
