import Mathlib.Data.List.Count
import Mathlib.Data.List.Nodup
import ShaderLegalizer.Proofs.Recursion

set_option autoImplicit false

namespace ShaderLegalizer

section Repeats

variable {α : Type} [DecidableEq α]

theorem mem_repeats_go_iff (a : α) (before l : List α) :
    a ∈ repeats.go before l ↔ before.count a ≤ 1 ∧ 2 ≤ before.count a + l.count a := by
  induction l generalizing before with
  | nil =>
    simp only [repeats.go, List.not_mem_nil, List.count_nil, Nat.add_zero, false_iff]
    omega
  | cons b l ih =>
    have hgo : a ∈ repeats.go before (b :: l) ↔
        (before.count b = 1 ∧ a = b) ∨ a ∈ repeats.go (b :: before) l := by
      rw [repeats.go]
      split
      · next h => rw [List.mem_cons]; simp [h]
      · next h => simp [h]
    rw [hgo, ih]
    by_cases hab : a = b
    · subst hab
      simp only [List.count_cons_self, and_true]
      omega
    · have hba : ¬ b = a := fun h => hab h.symm
      simp [hab, hba]

theorem mem_repeats_iff (a : α) (l : List α) : a ∈ repeats l ↔ 2 ≤ l.count a := by
  change a ∈ repeats.go [] l ↔ _
  rw [mem_repeats_go_iff]
  simp

theorem repeats_eq_nil_iff (l : List α) : repeats l = [] ↔ l.Nodup := by
  rw [List.eq_nil_iff_forall_not_mem, List.nodup_iff_count_le_one]
  constructor
  · intro h a
    have ha := h a
    rw [mem_repeats_iff] at ha
    omega
  · intro h a ha
    rw [mem_repeats_iff] at ha
    have hc := h a
    omega

end Repeats

namespace Block

/-- The block is not empty, ends with a terminator and holds no other. -/
def Terminated (b : Block) : Prop :=
  ∃ body last, b.instructions = body ++ [last] ∧ last.terminator = true ∧
    ∀ i ∈ body, i.terminator = false

theorem faults_eq_nil_iff (function : String) (b : Block) :
    b.faults function = [] ↔ b.Terminated := by
  unfold faults
  cases hl : b.instructions.getLast? with
  | none =>
    have he : b.instructions = [] := List.getLast?_eq_none_iff.1 hl
    simp [Terminated, he]
  | some last =>
    obtain ⟨body, hb⟩ := List.getLast?_eq_some_iff.1 hl
    have hbody : b.instructions.dropLast = body := by rw [hb, List.dropLast_concat]
    simp only [hbody, List.append_eq_nil_iff, List.map_eq_nil_iff, List.filter_eq_nil_iff,
      ite_eq_left_iff, Bool.not_eq_true]
    constructor
    · rintro ⟨ht, hn⟩
      refine ⟨body, last, hb, ?_, hn⟩
      by_contra hf
      exact absurd (ht (eq_false_of_ne_true hf)) (by simp)
    · rintro ⟨body', last', hb', ht, hn⟩
      rw [hb] at hb'
      obtain ⟨rfl, rfl⟩ : body = body' ∧ last = last' := by
        simpa using List.append_inj' hb' rfl
      exact ⟨fun hf => by simp [ht] at hf, hn⟩

theorem referenceFaults_eq_nil_iff (declared : List ValueId) (function : String) (b : Block) :
    b.referenceFaults declared function = [] ↔
      ∀ i ∈ b.instructions, ∀ id ∈ i.references, id ∈ declared := by
  simp [referenceFaults]

end Block

theorem Function.referenceFaults_eq_nil_iff (declared : List ValueId) (f : Function) :
    f.referenceFaults declared = [] ↔
      (∀ id ∈ f.parameters, id ∈ declared) ∧
        ∀ i ∈ f.instructions, ∀ id ∈ i.references, id ∈ declared := by
  have hp : ((f.parameters.filter fun id => !declared.contains id).map fun id =>
      Fault.undefinedParameter f.name id) = [] ↔ ∀ id ∈ f.parameters, id ∈ declared := by
    simp
  have hi : f.blocks.flatMap (Block.referenceFaults declared f.name) = [] ↔
      ∀ i ∈ f.instructions, ∀ id ∈ i.references, id ∈ declared := by
    simp only [List.flatMap_eq_nil_iff, Block.referenceFaults_eq_nil_iff, instructions,
      List.mem_flatMap]
    constructor
    · rintro h i ⟨b, hb, hi⟩
      exact h b hb i hi
    · intro h b hb i hi
      exact h i ⟨b, hb, hi⟩
  rw [referenceFaults, List.append_eq_nil_iff, hp, hi]

theorem Function.faults_eq_nil_iff (declared : List ValueId) (f : Function) :
    f.faults declared = [] ↔
      (∀ b ∈ f.blocks, b.Terminated) ∧ (∀ id ∈ f.parameters, id ∈ declared) ∧
        ∀ i ∈ f.instructions, ∀ id ∈ i.references, id ∈ declared := by
  have hb : f.blockFaults = [] ↔ ∀ b ∈ f.blocks, b.Terminated := by
    simp only [blockFaults, List.flatMap_eq_nil_iff, Block.faults_eq_nil_iff]
  rw [faults, List.append_eq_nil_iff, hb, referenceFaults_eq_nil_iff]

namespace Module

def Declares (m : Module) (id : ValueId) : Prop :=
  ∃ v ∈ m.values, v.id = id

structure WellFormed (m : Module) : Prop where
  values : m.values.Pairwise fun v w => v.id ≠ w.id
  entry : ∀ e, m.entryPoint = some e → e.function ≠ "" → m.functions ≠ [] →
    ∃ f ∈ m.functions, f.name = e.function
  blocks : ∀ f ∈ m.functions, ∀ b ∈ f.blocks, b.Terminated
  parameters : ∀ f ∈ m.functions, ∀ id ∈ f.parameters, m.Declares id
  operands : ∀ i ∈ m.instructions, ∀ id ∈ i.operands, m.Declares id
  results : ∀ i ∈ m.instructions, ∀ id, i.result = some id → m.Declares id
  definitions : m.instructions.Pairwise fun i j => ∀ id, i.result = some id → j.result ≠ some id
  acyclic : ∀ c, ¬ IsCycle m.Calls c

theorem mem_declaredIds_iff (m : Module) (id : ValueId) : id ∈ m.declaredIds ↔ m.Declares id :=
  List.mem_map

theorem duplicateFaults_eq_nil_iff (m : Module) :
    m.duplicateFaults = [] ↔ m.values.Pairwise fun v w => v.id ≠ w.id := by
  rw [duplicateFaults, List.map_eq_nil_iff, repeats_eq_nil_iff, declaredIds, List.Nodup,
    List.pairwise_map]

theorem entryFaults_eq_nil_iff (m : Module) :
    m.entryFaults = [] ↔ ∀ e, m.entryPoint = some e → e.function ≠ "" → m.functions ≠ [] →
      ∃ f ∈ m.functions, f.name = e.function := by
  have hfind (name : String) :
      (m.function? name).isSome = true ↔ ∃ f ∈ m.functions, f.name = name := by
    simp [function?, List.find?_isSome]
  unfold entryFaults
  cases he : m.entryPoint with
  | none => simp
  | some e =>
    simp only [Option.some.injEq, forall_eq', ite_eq_left_iff, Bool.or_eq_true,
      List.isEmpty_iff, String.isEmpty_iff, hfind, reduceCtorEq, imp_false, not_not]
    constructor
    · rintro ((h | h) | h) hname hfun
      · exact absurd h hfun
      · exact absurd h hname
      · exact h
    · intro h
      by_cases hfun : m.functions = []
      · exact .inl (.inl hfun)
      · by_cases hname : e.function = ""
        · exact .inl (.inr hname)
        · exact .inr (h hname hfun)

theorem functionFaults_eq_nil_iff (m : Module) :
    m.functionFaults = [] ↔
      (∀ f ∈ m.functions, ∀ b ∈ f.blocks, b.Terminated) ∧
      (∀ f ∈ m.functions, ∀ id ∈ f.parameters, m.Declares id) ∧
      ∀ i ∈ m.instructions, ∀ id ∈ i.references, m.Declares id := by
  simp only [functionFaults, List.flatMap_eq_nil_iff, Function.faults_eq_nil_iff,
    mem_declaredIds_iff, instructions, List.mem_flatMap]
  constructor
  · intro h
    refine ⟨fun f hf => (h f hf).1, fun f hf => (h f hf).2.1, ?_⟩
    rintro i ⟨f, hf, hi⟩
    exact (h f hf).2.2 i hi
  · rintro ⟨hb, hp, hr⟩ f hf
    exact ⟨hb f hf, hp f hf, fun i hi => hr i ⟨f, hf, hi⟩⟩

theorem references_declared_iff (m : Module) :
    (∀ i ∈ m.instructions, ∀ id ∈ i.references, m.Declares id) ↔
      (∀ i ∈ m.instructions, ∀ id ∈ i.operands, m.Declares id) ∧
        ∀ i ∈ m.instructions, ∀ id, i.result = some id → m.Declares id := by
  simp only [Instruction.references, List.mem_append, Option.mem_toList]
  constructor
  · intro h
    exact ⟨fun i hi id hid => h i hi id (.inl hid), fun i hi id hid => h i hi id (.inr hid)⟩
  · rintro ⟨ho, hr⟩ i hi id (hid | hid)
    · exact ho i hi id hid
    · exact hr i hi id hid

theorem definitionFaults_eq_nil_iff (m : Module) :
    m.definitionFaults = [] ↔
      m.instructions.Pairwise fun i j => ∀ id, i.result = some id → j.result ≠ some id := by
  rw [definitionFaults, List.map_eq_nil_iff, repeats_eq_nil_iff, definedIds, List.Nodup,
    List.pairwise_filterMap]
  constructor
  · intro h
    apply h.imp
    intro i j hij id hi hj
    exact hij id hi id hj rfl
  · intro h
    apply h.imp
    rintro i j hij id hi _ hj rfl
    exact hij id hi hj

theorem check_eq_nil_iff (m : Module) : m.check = [] ↔ m.WellFormed := by
  rw [check, List.map_eq_nil_iff, faults]
  simp only [List.append_eq_nil_iff, duplicateFaults_eq_nil_iff, entryFaults_eq_nil_iff,
    functionFaults_eq_nil_iff, references_declared_iff, definitionFaults_eq_nil_iff,
    recursionFaults_eq_nil_iff]
  constructor
  · rintro ⟨⟨⟨⟨hv, he⟩, hb, hp, ho, hr⟩, hd⟩, ha⟩
    exact ⟨hv, he, hb, hp, ho, hr, hd, ha⟩
  · rintro ⟨hv, he, hb, hp, ho, hr, hd, ha⟩
    exact ⟨⟨⟨⟨hv, he⟩, hb, hp, ho, hr⟩, hd⟩, ha⟩

theorem check_error (m : Module) (d : Diagnostic) (hd : d ∈ m.check) :
    d.severity = .error ∧ d.stage = "invariant" := by
  obtain ⟨f, -, rfl⟩ := List.mem_map.1 hd
  exact ⟨rfl, rfl⟩

/-- The check is silent on exactly the well-formed modules, and all it ever reports are errors of
its own stage. -/
theorem check_silent_iff_wellFormed (m : Module) :
    (m.check = [] ↔ m.WellFormed) ∧
      ∀ d ∈ m.check, d.severity = .error ∧ d.stage = "invariant" :=
  ⟨m.check_eq_nil_iff, m.check_error⟩

def callChain (last : Instruction) : Module where
  entryPoint := some { function := "main", stage := "ps" }
  values := [{ id := 1 }, { id := 2 }]
  functions :=
    [ { name := "main", parameters := [1],
        blocks := [{ id := "a", instructions :=
          [ { op := "call", tag := some "shade" },
            { op := "Add", operands := [1, 1], result := some 2 },
            { op := "call", tag := some "shade" },
            { op := "Return", operands := [2], terminator := true } ] }] },
      { name := "shade", blocks := [{ id := "b", instructions := [last] }] } ]

theorem check_silent_iff_wellFormed_callChain :
    (callChain { op := "Return", terminator := true }).WellFormed ∧
      ∃ d, d ∈ (callChain { op := "Nop" }).check ∧ d.severity = .error ∧ d.stage = "invariant" := by
  refine ⟨(check_silent_iff_wellFormed _).1.1 (by decide +kernel), ?_⟩
  have hd : (Fault.openBlock "shade" "b" "Nop").diagnostic ∈ (callChain { op := "Nop" }).check := by
    decide +kernel
  exact ⟨_, hd, (check_silent_iff_wellFormed _).2 _ hd⟩

end Module

end ShaderLegalizer
