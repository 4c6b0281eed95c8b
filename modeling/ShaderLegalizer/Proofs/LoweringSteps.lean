import Mathlib.Data.List.Basic
import ShaderLegalizer.Lowering

set_option autoImplicit false

namespace ShaderLegalizer

theorem Text.mentions_of_sameName {s t : String} (h : sameName s t = true) (word : String) :
    mentions s word = mentions t word :=
  mentions_congr s t word ((sameName_iff s t).1 h)

theorem lacks_of_imp {a b : Bool} (h : a = true → b = true) (hb : b = false) : a = false := by
  by_contra ha
  rw [h (eq_true_of_ne_false ha)] at hb
  cases hb

namespace Rule

/-- Whether the rule puts another operation in place of an instruction. -/
def replaces : Rule → Bool
  | .flatten | .unroll | .remove => true
  | .decompose | .keep => false

def replacements : List String := ["Select", "Nop", "LoopUnrolled"]

theorem apply_op_mem (i : Instruction) (r : Rule) (h : r.replaces = true) :
    (r.apply i).op ∈ replacements := by
  cases r with
  | flatten =>
    change (if i.result.isSome then "Select" else "Nop") ∈ replacements
    split <;> decide
  | unroll => change "LoopUnrolled" ∈ replacements; decide
  | remove => change "Nop" ∈ replacements; decide
  | decompose | keep => cases h

theorem apply_of_not_replaces (i : Instruction) (r : Rule) (h : r.replaces = false) :
    ∃ t, r.apply i = { i with tag := t } := by
  cases r with
  | flatten | unroll | remove => cases h
  | decompose => exact ⟨_, rfl⟩
  | keep => exact ⟨i.tag, rfl⟩

theorem apply_terminator (i : Instruction) (r : Rule) :
    (r.apply i).terminator = (i.terminator && !r.replaces) := by
  cases r <;> simp [apply, replaces]

theorem apply_type (i : Instruction) (r : Rule) : (r.apply i).type = i.type := by
  cases r <;> rfl

theorem apply_operands (i : Instruction) (r : Rule) :
    (r.apply i).operands = if r = .remove then [] else i.operands := by
  cases r <;> rfl

theorem apply_result (i : Instruction) (r : Rule) :
    (r.apply i).result = if r = .remove then none else i.result := by
  cases r <;> rfl

theorem apply_tag (i : Instruction) (r : Rule) (h : r ≠ .keep) : (r.apply i).tag = r.tag? := by
  cases r with
  | keep => exact absurd rfl h
  | _ => rfl

theorem ofOp_eq_keep_iff (p : Profile) (op : String) :
    ofOp p op = .keep ↔
      (p.dynamicBranching = false → Text.mentions op "branch" = false) ∧
      (p.loops = false → Text.mentions op "loop" = false) ∧
      Text.sameName op "normalize" = false ∧
      Text.mentions op "unsupported" = false ∧ Text.mentions op "unknown" = false := by
  unfold ofOp
  cases p.dynamicBranching <;> cases p.loops <;> cases Text.mentions op "branch" <;>
    cases Text.mentions op "loop" <;> cases Text.sameName op "normalize" <;> simp

theorem sameName_of_ofOp (p : Profile) (op : String) (h : ofOp p op = .decompose) :
    Text.sameName op "normalize" = true := by
  unfold ofOp at h
  split at h
  · cases h
  · split at h
    · cases h
    · split at h
      · next hn => exact hn
      · split at h <;> cases h

end Rule

/-- Whether the instruction carries the tag of a rule. -/
def Instruction.Tagged (i : Instruction) : Prop :=
  ∃ t ∈ Rule.tags, i.tag = some t

instance (i : Instruction) : Decidable i.Tagged :=
  inferInstanceAs (Decidable (∃ t ∈ Rule.tags, i.tag = some t))

namespace Rule

theorem apply_tagged (i : Instruction) (r : Rule) (h : r ≠ .keep) : (r.apply i).Tagged := by
  cases r with
  | flatten => exact ⟨"flattened", by decide, rfl⟩
  | unroll => exact ⟨"unrolled", by decide, rfl⟩
  | decompose => exact ⟨"normalize.rewritten", by decide, rfl⟩
  | remove => exact ⟨"removed", by decide, rfl⟩
  | keep => exact absurd rfl h

theorem ofInstruction_of_tagged (p : Profile) (i : Instruction) (h : i.Tagged) :
    ofInstruction p i = .keep := by
  obtain ⟨t, ht, hi⟩ := h
  simp only [ofInstruction, hi, if_pos ht]

theorem ofInstruction_of_not_tagged (p : Profile) (i : Instruction) (h : ¬ i.Tagged) :
    ofInstruction p i = ofOp p i.op := by
  unfold ofInstruction
  split
  · next t ht => rw [if_neg fun hm => h ⟨t, hm, ht⟩]
  · rfl

end Rule

namespace Instruction

theorem lower_of_keep (p : Profile) (i : Instruction) (h : Rule.ofInstruction p i = .keep) :
    i.lower p = i := by
  rw [lower, h]
  rfl

theorem notice?_of_keep (p : Profile) (i : Instruction) (h : Rule.ofInstruction p i = .keep) :
    i.notice? p = none := by
  rw [notice?, h]
  rfl

/-- Everything that lowering can do, the removal of operands and result aside. -/
theorem lower_cases (p : Profile) (i : Instruction) :
    ((i.lower p).op ∈ Rule.replacements ∧ (i.lower p).terminator = false) ∨
      ∃ t, i.lower p = { i with tag := t } := by
  unfold lower
  cases hr : (Rule.ofInstruction p i).replaces with
  | true =>
    refine .inl ⟨Rule.apply_op_mem i _ hr, ?_⟩
    rw [Rule.apply_terminator, hr]
    exact Bool.and_false _
  | false => exact .inr (Rule.apply_of_not_replaces i _ hr)

theorem lower_terminator (p : Profile) (i : Instruction) :
    (i.lower p).terminator = (i.terminator && !(Rule.ofInstruction p i).replaces) :=
  Rule.apply_terminator i _

theorem op_of_lower (uses : String → Bool) (hu : ∀ op ∈ Rule.replacements, uses op = false)
    (p : Profile) (i : Instruction) (h : uses (i.lower p).op = true) : uses i.op = true := by
  rcases lower_cases p i with ⟨hop, -⟩ | ⟨t, ht⟩
  · rw [hu _ hop] at h
    cases h
  · rw [ht] at h
    exact h

theorem isTexture_of_lower (p : Profile) (i : Instruction) (h : (i.lower p).isTexture = true) :
    i.isTexture = true :=
  op_of_lower (fun op => Text.mentions op "tex" || Text.mentions op "sample") (by decide) p i h

theorem isGradient_of_lower (p : Profile) (i : Instruction) (h : (i.lower p).isGradient = true) :
    i.isGradient = true :=
  op_of_lower (fun op => ["ddx", "ddy", "dsx", "dsy"].any (Text.sameName op)) (by decide) p i h

theorem isConditionalBranch_of_lower (p : Profile) (i : Instruction)
    (h : (i.lower p).isConditionalBranch = true) : i.isConditionalBranch = true := by
  have hword : ∀ op ∈ Rule.replacements,
      Text.sameName op "branchcond" = false ∧ Text.mentions op "branch" = false := by decide
  rcases lower_cases p i with ⟨hop, -⟩ | ⟨t, ht⟩
  · rw [isConditionalBranch, (hword _ hop).1, (hword _ hop).2] at h
    cases h
  · rw [ht] at h
    exact h

/-- An instruction lowered to `p` is left alone by a profile that has whatever `p` has. A rule that
was applied left its tag; where none was, no word was found that the other profile looks for. -/
theorem ofInstruction_lower (p q : Profile) (i : Instruction)
    (hb : p.dynamicBranching = true → q.dynamicBranching = true)
    (hl : p.loops = true → q.loops = true) : Rule.ofInstruction q (i.lower p) = .keep := by
  by_cases hr : Rule.ofInstruction p i = .keep
  · rw [lower_of_keep p i hr]
    by_cases ht : i.Tagged
    · exact Rule.ofInstruction_of_tagged q i ht
    · rw [Rule.ofInstruction_of_not_tagged p i ht, Rule.ofOp_eq_keep_iff] at hr
      rw [Rule.ofInstruction_of_not_tagged q i ht, Rule.ofOp_eq_keep_iff]
      obtain ⟨hbranch, hloop, hrest⟩ := hr
      exact ⟨fun hq => hbranch (lacks_of_imp hb hq), fun hq => hloop (lacks_of_imp hl hq), hrest⟩
  · exact Rule.ofInstruction_of_tagged q (i.lower p) (Rule.apply_tagged i _ hr)

end Instruction

theorem Block.mapInstructions_eq_self (g : Instruction → Instruction) (b : Block)
    (h : ∀ i ∈ b.instructions, g i = i) : b.mapInstructions g = b := by
  have hb : b.instructions.map g = b.instructions.map fun i => i := List.map_congr_left h
  rw [Block.mapInstructions, hb, List.map_id']

theorem Function.mapInstructions_eq_self (g : Instruction → Instruction) (f : Function)
    (h : ∀ i ∈ f.instructions, g i = i) : f.mapInstructions g = f := by
  have hf : f.blocks.map (Block.mapInstructions g) = f.blocks.map id := by
    apply List.map_congr_left
    intro b hb
    exact b.mapInstructions_eq_self g fun i hi => h i (List.mem_flatMap.2 ⟨b, hb, hi⟩)
  rw [Function.mapInstructions, hf, List.map_id]

theorem Function.mapInstructions_instructions (g : Instruction → Instruction) (f : Function) :
    (f.mapInstructions g).instructions = f.instructions.map g := by
  change (f.blocks.map (Block.mapInstructions g)).flatMap Block.instructions = _
  rw [List.flatMap_map, Function.instructions, List.map_flatMap]
  rfl

namespace Module

theorem mem_instructions_iff (m : Module) (i : Instruction) :
    i ∈ m.instructions ↔ ∃ f ∈ m.functions, ∃ b ∈ f.blocks, i ∈ b.instructions := by
  simp only [instructions, Function.instructions, List.mem_flatMap]

theorem mapInstructions_eq_self (g : Instruction → Instruction) (m : Module)
    (h : ∀ i ∈ m.instructions, g i = i) : m.mapInstructions g = m := by
  have hm : m.functions.map (Function.mapInstructions g) = m.functions.map id := by
    apply List.map_congr_left
    intro f hf
    exact f.mapInstructions_eq_self g fun i hi => h i (List.mem_flatMap.2 ⟨f, hf, hi⟩)
  rw [mapInstructions, hm, List.map_id]
  rfl

theorem mapInstructions_instructions (g : Instruction → Instruction) (m : Module) :
    (m.mapInstructions g).instructions = m.instructions.map g := by
  change (m.functions.map (Function.mapInstructions g)).flatMap Function.instructions = _
  rw [List.flatMap_map, instructions, List.map_flatMap]
  simp only [Function.mapInstructions_instructions]

theorem lower_instructions (m : Module) (p : Profile) :
    (m.lower p).module.instructions = m.instructions.map (Instruction.lower p) :=
  m.mapInstructions_instructions _

/-- No rule applies to any instruction of the module. -/
def Kept (m : Module) (p : Profile) : Prop :=
  ∀ i ∈ m.instructions, Rule.ofInstruction p i = .keep

theorem lower_kept (m : Module) (p q : Profile)
    (hb : p.dynamicBranching = true → q.dynamicBranching = true)
    (hl : p.loops = true → q.loops = true) : (m.lower p).module.Kept q := by
  intro i hi
  rw [lower_instructions] at hi
  obtain ⟨j, -, rfl⟩ := List.mem_map.1 hi
  exact Instruction.ofInstruction_lower p q j hb hl

namespace Kept

variable {m : Module} {p : Profile}

theorem lower_module (h : m.Kept p) : (m.lower p).module = m :=
  m.mapInstructions_eq_self _ fun i hi => Instruction.lower_of_keep p i (h i hi)

theorem lower_notices (h : m.Kept p) : (m.lower p).notices = [] := by
  refine List.filterMap_eq_nil_iff.2 fun i hi => ?_
  exact i.notice?_of_keep p (h i hi)

theorem ruleCount (h : m.Kept p) (r : Rule) (hr : r ≠ .keep) : m.ruleCount p r = 0 := by
  refine List.countP_eq_zero.2 fun i hi => ?_
  rw [h i hi, beq_iff_eq]
  exact hr.symm

theorem lower_invalid (h : m.Kept p) : (m.lower p).invalid = false := by
  change decide (0 < m.ruleCount p .remove) = false
  rw [h.ruleCount .remove (by decide)]
  rfl

theorem lower_changes (h : m.Kept p) : (m.lower p).statistics.changes = 0 := by
  change m.ruleCount p .flatten + m.ruleCount p .unroll + m.ruleCount p .decompose +
    m.ruleCount p .remove = 0
  rw [h.ruleCount .flatten (by decide), h.ruleCount .unroll (by decide),
    h.ruleCount .decompose (by decide), h.ruleCount .remove (by decide)]

end Kept

end Module

end ShaderLegalizer
