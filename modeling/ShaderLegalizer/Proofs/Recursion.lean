import Mathlib.Data.List.Forall2
import Mathlib.Data.List.Induction
import ShaderLegalizer.Proofs.WalkInvariant
import ShaderLegalizer.Structure.Check

set_option autoImplicit false

namespace ShaderLegalizer

theorem mem_squeeze {α : Type} [DecidableEq α] (a : α) (l : List α) :
    a ∈ squeeze l ↔ a ∈ l := by
  fun_induction squeeze l with
  | case1 => rfl
  | case2 b => rfl
  | case3 b l ih =>
    rw [ih]
    simp
  | case4 b c l h ih =>
    rw [List.mem_cons, ih, ← List.mem_cons]

theorem getElem?_concat_iff {α : Type} (l : List α) (a b : α) (k : Nat) :
    (l ++ [a])[k]? = some b ↔ l[k]? = some b ∨ k = l.length ∧ b = a := by
  rcases Nat.lt_trichotomy k l.length with hk | hk | hk
  · rw [List.getElem?_append_left hk]
    simp [Nat.ne_of_lt hk]
  · subst hk
    simp [eq_comm]
  · have hl : l[k]? = none := List.getElem?_eq_none (Nat.le_of_lt hk)
    have hla : (l ++ [a])[k]? = none := by
      apply List.getElem?_eq_none
      rw [List.length_append, List.length_singleton]
      exact hk
    simp [hl, hla, Nat.ne_of_gt hk]

theorem last_zipIdx_iff {α : Type} (p : α → Bool) (l : List α) (j : Nat) :
    ((l.zipIdx.filter fun a => p a.1).getLast?).map Prod.snd = some j ↔
      ∃ a, l[j]? = some a ∧ p a = true ∧ ∀ k b, j < k → l[k]? = some b → p b = false := by
  induction l using List.reverseRecOn with
  | nil => simp
  | append_singleton l a ih =>
    rw [List.zipIdx_append, List.filter_append]
    simp only [getElem?_concat_iff]
    by_cases ha : p a = true
    · have hl : ([a].zipIdx (0 + l.length)).filter (fun a => p a.1) = [(a, l.length)] := by
        simp [List.zipIdx_cons, ha]
      rw [hl, List.getLast?_append]
      simp only [List.getLast?_singleton, Option.some_or, Option.map_some, Option.some.injEq]
      constructor
      · intro hj
        subst hj
        refine ⟨a, .inr ⟨rfl, rfl⟩, ha, ?_⟩
        rintro k b hk (hb | ⟨hb, -⟩)
        · have hlt := (List.getElem?_eq_some_iff.1 hb).1
          omega
        · omega
      · rintro ⟨b, hb | ⟨hj, -⟩, -, hlast⟩
        · -- a position before the last one is refuted by the element at the end
          have hlt := (List.getElem?_eq_some_iff.1 hb).1
          have hf := hlast l.length a hlt (.inr ⟨rfl, rfl⟩)
          rw [ha] at hf
          cases hf
        · exact hj.symm
    · have hl : ([a].zipIdx (0 + l.length)).filter (fun a => p a.1) = [] := by
        simp [List.zipIdx_cons, ha]
      rw [hl, List.append_nil, ih]
      constructor
      · rintro ⟨b, hb, hp, hlast⟩
        refine ⟨b, .inl hb, hp, ?_⟩
        rintro k c hk (hc | ⟨-, hc⟩)
        · exact hlast k c hk hc
        · rw [hc]
          exact eq_false_of_ne_true ha
      · rintro ⟨b, hb | ⟨-, hb⟩, hp, hlast⟩
        · exact ⟨b, hb, hp, fun k c hk hc => hlast k c hk (.inl hc)⟩
        · rw [hb] at hp
          exact absurd hp ha

namespace Module

def LastNamed (m : Module) (name : String) (j : Nat) : Prop :=
  ∃ f, m.functions[j]? = some f ∧ f.name = name ∧
    ∀ k h, j < k → m.functions[k]? = some h → h.name ≠ name

/-- The function at position `i` holds a call by name of the function at position `j`. -/
def Calls (m : Module) (i j : Nat) : Prop :=
  ∃ f call name, m.functions[i]? = some f ∧ call ∈ f.instructions ∧
    Text.sameName call.op "call" = true ∧ call.tag = some name ∧ m.LastNamed name j

theorem lastPosition?_eq_some_iff (m : Module) (name : String) (j : Nat) :
    m.lastPosition? name = some j ↔ m.LastNamed name j := by
  unfold lastPosition? LastNamed
  rw [last_zipIdx_iff (fun f : Function => f.name == name)]
  simp only [beq_iff_eq, beq_eq_false_iff_ne]

theorem mem_calleePositions (m : Module) (f : Function) (j : Nat) :
    j ∈ m.calleePositions f ↔ ∃ call name, call ∈ f.instructions ∧
      Text.sameName call.op "call" = true ∧ call.tag = some name ∧ m.LastNamed name j := by
  unfold calleePositions
  rw [mem_squeeze, List.mem_filterMap]
  constructor
  · rintro ⟨call, hcall, hj⟩
    obtain ⟨name, hname, hlast⟩ := Option.bind_eq_some_iff.1 hj
    unfold Instruction.callee? at hname
    split at hname
    · next hop =>
      exact ⟨call, name, hcall, hop, hname, (m.lastPosition?_eq_some_iff name j).1 hlast⟩
    · cases hname
  · rintro ⟨call, name, hcall, hop, hname, hlast⟩
    refine ⟨call, hcall, Option.bind_eq_some_iff.2 ⟨name, ?_, ?_⟩⟩
    · rw [Instruction.callee?, if_pos hop, hname]
    · exact (m.lastPosition?_eq_some_iff name j).2 hlast

theorem callGraph_calls_iff (m : Module) (i j : Nat) : m.callGraph.Calls i j ↔ m.Calls i j := by
  unfold CallGraph.Calls CallGraph.calleesOf callGraph Calls
  rw [List.getElem?_map]
  cases hf : m.functions[i]? with
  | none => simp
  | some f =>
    simp only [Option.map_some, Option.getD_some, Option.some.injEq, mem_calleePositions]
    constructor
    · rintro ⟨call, name, h⟩
      exact ⟨f, call, name, rfl, h⟩
    · rintro ⟨_, call, name, rfl, h⟩
      exact ⟨call, name, h⟩

theorem callGraph_closed (m : Module) : m.callGraph.Closed := by
  intro i j h
  obtain ⟨_, _, _, _, _, _, _, f, hf, _⟩ := (m.callGraph_calls_iff i j).1 h
  have hj : j < m.functions.length := (List.getElem?_eq_some_iff.1 hf).1
  simpa [CallGraph.size, callGraph] using hj

theorem cycle_iff (m : Module) (c : List Nat) : IsCycle m.callGraph.Calls c ↔ IsCycle m.Calls c :=
  ⟨fun h => h.imp fun i j _ => (m.callGraph_calls_iff i j).1,
    fun h => h.imp fun i j _ => (m.callGraph_calls_iff i j).2⟩

theorem exists_cycle_of_mem_recursive (m : Module) (i : Nat) (hi : i ∈ m.callGraph.recursive) :
    ∃ l, IsCycle m.Calls (i :: l) ∧ (i :: l).Nodup := by
  obtain ⟨l, hl, hn⟩ := m.callGraph.exists_cycle_of_mem_recursive i hi
  exact ⟨l, (m.cycle_iff _).1 hl, hn⟩

theorem exists_mem_recursive_of_cycle (m : Module) (c : List Nat) (hc : IsCycle m.Calls c) :
    ∃ i ∈ c, i ∈ m.callGraph.recursive :=
  m.callGraph.exists_mem_recursive_of_cycle m.callGraph_closed c ((m.cycle_iff c).2 hc)

theorem Calls.function {m : Module} {i j : Nat} (h : m.Calls i j) :
    ∃ f, m.functions[i]? = some f := by
  obtain ⟨f, _, _, hf, _⟩ := h
  exact ⟨f, hf⟩

theorem function_of_mem_recursive (m : Module) (i : Nat) (hi : i ∈ m.callGraph.recursive) :
    ∃ f, m.functions[i]? = some f := by
  obtain ⟨l, hl, -⟩ := m.exists_cycle_of_mem_recursive i hi
  cases l with
  | nil => exact Calls.function (List.isChain_pair.1 hl)
  | cons j l => exact Calls.function hl.rotate.1

theorem recursionFaults_forall₂ (m : Module) :
    List.Forall₂ (fun i fault => ∃ f, m.functions[i]? = some f ∧ fault = .recursion f.name)
      m.callGraph.recursive m.recursionFaults := by
  have h (l : List Nat) (hl : ∀ i ∈ l, ∃ f, m.functions[i]? = some f) :
      List.Forall₂ (fun i fault => ∃ f, m.functions[i]? = some f ∧ fault = Fault.recursion f.name)
        l (l.filterMap fun i => (m.functions[i]?).map fun f => Fault.recursion f.name) := by
    induction l with
    | nil => exact .nil
    | cons i l ih =>
      obtain ⟨f, hf⟩ := hl i List.mem_cons_self
      rw [List.filterMap_cons, hf]
      exact .cons ⟨f, hf, rfl⟩ (ih fun j hj => hl j (List.mem_cons_of_mem i hj))
  exact h _ m.function_of_mem_recursive

theorem recursionFaults_eq_nil_iff (m : Module) :
    m.recursionFaults = [] ↔ ∀ c, ¬ IsCycle m.Calls c := by
  have hlen := m.recursionFaults_forall₂.length_eq
  rw [← List.length_eq_zero_iff, ← hlen, List.length_eq_zero_iff, List.eq_nil_iff_forall_not_mem]
  constructor
  · intro hn c hc
    obtain ⟨i, -, hi⟩ := m.exists_mem_recursive_of_cycle c hc
    exact hn i hi
  · intro hn i hi
    obtain ⟨l, hl, -⟩ := m.exists_cycle_of_mem_recursive i hi
    exact hn _ hl

theorem recursion_notMem_function_faults (declared : List ValueId) (f : Function) (name : String) :
    Fault.recursion name ∉ f.faults declared := by
  intro h
  rcases List.mem_append.1 h with h | h
  · obtain ⟨b, -, hb⟩ := List.mem_flatMap.1 h
    unfold Block.faults at hb
    split at hb
    · simp at hb
    · split at hb <;> simp at hb
  · simp [Function.referenceFaults, Block.referenceFaults] at h

theorem recursion_mem_faults_iff (m : Module) (name : String) :
    Fault.recursion name ∈ m.faults ↔ Fault.recursion name ∈ m.recursionFaults := by
  have hd : Fault.recursion name ∉ m.duplicateFaults := by simp [duplicateFaults]
  have he : Fault.recursion name ∉ m.entryFaults := by
    unfold entryFaults
    split
    · simp
    · split <;> simp
  have hf : Fault.recursion name ∉ m.functionFaults := by
    intro h
    obtain ⟨f, -, h⟩ := List.mem_flatMap.1 h
    exact recursion_notMem_function_faults _ f name h
  have hs : Fault.recursion name ∉ m.definitionFaults := by simp [definitionFaults]
  simp only [faults, List.mem_append, hd, he, hf, hs, false_or]

end Module

namespace Fault

theorem head?_append {s : String} {c : Char} (h : s.toList.head? = some c) (t : String) :
    (s ++ t).toList.head? = some c := by
  rw [String.toList_append, List.head?_append, h]
  rfl

/-- The first letter of the wording. It tells recursion from every other fault. -/
def initial : Fault → Char
  | .duplicateValue _ | .multipleDefinition _ => 'V'
  | .missingEntry _ => 'E'
  | .emptyBlock _ _ | .openBlock _ _ _ => 'B'
  | .earlyTerminator _ _ _ => 'T'
  | .undefinedParameter _ _ => 'P'
  | .undefinedReference _ _ _ _ => 'I'
  | .recursion _ => 'R'

theorem message_head? (f : Fault) : f.message.toList.head? = some f.initial := by
  cases f with
  | duplicateValue id => exact head?_append (head?_append rfl _) _
  | missingEntry f => exact head?_append (head?_append rfl _) _
  | emptyBlock f b =>
    iterate 4 apply head?_append
    rfl
  | openBlock f b op =>
    iterate 6 apply head?_append
    rfl
  | earlyTerminator f b op =>
    iterate 6 apply head?_append
    rfl
  | undefinedParameter f id =>
    iterate 4 apply head?_append
    rfl
  | undefinedReference f b op id =>
    iterate 8 apply head?_append
    rfl
  | multipleDefinition id => exact head?_append (head?_append rfl _) _
  | recursion f => exact head?_append (head?_append rfl _) _

theorem eq_recursion_of_diagnostic_eq {f : Fault} {name : String}
    (h : f.diagnostic = (recursion name).diagnostic) : ∃ name', f = .recursion name' := by
  have hm : f.message = (recursion name).message := congrArg Diagnostic.message h
  have hi : some f.initial = some 'R' := by
    rw [← message_head?, hm]
    exact message_head? _
  cases f with
  | recursion name' => exact ⟨name', rfl⟩
  | _ => simp [initial] at hi

end Fault

namespace Module

theorem recursion_diagnostic_iff_cycle (m : Module) :
    (∃ name, (Fault.recursion name).diagnostic ∈ m.check) ↔ ∃ c, IsCycle m.Calls c := by
  constructor
  · rintro ⟨name, h⟩
    obtain ⟨f, hf, he⟩ := List.mem_map.1 h
    obtain ⟨name', rfl⟩ := Fault.eq_recursion_of_diagnostic_eq he
    have hmem := (m.recursion_mem_faults_iff name').1 hf
    by_contra hn
    rw [m.recursionFaults_eq_nil_iff.2 fun c hc => hn ⟨c, hc⟩] at hmem
    exact absurd hmem List.not_mem_nil
  · rintro ⟨c, hc⟩
    obtain ⟨i, -, hi⟩ := m.exists_mem_recursive_of_cycle c hc
    obtain ⟨f, hf⟩ := m.function_of_mem_recursive i hi
    have hmem : Fault.recursion f.name ∈ m.recursionFaults :=
      List.mem_filterMap.2 ⟨i, hi, by rw [hf]; rfl⟩
    exact ⟨f.name, List.mem_map_of_mem ((m.recursion_mem_faults_iff f.name).2 hmem)⟩

/-- Recursion is found where it is and only there: the positions reported lie on simple cycles, are
distinct, meet every closed walk, and are reported by name in the order in which they are found. -/
theorem recursive_functions_exact (m : Module) :
    (∀ i ∈ m.callGraph.recursive, ∃ c, IsCycle m.Calls c ∧ c.Nodup ∧ i ∈ c) ∧
    (∀ c, IsCycle m.Calls c → ∃ i ∈ c, i ∈ m.callGraph.recursive) ∧
    m.callGraph.recursive.Nodup ∧
    List.Forall₂ (fun i fault => ∃ f, m.functions[i]? = some f ∧ fault = .recursion f.name)
      m.callGraph.recursive m.recursionFaults ∧
    ((∃ name, (Fault.recursion name).diagnostic ∈ m.check) ↔ ∃ c, IsCycle m.Calls c) := by
  refine ⟨?_, m.exists_mem_recursive_of_cycle, m.callGraph.recursive_nodup,
    m.recursionFaults_forall₂, m.recursion_diagnostic_iff_cycle⟩
  intro i hi
  obtain ⟨l, hl, hn⟩ := m.exists_cycle_of_mem_recursive i hi
  exact ⟨i :: l, hl, hn, List.mem_cons_self⟩

def pingPong : Module where
  functions :=
    [ { name := "ping", blocks := [{ instructions := [{ op := "Call", tag := some "pong" }] }] },
      { name := "pong", blocks := [{ instructions := [{ op := "Return", terminator := true }] }] },
      { name := "pong", blocks := [{ instructions := [{ op := "CALL", tag := some "ping" }] }] } ]

theorem recursive_functions_exact_pingPong :
    pingPong.callGraph.recursive = [0] ∧ ∃ c, IsCycle pingPong.Calls c ∧ c.Nodup ∧ 0 ∈ c := by
  have h : pingPong.callGraph.recursive = [0] := by decide +kernel
  refine ⟨h, (recursive_functions_exact pingPong).1 0 ?_⟩
  rw [h]
  exact List.mem_singleton_self 0

end Module

end ShaderLegalizer
