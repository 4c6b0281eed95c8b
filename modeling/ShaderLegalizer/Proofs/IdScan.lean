import ShaderLegalizer.Proofs.WellFormed

set_option autoImplicit false

namespace ShaderLegalizer

/-- The state of the loop that looks for ids met twice: the ids met, those reported, and the
report. -/
structure IdScan where
  met : Std.HashSet ValueId
  reported : Std.HashSet ValueId
  report : List ValueId

namespace IdScan

def start : IdScan := ⟨∅, ∅, []⟩

/-- One round. Only an id that the first set has already is put into the second. -/
def visit (s : IdScan) (id : ValueId) : IdScan :=
  match s.met.containsThenInsert id with
  | (false, met) => { s with met }
  | (true, met) =>
    match s.reported.containsThenInsert id with
    | (false, reported) => ⟨met, reported, s.report ++ [id]⟩
    | (true, reported) => ⟨met, reported, s.report⟩

def run (ids : List ValueId) : IdScan := ids.foldl visit start

structure Scanned (ids : List ValueId) (s : IdScan) : Prop where
  met : ∀ id, id ∈ s.met ↔ 1 ≤ ids.count id
  reported : ∀ id, id ∈ s.reported ↔ 2 ≤ ids.count id
  report : s.report = repeats ids

theorem visit_eq (s : IdScan) (id : ValueId) :
    s.visit id =
      { met := s.met.insert id
        reported := if id ∈ s.met then s.reported.insert id else s.reported
        report := s.report ++ if id ∈ s.met ∧ id ∉ s.reported then [id] else [] } := by
  have hinsert (t : Std.HashSet ValueId) :
      t.containsThenInsert id = (t.contains id, t.insert id) :=
    Prod.ext Std.HashSet.containsThenInsert_fst Std.HashSet.containsThenInsert_snd
  simp only [visit, hinsert, Std.HashSet.mem_iff_contains]
  cases hm : s.met.contains id with
  | false => simp
  | true => cases hr : s.reported.contains id <;> simp

end IdScan

theorem repeats_go_concat {α : Type} [DecidableEq α] (before l : List α) (a : α) :
    repeats.go before (l ++ [a]) =
      repeats.go before l ++ if before.count a + l.count a = 1 then [a] else [] := by
  induction l generalizing before with
  | nil =>
    rw [List.nil_append, repeats.go, repeats.go, repeats.go, List.count_nil, Nat.add_zero]
    rfl
  | cons b l ih =>
    have hcount : (b :: before).count a + l.count a = before.count a + (b :: l).count a := by
      rw [List.count_cons, List.count_cons]
      omega
    rw [List.cons_append, repeats.go, repeats.go, ih, hcount]
    split
    · rfl
    · rfl

theorem repeats_concat {α : Type} [DecidableEq α] (l : List α) (a : α) :
    repeats (l ++ [a]) = repeats l ++ if l.count a = 1 then [a] else [] := by
  have h := repeats_go_concat [] l a
  rwa [List.count_nil, Nat.zero_add] at h

namespace IdScan

theorem scanned_start : Scanned [] start where
  met _ := by simp [start]
  reported _ := by simp [start]
  report := rfl

theorem Scanned.visit {ids : List ValueId} {s : IdScan} (h : Scanned ids s) (id : ValueId) :
    Scanned (ids ++ [id]) (s.visit id) where
  met x := by
    rw [visit_eq, Std.HashSet.mem_insert, h.met, List.count_append, List.count_singleton]
    cases id == x <;> simp
  reported x := by
    have hinsert : x ∈ (s.visit id).reported ↔ (id ∈ s.met ∧ id = x) ∨ x ∈ s.reported := by
      rw [visit_eq]
      by_cases hm : id ∈ s.met <;> simp [hm]
    rw [hinsert, h.met, h.reported, List.count_append, List.count_singleton]
    by_cases hid : id = x
    · subst hid
      rw [if_pos BEq.rfl, and_iff_left rfl]
      omega
    · simp [hid]
  report := by
    have hone : (id ∈ s.met ∧ id ∉ s.reported) ↔ ids.count id = 1 := by
      rw [h.met, h.reported]
      omega
    rw [visit_eq, repeats_concat, h.report]
    simp only [hone]

theorem scanned_run (ids : List ValueId) : Scanned ids (run ids) := by
  induction ids using List.reverseRecOn with
  | nil => exact scanned_start
  | append_singleton ids id ih =>
    rw [run, List.foldl_concat]
    exact ih.visit id

end IdScan

theorem Function.faults_congr {declared declared' : List ValueId}
    (h : ∀ id, id ∈ declared ↔ id ∈ declared') (f : Function) :
    f.faults declared = f.faults declared' := by
  have hc (id : ValueId) : declared.contains id = declared'.contains id := by
    rw [Bool.eq_iff_iff, List.contains_iff_mem, List.contains_iff_mem]
    exact h id
  have hblock : Block.referenceFaults declared = Block.referenceFaults declared' := by
    funext name b
    simp only [Block.referenceFaults, hc]
  simp only [faults, referenceFaults, hc, hblock]

/-- The report is what the loops over the ids tell, with references looked up in the set that the
first of them leaves. -/
theorem Module.faults_eq_scans (m : Module) :
    m.faults =
      (IdScan.run m.declaredIds).report.map .duplicateValue ++ m.entryFaults ++
        m.functions.flatMap (Function.faults (IdScan.run m.declaredIds).met.toList) ++
          (IdScan.run m.definedIds).report.map .multipleDefinition ++ m.recursionFaults := by
  have hmet (id : ValueId) :
      id ∈ m.declaredIds ↔ id ∈ (IdScan.run m.declaredIds).met.toList := by
    rw [Std.HashSet.mem_toList, (IdScan.scanned_run m.declaredIds).met id, List.one_le_count_iff]
  have hfunctions : m.functionFaults =
      m.functions.flatMap (Function.faults (IdScan.run m.declaredIds).met.toList) :=
    List.flatMap_congr fun f _ => f.faults_congr hmet
  rw [faults, duplicateFaults, hfunctions, definitionFaults,
    (IdScan.scanned_run m.declaredIds).report, (IdScan.scanned_run m.definedIds).report]

end ShaderLegalizer
