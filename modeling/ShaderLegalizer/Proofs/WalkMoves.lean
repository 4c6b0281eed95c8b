import Mathlib.Data.List.Chain
import ShaderLegalizer.Structure.Walk

set_option autoImplicit false

namespace ShaderLegalizer

/-- A closed walk along a relation: each element leads to the next and the last to the first. -/
def IsCycle (r : Nat → Nat → Prop) : List Nat → Prop
  | [] => False
  | i :: l => (i :: l ++ [i]).IsChain r

theorem IsCycle.imp {r s : Nat → Nat → Prop} {c : List Nat}
    (h : ∀ i j, j ∈ c → r i j → s i j) (hc : IsCycle r c) : IsCycle s c := by
  cases c with
  | nil => exact hc
  | cons i l =>
    apply List.IsChain.imp_of_mem_imp ?_ hc
    intro a b _ hb hab
    have hmem : b ∈ i :: l := by
      rcases List.mem_append.1 hb with hb | hb
      · exact hb
      · exact List.mem_cons.2 (.inl (List.mem_singleton.1 hb))
    exact h a b hmem hab

theorem IsCycle.rotate {r : Nat → Nat → Prop} {i j : Nat} {l : List Nat}
    (h : IsCycle r (i :: j :: l)) : r i j ∧ IsCycle r (j :: l ++ [i]) := by
  change (i :: j :: (l ++ [i])).IsChain r at h
  rw [List.isChain_cons_cons] at h
  refine ⟨h.1, ?_⟩
  change (j :: (l ++ [i] ++ [j])).IsChain r
  have hj : (j :: (l ++ [i])).IsChain r := h.2
  rw [List.append_assoc, List.singleton_append, List.isChain_cons_append_cons_cons]
  exact ⟨hj, h.1, List.isChain_singleton j⟩

theorem IsCycle.not_acc {r : Nat → Nat → Prop} {i : Nat} (hi : Acc (fun j i => r i j) i)
    (l : List Nat) : ¬ IsCycle r (i :: l) := by
  -- by induction on the descent: a cycle turned by one place begins further down
  induction hi generalizing l with
  | intro i _ ih =>
    intro h
    cases l with
    | nil =>
      change [i, i].IsChain r at h
      have hii : r i i := List.isChain_pair.1 h
      exact ih i hii [] h
    | cons j l =>
      have hr := h.rotate
      exact ih j hr.1 (l ++ [i]) hr.2

namespace CallGraph

def Closed (g : CallGraph) : Prop :=
  ∀ i j, g.Calls i j → j < g.size

theorem Calls.lt_size {g : CallGraph} {i j : Nat} (h : g.Calls i j) : i < g.size := by
  by_contra hi
  have hn : g.callees[i]? = none := List.getElem?_eq_none (Nat.le_of_not_lt hi)
  simp [Calls, calleesOf, hn] at h

end CallGraph

namespace Walk

/-- What can happen in one step of the walk, or when it begins with a function. -/
inductive Move (g : CallGraph) : Walk → Walk → Prop where
  | begin {marks : List Visit} {found : List Nat} {i : Nat}
      (h : marks[i]? = some .unvisited) :
      Move g ⟨marks, [], found⟩ ⟨marks.set i .active, [⟨i, g.calleesOf i⟩], found⟩
  | enter {marks : List Visit} {below : List Frame} {found : List Nat} {i c : Nat}
      {rest : List Nat} (h : marks[c]? = some .unvisited) :
      Move g ⟨marks, ⟨i, c :: rest⟩ :: below, found⟩
        ⟨marks.set c .active, ⟨c, g.calleesOf c⟩ :: ⟨i, rest⟩ :: below, found⟩
  | record {marks : List Visit} {below : List Frame} {found : List Nat} {i c : Nat}
      {rest : List Nat} (h : marks[c]? = some .active) (hc : c ∉ found) :
      Move g ⟨marks, ⟨i, c :: rest⟩ :: below, found⟩ ⟨marks, ⟨i, rest⟩ :: below, c :: found⟩
  | pass {marks : List Visit} {below : List Frame} {found : List Nat} {i c : Nat}
      {rest : List Nat} (h : marks[c]? = some .done ∨ c ∈ found ∨ marks[c]? = none) :
      Move g ⟨marks, ⟨i, c :: rest⟩ :: below, found⟩ ⟨marks, ⟨i, rest⟩ :: below, found⟩
  | leave {marks : List Visit} {below : List Frame} {found : List Nat} {i : Nat} :
      Move g ⟨marks, ⟨i, []⟩ :: below, found⟩ ⟨marks.set i .done, below, found⟩

theorem look_move (g : CallGraph) (marks : List Visit) (below : List Frame) (found : List Nat)
    (i c : Nat) (rest : List Nat) :
    Move g ⟨marks, ⟨i, c :: rest⟩ :: below, found⟩
      (look g c ⟨marks, ⟨i, rest⟩ :: below, found⟩) := by
  cases h : marks[c]? with
  | none =>
    simp only [look, h]
    exact .pass (.inr (.inr h))
  | some v =>
    cases v with
    | unvisited =>
      simp only [look, h]
      exact .enter h
    | active =>
      simp only [look, h, record]
      by_cases hc : c ∈ found
      · rw [if_pos hc]
        exact .pass (.inr (.inl hc))
      · rw [if_neg hc]
        exact .record h hc
    | done =>
      simp only [look, h]
      exact .pass (.inl h)

theorem step_move (g : CallGraph) (w : Walk) (h : w.stack ≠ []) : Move g w (step g w) := by
  obtain ⟨marks, stack, found⟩ := w
  cases stack with
  | nil => exact absurd rfl h
  | cons f below =>
    obtain ⟨i, rest⟩ := f
    cases rest with
    | nil => exact .leave
    | cons c rest => exact look_move g marks below found i c rest

section Runs

variable {g : CallGraph} {P : Walk → Prop} (hm : ∀ w w', Move g w w' → P w → P w')

include hm

theorem run_of_move (w : Walk) (hw : P w) : P (run g w) := by
  induction w using run.induct g with
  | case1 w hs =>
    rw [run, dif_pos hs]
    exact hw
  | case2 w hs ih =>
    rw [run, dif_neg hs]
    exact ih (hm w (step g w) (step_move g w hs) hw)

theorem visit_of_move (w : Walk) (i : Nat) (hs : w.stack = []) (hw : P w) : P (visit g w i) := by
  unfold visit
  split
  · next h =>
    apply run_of_move hm
    obtain ⟨marks, stack, found⟩ := w
    cases hs
    exact hm _ _ (.begin h) hw
  · exact hw

end Runs

theorem run_stack (g : CallGraph) (w : Walk) : (run g w).stack = [] := by
  induction w using run.induct g with
  | case1 w hs =>
    rw [run, dif_pos hs]
    exact hs
  | case2 w hs ih =>
    rw [run, dif_neg hs]
    exact ih

theorem visit_stack (g : CallGraph) (w : Walk) (i : Nat) (hs : w.stack = []) :
    (visit g w i).stack = [] := by
  unfold visit
  split
  · exact run_stack g _
  · exact hs

theorem foldl_visit_stack (g : CallGraph) (roots : List Nat) (w : Walk) (hs : w.stack = []) :
    (roots.foldl (visit g) w).stack = [] := by
  induction roots generalizing w with
  | nil => exact hs
  | cons i roots ih => exact ih (visit g w i) (visit_stack g w i hs)

theorem foldl_visit_of_move {g : CallGraph} {P : Walk → Prop}
    (hm : ∀ w w', Move g w w' → P w → P w') (roots : List Nat) (w : Walk) (hs : w.stack = [])
    (hw : P w) : P (roots.foldl (visit g) w) := by
  induction roots generalizing w with
  | nil => exact hw
  | cons i roots ih =>
    exact ih (visit g w i) (visit_stack g w i hs) (visit_of_move hm w i hs hw)

/-- What holds at the start and is kept by every move holds when the walk is over. -/
theorem all_of_move {g : CallGraph} {P : Walk → Prop} (h0 : P (start g))
    (hm : ∀ w w', Move g w w' → P w → P w') : P (all g) :=
  foldl_visit_of_move hm (List.range g.size) (start g) rfl h0

end Walk

end ShaderLegalizer
