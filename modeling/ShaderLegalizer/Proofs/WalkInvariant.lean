import Mathlib.Data.List.Nodup
import ShaderLegalizer.Proofs.WalkMoves

/-!
What the walk over a call graph keeps true. The stack is a path without repetition and holds exactly
the active functions. Every callee of a function is accounted for: still to be looked at, found to
be called back, done, or active further up the stack. And every function found lies on a cycle.

At the end every function is done, so that the functions found meet every cycle of the graph.
-/

set_option autoImplicit false

namespace ShaderLegalizer

namespace Walk

def path (w : Walk) : List Nat :=
  w.stack.map Frame.function

theorem mark_set {marks : List Visit} {i : Nat} {u : Visit} (h : marks[i]? = some u) (v : Visit)
    (j : Nat) : (marks.set i v)[j]? = if j = i then some v else marks[j]? := by
  have hi : i < marks.length := (List.getElem?_eq_some_iff.1 h).1
  by_cases hj : j = i
  · subst hj
    rw [if_pos rfl, List.getElem?_set_self hi]
  · rw [if_neg hj, List.getElem?_set_ne (fun he => hj he.symm)]

/-- The stack is a path without repetition and holds exactly the active functions. -/
structure Disciplined (g : CallGraph) (w : Walk) : Prop where
  length : w.marks.length = g.size
  nodup : w.path.Nodup
  active : ∀ i, i ∈ w.path ↔ w.marks[i]? = some .active
  chain : w.path.IsChain fun i j => g.Calls j i
  rest : ∀ f ∈ w.stack, ∀ c ∈ f.rest, g.Calls f.function c

theorem start_disciplined (g : CallGraph) : (start g).Disciplined g where
  length := List.length_replicate
  nodup := List.nodup_nil
  active := by
    intro i
    simp only [start, path, List.map_nil, List.not_mem_nil, false_iff, List.getElem?_replicate]
    split <;> simp
  chain := List.isChain_nil
  rest := by simp [start]

theorem Disciplined.push {g : CallGraph} {marks : List Visit} {stack : List Frame}
    {found : List Nat} {c : Nat} (hw : Disciplined g ⟨marks, stack, found⟩)
    (h : marks[c]? = some .unvisited) (hc : ∀ f below, stack = f :: below → g.Calls f.function c) :
    Disciplined g ⟨marks.set c .active, ⟨c, g.calleesOf c⟩ :: stack, found⟩ where
  length := by
    simpa only [List.length_set] using hw.length
  nodup := by
    have hn : c ∉ path ⟨marks, stack, found⟩ := by
      intro hp
      have ha := (hw.active c).1 hp
      change marks[c]? = some .active at ha
      simp [h] at ha
    exact List.nodup_cons.2 ⟨hn, hw.nodup⟩
  active := by
    intro j
    rw [mark_set h]
    change j ∈ c :: path ⟨marks, stack, found⟩ ↔ _
    rw [List.mem_cons, hw.active j]
    by_cases hj : j = c <;> simp [hj]
  chain := by
    cases stack with
    | nil => exact List.isChain_singleton c
    | cons f below => exact List.isChain_cons_cons.2 ⟨hc f below rfl, hw.chain⟩
  rest := by
    intro f hf d hd
    rcases List.mem_cons.1 hf with rfl | hf
    · exact hd
    · exact hw.rest f hf d hd

theorem Disciplined.drop {g : CallGraph} {marks : List Visit} {below : List Frame}
    {found : List Nat} {i c : Nat} {rest : List Nat} (found' : List Nat)
    (hw : Disciplined g ⟨marks, ⟨i, c :: rest⟩ :: below, found⟩) :
    Disciplined g ⟨marks, ⟨i, rest⟩ :: below, found'⟩ where
  length := hw.length
  nodup := hw.nodup
  active := hw.active
  chain := hw.chain
  rest := by
    intro f hf d hd
    rcases List.mem_cons.1 hf with rfl | hf
    · exact hw.rest _ List.mem_cons_self d (List.mem_cons_of_mem c hd)
    · exact hw.rest f (List.mem_cons_of_mem _ hf) d hd

theorem Disciplined.leave {g : CallGraph} {marks : List Visit} {below : List Frame}
    {found : List Nat} {i : Nat} (hw : Disciplined g ⟨marks, ⟨i, []⟩ :: below, found⟩) :
    Disciplined g ⟨marks.set i .done, below, found⟩ where
  length := by
    simpa only [List.length_set] using hw.length
  nodup := (List.nodup_cons.1 hw.nodup).2
  active := by
    intro j
    have hi : marks[i]? = some .active := (hw.active i).1 List.mem_cons_self
    rw [mark_set hi]
    change j ∈ path ⟨marks, below, found⟩ ↔ _
    by_cases hj : j = i
    · subst hj
      have hn : j ∉ path ⟨marks, below, found⟩ := (List.nodup_cons.1 hw.nodup).1
      simp [hn]
    · have ha := hw.active j
      change j ∈ i :: path ⟨marks, below, found⟩ ↔ _ at ha
      rw [List.mem_cons, or_iff_right hj] at ha
      simpa only [if_neg hj] using ha
  chain := hw.chain.tail
  rest := by
    intro f hf
    exact hw.rest f (List.mem_cons_of_mem _ hf)

theorem Disciplined.move {g : CallGraph} (w w' : Walk) (h : Move g w w')
    (hw : w.Disciplined g) : w'.Disciplined g := by
  cases h with
  | begin h => exact hw.push h (by simp)
  | @enter marks below found i c rest h =>
    have hi : g.Calls i c := hw.rest _ List.mem_cons_self c List.mem_cons_self
    apply (hw.drop found).push h
    intro f below' he
    cases he
    exact hi
  | record h hc => exact hw.drop _
  | pass h => exact hw.drop _
  | leave => exact hw.leave

/-- A callee that needs no further look: found, done, or among the functions given. -/
def Settled (w : Walk) (above : List Nat) (c : Nat) : Prop :=
  c ∈ w.found ∨ w.marks[c]? = some .done ∨ c ∈ above

/-- Every callee of a frame is still to be looked at, or settled with respect to the functions above
the frame. -/
def Accounted (g : CallGraph) (w : Walk) (above : List Nat) : List Frame → Prop
  | [] => True
  | f :: below =>
    (∀ c, g.Calls f.function c → c ∈ f.rest ∨ w.Settled above c) ∧
      Accounted g w (f.function :: above) below

theorem Accounted.mono {g : CallGraph} {w w' : Walk} {above above' : List Nat}
    {stack : List Frame} (hs : ∀ c, w.Settled above c → w'.Settled above' c)
    (h : Accounted g w above stack) : Accounted g w' above' stack := by
  induction stack generalizing above above' with
  | nil => trivial
  | cons f below ih =>
    refine ⟨fun c hc => (h.1 c hc).imp_right (hs c), ih ?_ h.2⟩
    intro c hc
    by_cases hf : c = f.function
    · subst hf
      exact .inr (.inr List.mem_cons_self)
    · have hc' : w.Settled above c := by
        rcases hc with hc | hc | hc
        · exact .inl hc
        · exact .inr (.inl hc)
        · exact .inr (.inr ((List.mem_cons.1 hc).resolve_left hf))
      rcases hs c hc' with h' | h' | h'
      · exact .inl h'
      · exact .inr (.inl h')
      · exact .inr (.inr (List.mem_cons_of_mem _ h'))

/-- All callees are accounted for, and from a done function no cycle can be reached without passing
a function found. -/
structure Thorough (g : CallGraph) (w : Walk) : Prop where
  callees : Accounted g w [] w.stack
  done : ∀ i, w.marks[i]? = some .done → Acc (fun j i => g.Calls i j ∧ j ∉ w.found) i

theorem start_thorough (g : CallGraph) : (start g).Thorough g where
  callees := trivial
  done := by
    intro i h
    simp only [start, List.getElem?_replicate] at h
    split at h <;> simp at h

theorem settled_set_active {marks : List Visit} {stack stack' : List Frame}
    {found above : List Nat} {c : Nat} (h : marks[c]? = some .unvisited) (d : Nat)
    (hd : Settled ⟨marks, stack, found⟩ above d) :
    Settled ⟨marks.set c .active, stack', found⟩ above d := by
  rcases hd with hd | hd | hd
  · exact .inl hd
  · refine .inr (.inl ?_)
    change marks[d]? = some .done at hd
    change (marks.set c .active)[d]? = some .done
    rw [mark_set h, if_neg (fun he => by simp [he, h] at hd)]
    exact hd
  · exact .inr (.inr hd)

theorem Thorough.push {g : CallGraph} {marks : List Visit} {stack stack' : List Frame}
    {found : List Nat} {c : Nat} (hw : Thorough g ⟨marks, stack', found⟩)
    (h : marks[c]? = some .unvisited) (hc : Accounted g ⟨marks, stack, found⟩ [c] stack) :
    Thorough g ⟨marks.set c .active, ⟨c, g.calleesOf c⟩ :: stack, found⟩ where
  callees := ⟨fun _ hd => .inl hd, hc.mono (settled_set_active h)⟩
  done := by
    intro i hi
    apply hw.done
    rw [mark_set h] at hi
    split at hi
    · simp at hi
    · exact hi

theorem Thorough.drop {g : CallGraph} {marks : List Visit} {below : List Frame}
    {found above : List Nat} {i c : Nat} {rest : List Nat}
    (hw : Thorough g ⟨marks, ⟨i, c :: rest⟩ :: below, found⟩) {w' : Walk}
    (hs : ∀ d, Settled ⟨marks, ⟨i, c :: rest⟩ :: below, found⟩ [] d → w'.Settled above d)
    (hc : w'.Settled above c) : Accounted g w' above (⟨i, rest⟩ :: below) := by
  obtain ⟨hi, hbelow⟩ := Accounted.mono hs hw.callees
  refine ⟨?_, hbelow⟩
  intro d hd
  rcases hi d hd with h | h
  · rcases List.mem_cons.1 h with rfl | h
    · exact .inr hc
    · exact .inl h
  · exact .inr h

/-- A function that is left is done, so that it need not stand above the frames below it. -/
theorem settled_set_done {marks : List Visit} {stack stack' : List Frame} {found : List Nat}
    {i : Nat} (h : marks[i]? = some .active) (c : Nat)
    (hc : Settled ⟨marks, stack, found⟩ [i] c) :
    Settled ⟨marks.set i .done, stack', found⟩ [] c := by
  rcases hc with hc | hc | hc
  · exact .inl hc
  · refine .inr (.inl ?_)
    change marks[c]? = some .done at hc
    change (marks.set i .done)[c]? = some .done
    rw [mark_set h]
    split
    · rfl
    · exact hc
  · refine .inr (.inl ?_)
    rw [List.mem_singleton.1 hc]
    change (marks.set i .done)[i]? = some .done
    rw [mark_set h, if_pos rfl]

theorem Thorough.leave {g : CallGraph} {marks : List Visit} {below : List Frame}
    {found : List Nat} {i : Nat} (hw : Thorough g ⟨marks, ⟨i, []⟩ :: below, found⟩)
    (hd : Disciplined g ⟨marks, ⟨i, []⟩ :: below, found⟩) :
    Thorough g ⟨marks.set i .done, below, found⟩ := by
  have hi : marks[i]? = some .active := (hd.active i).1 List.mem_cons_self
  refine ⟨hw.callees.2.mono (settled_set_done hi), ?_⟩
  intro j hj
  rw [mark_set hi] at hj
  by_cases he : j = i
  · -- the last callee of `i` has been looked at, so all of them are found or done
    subst he
    refine ⟨j, ?_⟩
    rintro c ⟨hjc, hc⟩
    rcases hw.callees.1 c hjc with h | h | h | h
    · exact absurd h List.not_mem_nil
    · exact absurd h hc
    · exact hw.done c h
    · exact absurd h List.not_mem_nil
  · rw [if_neg he] at hj
    exact hw.done j hj

theorem Thorough.move {g : CallGraph} (hg : g.Closed) (w w' : Walk) (h : Move g w w')
    (hd : w.Disciplined g) (hw : w.Thorough g) : w'.Thorough g := by
  cases h with
  | begin h => exact hw.push h trivial
  | @enter marks below found i c rest h =>
    apply hw.push h
    apply hw.drop
    · rintro d (h' | h' | h')
      · exact .inl h'
      · exact .inr (.inl h')
      · exact absurd h' List.not_mem_nil
    · exact .inr (.inr List.mem_cons_self)
  | @record marks below found i c rest h hc =>
    refine ⟨hw.drop ?_ (.inl List.mem_cons_self), ?_⟩
    · rintro d (h' | h')
      · exact .inl (List.mem_cons_of_mem c h')
      · exact .inr h'
    · intro j hj
      apply Subrelation.accessible ?_ (hw.done j hj)
      rintro a b ⟨hab, ha⟩
      exact ⟨hab, fun h' => ha (List.mem_cons_of_mem c h')⟩
  | @pass marks below found i c rest h =>
    refine ⟨hw.drop (fun _ h' => h') ?_, hw.done⟩
    rcases h with h | h | h
    · exact .inr (.inl h)
    · exact .inl h
    · -- a callee outside the graph would have no mark, but there is none
      have hi : g.Calls i c := hd.rest _ List.mem_cons_self c List.mem_cons_self
      have hlt : c < marks.length := by
        have hl : marks.length = g.size := hd.length
        rw [hl]
        exact hg i c hi
      exact absurd (List.getElem?_eq_none_iff.1 h) (Nat.not_le_of_lt hlt)
  | leave => exact hw.leave hd

theorem Disciplined.cycle {g : CallGraph} {w : Walk} (hw : w.Disciplined g) {i c : Nat}
    (hi : w.path.head? = some i) (hic : g.Calls i c) (hc : c ∈ w.path) :
    ∃ l, IsCycle g.Calls (c :: l) ∧ (c :: l).Nodup := by
  -- the stack from the top down to `c`, turned around, leads from `c` along calls to `i`
  obtain ⟨upper, lower, he⟩ := List.append_of_mem hc
  have hsub : (upper ++ [c]) <+: w.path := ⟨lower, by rw [he]; simp⟩
  have hrev : (upper ++ [c]).reverse = c :: upper.reverse := by simp
  have hchain : (c :: upper.reverse).IsChain g.Calls := by
    rw [← hrev, List.isChain_reverse]
    exact hw.chain.prefix hsub
  refine ⟨upper.reverse, ?_, ?_⟩
  · change (c :: upper.reverse ++ [c]).IsChain g.Calls
    rw [List.isChain_append]
    refine ⟨hchain, List.isChain_singleton c, ?_⟩
    intro a ha b hb
    rw [← hrev, List.getLast?_reverse] at ha
    have hai : a = i := by
      cases upper with
      | nil => simp_all
      | cons u us => simp_all
    have hbc : b = c := by simpa using hb.symm
    rw [hai, hbc]
    exact hic
  · rw [← hrev, List.nodup_reverse]
    exact hw.nodup.sublist hsub.sublist

/-- The functions found are distinct, and each lies on a cycle without repetition. -/
structure Sound (g : CallGraph) (w : Walk) : Prop where
  nodup : w.found.Nodup
  cycle : ∀ i ∈ w.found, ∃ l, IsCycle g.Calls (i :: l) ∧ (i :: l).Nodup

theorem start_sound (g : CallGraph) : (start g).Sound g :=
  ⟨List.nodup_nil, by simp [start]⟩

theorem Sound.move {g : CallGraph} (w w' : Walk) (h : Move g w w') (hd : w.Disciplined g)
    (hw : w.Sound g) : w'.Sound g := by
  cases h with
  | begin h => exact ⟨hw.nodup, hw.cycle⟩
  | enter h => exact ⟨hw.nodup, hw.cycle⟩
  | @record marks below found i c rest h hc =>
    refine ⟨List.nodup_cons.2 ⟨hc, hw.nodup⟩, ?_⟩
    intro j hj
    rcases List.mem_cons.1 hj with rfl | hj
    · have hi : g.Calls i j := hd.rest _ List.mem_cons_self j List.mem_cons_self
      exact hd.cycle rfl hi ((hd.active j).2 h)
    · exact hw.cycle j hj
  | pass h => exact ⟨hw.nodup, hw.cycle⟩
  | leave => exact ⟨hw.nodup, hw.cycle⟩

theorem visited_move {g : CallGraph} (i : Nat) (w w' : Walk) (h : Move g w w')
    (hi : w.marks[i]? ≠ some .unvisited) : w'.marks[i]? ≠ some .unvisited := by
  have hset (marks : List Visit) (j : Nat) (v : Visit) (hv : v ≠ .unvisited)
      (hi : marks[i]? ≠ some .unvisited) : (marks.set j v)[i]? ≠ some .unvisited := by
    rw [List.getElem?_set]
    split_ifs <;> simp_all
  cases h with
  | begin h => exact hset _ _ _ (by decide) hi
  | enter h => exact hset _ _ _ (by decide) hi
  | record h hc => exact hi
  | pass h => exact hi
  | leave => exact hset _ _ _ (by decide) hi

theorem visit_visited (g : CallGraph) (w : Walk) (i : Nat) :
    (visit g w i).marks[i]? ≠ some .unvisited := by
  unfold visit
  split
  · next h =>
    apply run_of_move (visited_move i)
    change (w.marks.set i .active)[i]? ≠ _
    rw [mark_set h, if_pos rfl]
    simp
  · next h => exact h

theorem foldl_visit_visited (g : CallGraph) (roots : List Nat) (w : Walk) (hs : w.stack = [])
    (i : Nat) (hi : i ∈ roots) : (roots.foldl (visit g) w).marks[i]? ≠ some .unvisited := by
  induction roots generalizing w with
  | nil => exact absurd hi List.not_mem_nil
  | cons j roots ih =>
    have hs' := visit_stack g w j hs
    rcases List.mem_cons.1 hi with rfl | hi
    · exact foldl_visit_of_move (visited_move i) roots _ hs' (visit_visited g w i)
    · exact ih (visit g w j) hs' hi

theorem all_stack (g : CallGraph) : (all g).stack = [] :=
  foldl_visit_stack g (List.range g.size) (start g) rfl

theorem all_disciplined (g : CallGraph) : (all g).Disciplined g :=
  all_of_move (start_disciplined g) Disciplined.move

theorem all_thorough (g : CallGraph) (hg : g.Closed) : (all g).Thorough g := by
  have h : (all g).Disciplined g ∧ (all g).Thorough g :=
    all_of_move (P := fun w => w.Disciplined g ∧ w.Thorough g)
      ⟨start_disciplined g, start_thorough g⟩
      fun w w' h hw => ⟨hw.1.move w w' h, hw.2.move hg w w' h hw.1⟩
  exact h.2

theorem all_sound (g : CallGraph) : (all g).Sound g := by
  have h : (all g).Disciplined g ∧ (all g).Sound g :=
    all_of_move (P := fun w => w.Disciplined g ∧ w.Sound g)
      ⟨start_disciplined g, start_sound g⟩
      fun w w' h hw => ⟨hw.1.move w w' h, hw.2.move w w' h hw.1⟩
  exact h.2

theorem all_done (g : CallGraph) (i : Nat) (hi : i < g.size) :
    (all g).marks[i]? = some .done := by
  have hd := all_disciplined g
  have hv : (all g).marks[i]? ≠ some .unvisited :=
    foldl_visit_visited g (List.range g.size) (start g) rfl i (List.mem_range.2 hi)
  have ha : (all g).marks[i]? ≠ some .active := by
    intro h
    have hp := (hd.active i).2 h
    simp [path, all_stack g] at hp
  have hlt : i < (all g).marks.length := by
    rw [hd.length]
    exact hi
  obtain ⟨v, hvi⟩ : ∃ v, (all g).marks[i]? = some v := ⟨_, List.getElem?_eq_getElem hlt⟩
  rw [hvi] at hv ha ⊢
  cases v with
  | unvisited => exact absurd rfl hv
  | active => exact absurd rfl ha
  | done => rfl

end Walk

namespace CallGraph

theorem recursive_nodup (g : CallGraph) : g.recursive.Nodup :=
  List.nodup_reverse.2 (Walk.all_sound g).nodup

theorem exists_cycle_of_mem_recursive (g : CallGraph) (i : Nat) (hi : i ∈ g.recursive) :
    ∃ l, IsCycle g.Calls (i :: l) ∧ (i :: l).Nodup :=
  (Walk.all_sound g).cycle i (List.mem_reverse.1 hi)

/-- On every cycle there is a function that the walk finds. -/
theorem exists_mem_recursive_of_cycle (g : CallGraph) (hg : g.Closed) (c : List Nat)
    (hc : IsCycle g.Calls c) : ∃ i ∈ c, i ∈ g.recursive := by
  by_contra hn
  have hfree : ∀ i ∈ c, i ∉ (Walk.all g).found := by
    intro i hi hf
    exact hn ⟨i, hi, List.mem_reverse.2 hf⟩
  cases c with
  | nil => exact hc
  | cons i l =>
    have hsize : i < g.size := by
      cases l with
      | nil => exact (List.isChain_pair.1 hc).lt_size
      | cons j l => exact hc.rotate.1.lt_size
    have hacc := (Walk.all_thorough g hg).done i (Walk.all_done g i hsize)
    apply IsCycle.not_acc hacc l
    apply hc.imp
    intro a b hb hab
    exact ⟨hab, hfree b hb⟩

end CallGraph

end ShaderLegalizer
