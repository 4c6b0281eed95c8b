import Mathlib.Logic.Function.Iterate
import ShaderLegalizer.Proofs.Recursion

set_option autoImplicit false

namespace ShaderLegalizer

namespace Walk

/-- Where the walk stands: before the function `k` as a root, or at the head of the loop that it
began with `k`. -/
inductive Point where
  | root (k : Nat)
  | loop (k : Nat)
deriving DecidableEq, Repr

/-- The functions on the later stack that stand higher than the earlier one reached. -/
def pushed (w w' : Walk) : List Nat :=
  w'.path.take (w'.path.length - w.path.length)

/-- The states that the walk comes to, with the functions pushed so far, the latest first. -/
inductive Reached (g : CallGraph) : Point → Walk → List Nat → Prop where
  | start : Reached g (.root 0) (start g) []
  | skip {k : Nat} {w : Walk} {log : List Nat} (h : Reached g (.root k) w log) (hk : k < g.size)
      (hv : w.marks[k]? ≠ some .unvisited) : Reached g (.root (k + 1)) w log
  | begin {k : Nat} {w : Walk} {log : List Nat} (h : Reached g (.root k) w log) (hk : k < g.size)
      (hv : w.marks[k]? = some .unvisited) :
      Reached g (.loop k) (w.enter g k) (pushed w (w.enter g k) ++ log)
  | step {k : Nat} {w : Walk} {log : List Nat} (h : Reached g (.loop k) w log)
      (hs : w.stack ≠ []) : Reached g (.loop k) (w.step g) (pushed w (w.step g) ++ log)
  | leave {k : Nat} {w : Walk} {log : List Nat} (h : Reached g (.loop k) w log)
      (hs : w.stack = []) : Reached g (.root (k + 1)) w log

theorem Reached.stack {g : CallGraph} {p : Point} {w : Walk} {log : List Nat}
    (h : Reached g p w log) {k : Nat} (hp : p = .root k) : w.stack = [] := by
  induction h generalizing k with
  | start => rfl
  | skip _ _ _ ih => exact ih rfl
  | begin _ _ _ _ => cases hp
  | step _ _ _ => cases hp
  | leave _ hs _ => exact hs

theorem enter_move {g : CallGraph} {w : Walk} {k : Nat} (hs : w.stack = [])
    (hv : w.marks[k]? = some .unvisited) : Move g w (w.enter g k) := by
  obtain ⟨marks, stack, found⟩ := w
  cases hs
  exact .begin hv

theorem Reached.of_move {g : CallGraph} {P : Walk → List Nat → Prop} (h0 : P (Walk.start g) [])
    (hm : ∀ w w' log, Move g w w' → P w log → P w' (pushed w w' ++ log)) {p : Point} {w : Walk}
    {log : List Nat} (h : Reached g p w log) : P w log := by
  induction h with
  | start => exact h0
  | skip _ _ _ ih => exact ih
  | begin h _ hv ih => exact hm _ _ _ (enter_move (h.stack rfl) hv) ih
  | step _ hs ih => exact hm _ _ _ (step_move g _ hs) ih
  | leave _ _ ih => exact ih

theorem Reached.disciplined {g : CallGraph} {p : Point} {w : Walk} {log : List Nat}
    (h : Reached g p w log) : w.Disciplined g :=
  h.of_move (P := fun w _ => w.Disciplined g) (start_disciplined g)
    fun w w' _ hm hw => hw.move w w' hm

def Visited (marks : List Visit) (i : Nat) : Prop :=
  marks[i]? ≠ some .unvisited

theorem visited_of_mark {marks : List Visit} {i : Nat} {v : Visit} (h : marks[i]? = some v)
    (hv : v ≠ .unvisited) : Visited marks i := by
  intro hu
  rw [h] at hu
  exact hv (Option.some.inj hu)

theorem Visited.set {marks : List Visit} {i : Nat} (h : Visited marks i) (j : Nat) {v : Visit}
    (hv : v ≠ .unvisited) : Visited (marks.set j v) i := by
  unfold Visited
  rw [List.getElem?_set]
  split
  · split
    · exact fun he => hv (Option.some.inj he)
    · nofun
  · exact h

theorem visited_set_active {marks : List Visit} {c : Nat} (h : marks[c]? = some .unvisited) :
    Visited (marks.set c .active) c := by
  apply visited_of_mark (v := .active) ?_ (by decide)
  rw [mark_set h, if_pos rfl]

def Looked (g : CallGraph) (marks : List Visit) (f : Frame) : Prop :=
  ∃ looked, g.calleesOf f.function = looked ++ f.rest ∧ ∀ c ∈ looked, Visited marks c

theorem Looked.set {g : CallGraph} {marks : List Visit} {f : Frame} (h : Looked g marks f) (j : Nat)
    {v : Visit} (hv : v ≠ .unvisited) : Looked g (marks.set j v) f := by
  obtain ⟨looked, he, hl⟩ := h
  exact ⟨looked, he, fun c hc => (hl c hc).set j hv⟩

theorem Looked.drop {g : CallGraph} {marks : List Visit} {i c : Nat} {rest : List Nat}
    (h : Looked g marks ⟨i, c :: rest⟩) (hc : Visited marks c) : Looked g marks ⟨i, rest⟩ := by
  obtain ⟨looked, he, hl⟩ := h
  refine ⟨looked ++ [c], ?_, ?_⟩
  · rw [List.append_assoc]
    exact he
  · intro d hd
    rcases List.mem_append.1 hd with hd | hd
    · exact hl d hd
    · rw [List.mem_singleton.1 hd]
      exact hc

/-- Nothing unvisited lies behind what has been looked at. -/
structure Swept (g : CallGraph) (w : Walk) : Prop where
  frames : ∀ f ∈ w.stack, Looked g w.marks f
  done : ∀ i c, w.marks[i]? = some .done → g.Calls i c → Visited w.marks c
  found : ∀ c ∈ w.found, Visited w.marks c

theorem start_swept (g : CallGraph) : (start g).Swept g where
  frames := by simp [start]
  done := by
    intro i c h
    simp only [start, List.getElem?_replicate] at h
    split at h <;> cases h
  found := by simp [start]

theorem Swept.push {g : CallGraph} {marks : List Visit} {stack stack' : List Frame}
    {found : List Nat} {c : Nat} (hw : Swept g ⟨marks, stack', found⟩)
    (h : marks[c]? = some .unvisited)
    (hstack : ∀ f ∈ stack, Looked g (marks.set c .active) f) :
    Swept g ⟨marks.set c .active, ⟨c, g.calleesOf c⟩ :: stack, found⟩ where
  frames := by
    intro f hf
    rcases List.mem_cons.1 hf with rfl | hf
    · exact ⟨[], rfl, by simp⟩
    · exact hstack f hf
  done := by
    intro i d hi hid
    rw [mark_set h] at hi
    split at hi
    · cases hi
    · exact (hw.done i d hi hid).set c (by decide)
  found := fun d hd => (hw.found d hd).set c (by decide)

theorem Swept.drop {g : CallGraph} {marks : List Visit} {below : List Frame}
    {found found' : List Nat} {i c : Nat} {rest : List Nat}
    (hw : Swept g ⟨marks, ⟨i, c :: rest⟩ :: below, found⟩) (hc : Visited marks c)
    (hfound : ∀ d ∈ found', Visited marks d) :
    Swept g ⟨marks, ⟨i, rest⟩ :: below, found'⟩ where
  frames := by
    intro f hf
    rcases List.mem_cons.1 hf with rfl | hf
    · exact Looked.drop (hw.frames _ List.mem_cons_self) hc
    · exact hw.frames f (List.mem_cons_of_mem _ hf)
  done := hw.done
  found := hfound

theorem Swept.leave {g : CallGraph} {marks : List Visit} {below : List Frame} {found : List Nat}
    {i : Nat} (hw : Swept g ⟨marks, ⟨i, []⟩ :: below, found⟩) (hi : marks[i]? = some .active) :
    Swept g ⟨marks.set i .done, below, found⟩ where
  frames := fun f hf => Looked.set (hw.frames f (List.mem_cons_of_mem _ hf)) i (by decide)
  done := by
    intro j d hj hjd
    rw [mark_set hi] at hj
    split at hj
    · -- the function just left has looked at all its callees
      next he =>
      subst he
      obtain ⟨looked, hl, hvis⟩ := hw.frames _ List.mem_cons_self
      rw [List.append_nil] at hl
      have hd : d ∈ looked := by
        rw [← hl]
        exact hjd
      exact (hvis d hd).set j (by decide)
    · exact (hw.done j d hj hjd).set i (by decide)
  found := fun d hd => (hw.found d hd).set i (by decide)

theorem Swept.move {g : CallGraph} (w w' : Walk) (h : Move g w w') (hd : w.Disciplined g)
    (hw : w.Swept g) : w'.Swept g := by
  cases h with
  | begin h => exact hw.push h (by simp)
  | @enter marks below found i c rest h =>
    apply hw.push h
    intro f hf
    rcases List.mem_cons.1 hf with rfl | hf
    · have hl : Looked g (marks.set c .active) ⟨i, c :: rest⟩ :=
        Looked.set (hw.frames _ List.mem_cons_self) c (by decide)
      exact hl.drop (visited_set_active h)
    · exact Looked.set (hw.frames f (List.mem_cons_of_mem _ hf)) c (by decide)
  | @record marks below found i c rest h hc =>
    have hvis : Visited marks c := visited_of_mark h (by decide)
    exact hw.drop hvis (List.forall_mem_cons.2 ⟨hvis, hw.found⟩)
  | @pass marks below found i c rest h =>
    refine hw.drop ?_ hw.found
    rcases h with h | h | h
    · exact visited_of_mark h (by decide)
    · exact hw.found c h
    · unfold Visited
      rw [h]
      nofun
  | leave => exact hw.leave ((hd.active _).1 List.mem_cons_self)

theorem Reached.swept {g : CallGraph} {p : Point} {w : Walk} {log : List Nat}
    (h : Reached g p w log) : w.Swept g := by
  have hb : w.Disciplined g ∧ w.Swept g :=
    h.of_move (P := fun w _ => w.Disciplined g ∧ w.Swept g) ⟨start_disciplined g, start_swept g⟩
      fun w w' _ hm hw => ⟨hw.1.move w w' hm, hw.2.move w w' hm hw.1⟩
  exact hb.2

/-- The functions pushed are those that are active or done, each once. -/
structure Pushes (w : Walk) (log : List Nat) : Prop where
  nodup : log.Nodup
  mem_iff : ∀ i, i ∈ log ↔ w.marks[i]? = some .active ∨ w.marks[i]? = some .done

theorem start_pushes (g : CallGraph) : Pushes (start g) [] where
  nodup := List.nodup_nil
  mem_iff := by
    intro i
    simp only [start, List.not_mem_nil, false_iff, List.getElem?_replicate]
    split <;> simp

theorem pushed_of_path {w w' : Walk} {c : Nat} (h : w'.path = c :: w.path) : pushed w w' = [c] := by
  rw [pushed, h, List.length_cons, Nat.add_sub_cancel_left]
  rfl

theorem pushed_of_length_le {w w' : Walk} (h : w'.path.length ≤ w.path.length) :
    pushed w w' = [] := by
  rw [pushed, Nat.sub_eq_zero_of_le h, List.take_zero]

theorem Pushes.push {marks : List Visit} {stack stack' : List Frame} {found found' log : List Nat}
    {c : Nat} (h : Pushes ⟨marks, stack, found⟩ log) (hc : marks[c]? = some .unvisited) :
    Pushes ⟨marks.set c .active, stack', found'⟩ (c :: log) where
  nodup := by
    refine List.nodup_cons.2 ⟨?_, h.nodup⟩
    rw [h.mem_iff]
    simp [hc]
  mem_iff := by
    intro i
    rw [List.mem_cons, h.mem_iff, mark_set hc]
    by_cases hi : i = c <;> simp [hi, hc]

theorem Pushes.leave {marks : List Visit} {stack stack' : List Frame} {found found' log : List Nat}
    {i : Nat} (h : Pushes ⟨marks, stack, found⟩ log) (hi : marks[i]? = some .active) :
    Pushes ⟨marks.set i .done, stack', found'⟩ log where
  nodup := h.nodup
  mem_iff := by
    intro j
    rw [h.mem_iff, mark_set hi]
    by_cases hj : j = i <;> simp [hj, hi]

theorem Pushes.move {g : CallGraph} (w w' : Walk) (log : List Nat) (h : Move g w w')
    (hd : w.Disciplined g) (hw : Pushes w log) : Pushes w' (pushed w w' ++ log) := by
  cases h with
  | @begin marks found i h =>
    rw [pushed_of_path (c := i) rfl]
    exact hw.push h
  | @enter marks below found i c rest h =>
    rw [pushed_of_path (c := c) rfl]
    exact hw.push h
  | record h hc =>
    rw [pushed_of_length_le (by simp [path])]
    exact ⟨hw.nodup, hw.mem_iff⟩
  | pass h =>
    rw [pushed_of_length_le (by simp [path])]
    exact ⟨hw.nodup, hw.mem_iff⟩
  | leave =>
    rw [pushed_of_length_le (by simp [path])]
    exact hw.leave ((hd.active _).1 List.mem_cons_self)

theorem Reached.pushes {g : CallGraph} {p : Point} {w : Walk} {log : List Nat}
    (h : Reached g p w log) : Pushes w log := by
  have hb : w.Disciplined g ∧ Pushes w log :=
    h.of_move (P := fun w log => w.Disciplined g ∧ Pushes w log)
      ⟨start_disciplined g, start_pushes g⟩
      fun w w' log hm hw => ⟨hw.1.move w w' hm, hw.2.move w w' log hm hw.1⟩
  exact hb.2

def Point.passed : Point → Nat
  | .root k => k
  | .loop k => k + 1

theorem Reached.visited {g : CallGraph} {p : Point} {w : Walk} {log : List Nat}
    (h : Reached g p w log) {i : Nat} (hi : i < p.passed) : Visited w.marks i := by
  induction h with
  | start => exact absurd hi (Nat.not_lt_zero i)
  | @skip k w log h hk hv ih =>
    rcases Nat.lt_succ_iff_lt_or_eq.1 hi with hi | rfl
    · exact ih hi
    · exact hv
  | @begin k w log h hk hv ih =>
    change Visited (w.marks.set k .active) i
    rcases Nat.lt_succ_iff_lt_or_eq.1 hi with hi | rfl
    · exact (ih hi).set k (by decide)
    · exact visited_set_active hv
  | @step k w log h hs ih => exact visited_move i _ _ (step_move g w hs) (ih hi)
  | leave _ _ ih => exact ih hi

theorem Reached.not_active {g : CallGraph} {k : Nat} {w : Walk} {log : List Nat}
    (h : Reached g (.root k) w log) (i : Nat) : w.marks[i]? ≠ some .active := by
  intro ha
  have hp := (h.disciplined.active i).2 ha
  rw [path, h.stack rfl] at hp
  exact absurd hp List.not_mem_nil

theorem Reached.ends {g : CallGraph} {k : Nat} {w : Walk} {log : List Nat}
    (h : Reached g (.loop k) w log) :
    ∃ n ≤ w.work g, (Walk.step g)^[n] w = run g w ∧
      ∃ log', Reached g (.root (k + 1)) (run g w) log' := by
  induction w using run.induct g generalizing log with
  | case1 w hs =>
    rw [run, dif_pos hs]
    exact ⟨0, Nat.zero_le _, rfl, log, h.leave hs⟩
  | case2 w hs ih =>
    obtain ⟨n, hn, he, hr⟩ := ih (h.step hs)
    rw [run, dif_neg hs]
    refine ⟨n + 1, ?_, he, hr⟩
    exact Nat.succ_le_of_lt (Nat.lt_of_le_of_lt hn (work_step_lt g w hs))

theorem exists_reached_root (g : CallGraph) (k : Nat) (hk : k ≤ g.size) :
    ∃ log, Reached g (.root k) ((List.range k).foldl (visit g) (start g)) log := by
  induction k with
  | zero => exact ⟨[], .start⟩
  | succ k ih =>
    obtain ⟨log, h⟩ := ih (by omega)
    rw [List.range_succ, List.foldl_append, List.foldl_cons, List.foldl_nil, visit]
    split
    · next hv =>
      obtain ⟨-, -, -, hr⟩ := (h.begin hk hv).ends
      exact hr
    · next hv => exact ⟨log, h.skip hk hv⟩

theorem Reached.done {g : CallGraph} {w : Walk} {log : List Nat}
    (h : Reached g (.root g.size) w log) {i : Nat} (hi : i < g.size) :
    w.marks[i]? = some .done := by
  have hlt : i < w.marks.length := by
    rw [h.disciplined.length]
    exact hi
  obtain ⟨v, hv⟩ : ∃ v, w.marks[i]? = some v := ⟨_, List.getElem?_eq_getElem hlt⟩
  cases v with
  | unvisited => exact absurd hv (h.visited hi)
  | active => exact absurd hv (h.not_active i)
  | done => exact hv

end Walk

namespace Module

/-- What holds of the walk over a module at every head of its loop. -/
structure InOrder (m : Module) (w : Walk) : Prop where
  distinct : w.path.Nodup
  active : ∀ i, i ∈ w.path ↔ w.marks[i]? = some .active
  called : w.path.IsChain fun i j => m.Calls j i
  done : ∀ i j, w.marks[i]? = some .done → m.Calls i j → w.marks[j]? ≠ some .unvisited
  rest : ∀ f ∈ w.stack, f.rest <:+ m.callGraph.calleesOf f.function
  sizes : w.marks.length = m.functions.length ∧ m.callGraph.callees.length = m.functions.length
  bounds : ∀ f ∈ w.stack, f.function < m.functions.length ∧ ∀ c ∈ f.rest, c < m.functions.length

theorem callGraph_size (m : Module) : m.callGraph.size = m.functions.length :=
  List.length_map _

theorem inOrder_of_reached {m : Module} {p : Walk.Point} {w : Walk} {log : List Nat}
    (h : Walk.Reached m.callGraph p w log) : m.InOrder w where
  distinct := h.disciplined.nodup
  active := h.disciplined.active
  called := h.disciplined.chain.imp fun i j => (m.callGraph_calls_iff j i).1
  done := by
    intro i j hi hij
    exact h.swept.done i j hi ((m.callGraph_calls_iff i j).2 hij)
  rest := by
    intro f hf
    obtain ⟨looked, he, -⟩ := h.swept.frames f hf
    exact ⟨looked, he.symm⟩
  sizes := by
    rw [← m.callGraph_size]
    exact ⟨h.disciplined.length, rfl⟩
  bounds := by
    intro f hf
    rw [← m.callGraph_size]
    constructor
    · have ha := (h.disciplined.active f.function).1 (List.mem_map_of_mem hf)
      rw [← h.disciplined.length]
      exact (List.getElem?_eq_some_iff.1 ha).1
    · intro c hc
      exact m.callGraph_closed f.function c (h.disciplined.rest f hf c hc)

/-- The walk over any module: its stack is in order at every head of the loop, the loop of each root
ends and leaves no function active, the walk gets through all roots, and in the end each function is
done and has been pushed exactly once. -/
theorem walk_keeps_order (m : Module) :
    (∀ k w log, Walk.Reached m.callGraph (.loop k) w log → m.InOrder w ∧
      ∃ n ≤ w.work m.callGraph, ∃ log',
        Walk.Reached m.callGraph (.root (k + 1)) ((Walk.step m.callGraph)^[n] w) log') ∧
    (∀ k w log, Walk.Reached m.callGraph (.root k) w log →
      ∀ i : Nat, w.marks[i]? ≠ some .active) ∧
    (∃ log, Walk.Reached m.callGraph (.root m.functions.length) (Walk.all m.callGraph) log) ∧
    ∀ w log, Walk.Reached m.callGraph (.root m.functions.length) w log →
      ∀ i < m.functions.length, w.marks[i]? = some .done ∧ log.count i = 1 := by
  refine ⟨?_, fun k w log h => h.not_active, ?_, ?_⟩
  · intro k w log h
    obtain ⟨n, hn, he, log', hr⟩ := h.ends
    refine ⟨inOrder_of_reached h, n, hn, log', ?_⟩
    rw [he]
    exact hr
  · rw [← m.callGraph_size]
    exact Walk.exists_reached_root m.callGraph _ le_rfl
  · rw [← m.callGraph_size]
    intro w log h i hi
    have hd := h.done hi
    exact ⟨hd, List.count_eq_one_of_mem h.pushes.nodup ((h.pushes.mem_iff i).2 (.inr hd))⟩

theorem walk_keeps_order_pingPong :
    (∃ w log, Walk.Reached pingPong.callGraph (.loop 0) w log ∧ pingPong.InOrder w) ∧
    (∀ i : Nat, (Walk.start pingPong.callGraph).marks[i]? ≠ some .active) ∧
    ∃ log : List Nat, ∀ i < 3,
      (Walk.all pingPong.callGraph).marks[i]? = some .done ∧ log.count i = 1 := by
  have hstart : Walk.Reached pingPong.callGraph (.root 0) (Walk.start _) [] := .start
  have hloop := hstart.begin (by decide) (by decide)
  obtain ⟨hheads, hroots, ⟨log, hend⟩, hlast⟩ := walk_keeps_order pingPong
  exact ⟨⟨_, _, hloop, (hheads 0 _ _ hloop).1⟩, hroots 0 _ _ hstart, log, hlast _ log hend⟩

end Module

end ShaderLegalizer
