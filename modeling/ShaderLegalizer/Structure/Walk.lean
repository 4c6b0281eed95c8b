import ShaderLegalizer.Structure.CallGraph

/-!
A depth-first walk over a call graph that looks for calls back into a function still being walked.
The walk keeps its own stack: each frame is a function and the callees it has still to look at. A
step looks at one callee or leaves the function on top.

The work left is a number: one step for each callee not yet looked at and one for each function not
yet left, over all functions that are unvisited or on the stack. Every step lowers it, so the walk
from any function ends.
-/

set_option autoImplicit false

namespace ShaderLegalizer

inductive Visit where
  | unvisited
  | active
  | done
deriving DecidableEq, Repr

/-- A function on the stack and the callees it has still to look at. -/
structure Frame where
  function : Nat
  rest : List Nat
deriving DecidableEq, Repr

structure Walk where
  marks : List Visit
  stack : List Frame
  found : List Nat
deriving DecidableEq, Repr

namespace Walk

def start (g : CallGraph) : Walk where
  marks := List.replicate g.size .unvisited
  stack := []
  found := []

def enter (g : CallGraph) (i : Nat) (w : Walk) : Walk :=
  { w with marks := w.marks.set i .active, stack := ⟨i, g.calleesOf i⟩ :: w.stack }

def record (i : Nat) (w : Walk) : Walk :=
  if i ∈ w.found then w else { w with found := i :: w.found }

def look (g : CallGraph) (callee : Nat) (w : Walk) : Walk :=
  match w.marks[callee]? with
  | some .unvisited => w.enter g callee
  | some .active => w.record callee
  | some .done => w
  | none => w

def step (g : CallGraph) (w : Walk) : Walk :=
  match w.stack with
  | [] => w
  | ⟨i, []⟩ :: below => { w with marks := w.marks.set i .done, stack := below }
  | ⟨i, c :: rest⟩ :: below => look g c { w with stack := ⟨i, rest⟩ :: below }

/-- The steps that the functions behind the marks call for, from position `i` on: an unvisited
function takes one step for each callee and one to be left. -/
def unvisitedWork (g : CallGraph) (i : Nat) : List Visit → Nat
  | [] => 0
  | v :: vs =>
    (if v = .unvisited then (g.calleesOf i).length + 1 else 0) + unvisitedWork g (i + 1) vs

def stackWork : List Frame → Nat
  | [] => 0
  | f :: below => f.rest.length + 1 + stackWork below

def work (g : CallGraph) (w : Walk) : Nat :=
  unvisitedWork g 0 w.marks + stackWork w.stack

theorem unvisitedWork_set_active (g : CallGraph) (marks : List Visit) (i j : Nat)
    (h : marks[j]? = some .unvisited) :
    unvisitedWork g i (marks.set j .active) + ((g.calleesOf (i + j)).length + 1) =
      unvisitedWork g i marks := by
  induction marks generalizing i j with
  | nil => simp at h
  | cons v vs ih =>
    cases j with
    | zero =>
      simp only [List.getElem?_cons_zero, Option.some.injEq] at h
      subst h
      simp only [List.set_cons_zero, unvisitedWork, Nat.add_zero, if_pos, reduceCtorEq, if_false]
      omega
    | succ j =>
      simp only [List.getElem?_cons_succ] at h
      have hj := ih (i + 1) j h
      have hp : i + 1 + j = i + (j + 1) := by omega
      rw [hp] at hj
      simp only [List.set_cons_succ, unvisitedWork]
      omega

theorem unvisitedWork_set_le (g : CallGraph) (marks : List Visit) (i j : Nat) (v : Visit)
    (hv : v ≠ .unvisited) :
    unvisitedWork g i (marks.set j v) ≤ unvisitedWork g i marks := by
  induction marks generalizing i j with
  | nil => exact Nat.le_of_eq rfl
  | cons u us ih =>
    cases j with
    | zero =>
      simp only [List.set_cons_zero, unvisitedWork, if_neg hv]
      omega
    | succ j =>
      have hj := ih (i + 1) j
      simp only [List.set_cons_succ, unvisitedWork]
      omega

theorem work_look (g : CallGraph) (c : Nat) (w : Walk) : (look g c w).work g = w.work g := by
  unfold look
  split
  · next h =>
    have hw := unvisitedWork_set_active g w.marks 0 c h
    rw [Nat.zero_add] at hw
    simp only [work, enter, stackWork]
    omega
  · unfold record
    split <;> rfl
  · rfl
  · rfl

theorem work_step_lt (g : CallGraph) (w : Walk) (h : w.stack ≠ []) :
    (step g w).work g < w.work g := by
  unfold step
  split
  · next hs => exact absurd hs h
  · next i below hs =>
    have hle := unvisitedWork_set_le g w.marks 0 i .done (by decide)
    simp only [work, stackWork, hs, List.length_nil]
    omega
  · next i c rest below hs =>
    rw [work_look]
    simp only [work, stackWork, hs, List.length_cons]
    omega

def run (g : CallGraph) (w : Walk) : Walk :=
  if _h : w.stack = [] then w else run g (w.step g)
termination_by w.work g
decreasing_by exact work_step_lt g w _h

def visit (g : CallGraph) (w : Walk) (root : Nat) : Walk :=
  if w.marks[root]? = some .unvisited then run g (w.enter g root) else w

def all (g : CallGraph) : Walk :=
  (List.range g.size).foldl (visit g) (start g)

end Walk

/-- The functions that are called while they are being walked, in the order in which the walk finds
them, each once. -/
def CallGraph.recursive (g : CallGraph) : List Nat :=
  (Walk.all g).found.reverse

end ShaderLegalizer
