import ShaderLegalizer.Module

set_option autoImplicit false

namespace ShaderLegalizer

def Instruction.callee? (i : Instruction) : Option String :=
  if Text.sameName i.op "call" then i.tag else none

def Module.lastPosition? (m : Module) (name : String) : Option Nat :=
  ((m.functions.zipIdx.filter fun f => f.1.name == name).getLast?).map Prod.snd

/-- The list with every run of equal neighbours cut to one element. -/
def squeeze {α : Type} [DecidableEq α] : List α → List α
  | [] => []
  | [a] => [a]
  | a :: b :: l => if a = b then squeeze (b :: l) else a :: squeeze (b :: l)

/-- For each function position, the positions of its callees in program order. -/
structure CallGraph where
  callees : List (List Nat)
deriving DecidableEq, Repr

namespace CallGraph

def size (g : CallGraph) : Nat := g.callees.length

def calleesOf (g : CallGraph) (i : Nat) : List Nat :=
  (g.callees[i]?).getD []

def Calls (g : CallGraph) (i j : Nat) : Prop :=
  j ∈ g.calleesOf i

end CallGraph

def Module.calleePositions (m : Module) (f : Function) : List Nat :=
  squeeze (f.instructions.filterMap fun i => i.callee?.bind m.lastPosition?)

def Module.callGraph (m : Module) : CallGraph where
  callees := m.functions.map m.calleePositions

end ShaderLegalizer
