import Mathlib.Logic.Relation
import ShaderLegalizer.Proofs.WellFormed

set_option autoImplicit false

namespace ShaderLegalizer

theorem transGen_of_isChain {r : Nat → Nat → Prop} {i j : Nat} {l : List Nat}
    (h : (i :: l ++ [j]).IsChain r) : Relation.TransGen r i j := by
  induction l generalizing i with
  | nil => exact .single (List.isChain_pair.1 h)
  | cons k l ih =>
    change (i :: k :: (l ++ [j])).IsChain r at h
    rw [List.isChain_cons_cons] at h
    exact .head h.1 (ih h.2)

theorem exists_isChain_of_transGen {r : Nat → Nat → Prop} {i j : Nat}
    (h : Relation.TransGen r i j) : ∃ l : List Nat, (i :: l ++ [j]).IsChain r := by
  induction h using Relation.TransGen.head_induction_on with
  | single h => exact ⟨[], List.isChain_pair.2 h⟩
  | head h _ ih =>
    obtain ⟨l, hl⟩ := ih
    exact ⟨_ :: l, List.isChain_cons_cons.2 ⟨h, hl⟩⟩

theorem exists_isCycle_iff_transGen (r : Nat → Nat → Prop) :
    (∃ c, IsCycle r c) ↔ ∃ i, Relation.TransGen r i i := by
  constructor
  · rintro ⟨_ | ⟨i, l⟩, h⟩
    · exact absurd h id
    · exact ⟨i, transGen_of_isChain h⟩
  · rintro ⟨i, h⟩
    obtain ⟨l, hl⟩ := exists_isChain_of_transGen h
    exact ⟨i :: l, hl⟩

namespace Function

def CallsName (f : Function) (name : String) : Prop :=
  ∃ call ∈ f.instructions, Text.sameName call.op "call" = true ∧ call.tag = some name

def caller (name callee : String) : Function where
  name := name
  blocks := [{ id := "a", instructions :=
    [{ op := "Call", tag := some callee }, { op := "Return", terminator := true }] }]

theorem caller_callsName (name callee : String) : (caller name callee).CallsName callee := by
  have hop : Text.sameName "Call" "call" = true := by decide
  exact ⟨_, .head _, hop, rfl⟩

end Function

namespace Module

/-- Some function of the first name holds a call of the second. -/
def NameCalls (m : Module) (a b : String) : Prop :=
  ∃ f ∈ m.functions, f.name = a ∧ f.CallsName b

/-- The last function of the first name holds a call of the second. -/
def LastNameCalls (m : Module) (a b : String) : Prop :=
  ∃ i f, m.LastNamed a i ∧ m.functions[i]? = some f ∧ f.CallsName b

variable {m : Module}

theorem LastNamed.position_eq {name : String} {i j : Nat} (hi : m.LastNamed name i)
    (hj : m.LastNamed name j) : i = j := by
  have hs : some i = some j := by
    rw [← (m.lastPosition?_eq_some_iff name i).2 hi, (m.lastPosition?_eq_some_iff name j).2 hj]
  exact Option.some.inj hs

theorem LastNamed.name_eq {a b : String} {i : Nat} (ha : m.LastNamed a i)
    (hb : m.LastNamed b i) : a = b := by
  obtain ⟨f, hf, rfl, -⟩ := ha
  obtain ⟨g, hg, rfl, -⟩ := hb
  rw [hf] at hg
  rw [Option.some.inj hg]

theorem Calls.lastNamed {i j : Nat} (h : m.Calls i j) : ∃ name, m.LastNamed name j := by
  obtain ⟨_, _, name, _, _, _, _, hj⟩ := h
  exact ⟨name, hj⟩

theorem LastNameCalls.calls {a b : String} {j : Nat} (h : m.LastNameCalls a b)
    (hj : m.LastNamed b j) : ∃ i, m.LastNamed a i ∧ m.Calls i j := by
  obtain ⟨i, f, hi, hf, call, hcall, hop, htag⟩ := h
  exact ⟨i, hi, f, call, b, hf, hcall, hop, htag, hj⟩

theorem Calls.lastNameCalls {a : String} {i j : Nat} (h : m.Calls i j) (hi : m.LastNamed a i) :
    ∃ b, m.LastNamed b j ∧ m.LastNameCalls a b := by
  obtain ⟨f, call, b, hf, hcall, hop, htag, hj⟩ := h
  exact ⟨b, hj, i, f, hi, hf, call, hcall, hop, htag⟩

theorem transGen_calls_of_names {a b : String} {j : Nat}
    (h : Relation.TransGen m.LastNameCalls a b) (hj : m.LastNamed b j) :
    ∃ i, m.LastNamed a i ∧ Relation.TransGen m.Calls i j := by
  induction h using Relation.TransGen.head_induction_on with
  | single h =>
    obtain ⟨i, hi, hc⟩ := h.calls hj
    exact ⟨i, hi, .single hc⟩
  | head h _ ih =>
    obtain ⟨k, hk, hkj⟩ := ih
    obtain ⟨i, hi, hc⟩ := h.calls hk
    exact ⟨i, hi, .head hc hkj⟩

theorem transGen_names_of_calls {a : String} {i j : Nat} (h : Relation.TransGen m.Calls i j)
    (hi : m.LastNamed a i) :
    ∃ b, m.LastNamed b j ∧ Relation.TransGen m.LastNameCalls a b := by
  induction h with
  | single h =>
    obtain ⟨b, hb, hc⟩ := h.lastNameCalls hi
    exact ⟨b, hb, .single hc⟩
  | tail _ h ih =>
    obtain ⟨b, hb, hab⟩ := ih
    obtain ⟨c, hc, hbc⟩ := h.lastNameCalls hb
    exact ⟨c, hc, .tail hab hbc⟩

theorem exists_isCycle_iff_names (m : Module) :
    (∃ c, IsCycle m.Calls c) ↔ ∃ n, Relation.TransGen m.LastNameCalls n n := by
  rw [exists_isCycle_iff_transGen]
  constructor
  · rintro ⟨i, h⟩
    obtain ⟨_, -, hlast⟩ := Relation.TransGen.tail'_iff.1 h
    obtain ⟨a, ha⟩ := hlast.lastNamed
    obtain ⟨b, hb, hab⟩ := transGen_names_of_calls h ha
    rw [← ha.name_eq hb] at hab
    exact ⟨a, hab⟩
  · rintro ⟨n, h⟩
    obtain ⟨_, hfirst, -⟩ := Relation.TransGen.head'_iff.1 h
    obtain ⟨j, _, hj, -⟩ := hfirst
    obtain ⟨i, hi, hij⟩ := transGen_calls_of_names h hj
    rw [hi.position_eq hj] at hij
    exact ⟨j, hij⟩

theorem NameCalls.last_of_nodup (hn : (m.functions.map Function.name).Nodup) {a b : String}
    (h : m.NameCalls a b) : m.LastNameCalls a b := by
  obtain ⟨f, hf, rfl, hcall⟩ := h
  obtain ⟨i, hi⟩ := List.mem_iff_getElem?.1 hf
  refine ⟨i, f, ⟨f, hi, rfl, ?_⟩, hi, hcall⟩
  intro k g hk hg hname
  have hi' : (m.functions.map Function.name)[i]? = some f.name := by
    rw [List.getElem?_map, hi, Option.map_some]
  have hk' : (m.functions.map Function.name)[k]? = some f.name := by
    rw [List.getElem?_map, hg, Option.map_some, hname]
  have hlt : i < (m.functions.map Function.name).length := (List.getElem?_eq_some_iff.1 hi').1
  have hik := (List.getElem?_inj hlt hn).1 (hi'.trans hk'.symm)
  omega

/-- Recursion is reported exactly if a chain of names closes through the last functions of its
names. As long as no two functions share a name, that is any chain of names that closes. -/
theorem recursion_reported_by_name (m : Module) :
    ((∃ name, (Fault.recursion name).diagnostic ∈ m.check) ↔
      ∃ n, Relation.TransGen m.LastNameCalls n n) ∧
    ((m.functions.map Function.name).Nodup → ∀ n, Relation.TransGen m.NameCalls n n →
      ∃ name, (Fault.recursion name).diagnostic ∈ m.check) := by
  have hiff : (∃ name, (Fault.recursion name).diagnostic ∈ m.check) ↔
      ∃ n, Relation.TransGen m.LastNameCalls n n :=
    m.recursion_diagnostic_iff_cycle.trans m.exists_isCycle_iff_names
  refine ⟨hiff, ?_⟩
  intro hn n h
  exact hiff.2 ⟨n, Relation.TransGen.mono (fun _ _ => NameCalls.last_of_nodup hn) _ _ h⟩

def callRing : Module where
  functions := [.caller "f" "g", .caller "g" "h", .caller "h" "f"]

theorem recursion_reported_by_name_callRing :
    (callRing.functions.map Function.name).Nodup ∧ Relation.TransGen callRing.NameCalls "f" "f" ∧
      ∃ name, (Fault.recursion name).diagnostic ∈ callRing.check := by
  have hn : (callRing.functions.map Function.name).Nodup := by decide
  have hc : Relation.TransGen callRing.NameCalls "f" "f" := by
    have hfg : callRing.NameCalls "f" "g" :=
      ⟨_, .head _, rfl, Function.caller_callsName _ _⟩
    have hgh : callRing.NameCalls "g" "h" :=
      ⟨_, .tail _ (.head _), rfl, Function.caller_callsName _ _⟩
    have hhf : callRing.NameCalls "h" "f" :=
      ⟨_, .tail _ (.tail _ (.head _)), rfl, Function.caller_callsName _ _⟩
    exact .head hfg (.head hgh (.single hhf))
  exact ⟨hn, hc, (recursion_reported_by_name callRing).2 hn "f" hc⟩

def namesake : Module where
  functions :=
    [ .caller "f" "f",
      { name := "f", blocks := [{ id := "b", instructions :=
        [{ op := "Return", terminator := true }] }] } ]

/-- The function that the module itself gives for the name calls that name, so the chain of names
closes after one step; but the call is taken for one of the later function, and the check finds
nothing. -/
theorem name_cycle_unreported :
    Relation.TransGen namesake.NameCalls "f" "f" ∧
      namesake.function? "f" = some (.caller "f" "f") ∧ (Function.caller "f" "f").CallsName "f" ∧
      namesake.check = [] :=
  ⟨.single ⟨_, .head _, rfl, Function.caller_callsName _ _⟩, rfl, Function.caller_callsName _ _,
    by decide +kernel⟩

end Module

end ShaderLegalizer
