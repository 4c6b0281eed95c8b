import ShaderLegalizer.Json.Parser
import ShaderLegalizer.Proofs.JsonScan

set_option autoImplicit false

namespace ShaderLegalizer.Json

mutual

/-- The value with the members of every object in the order of their keys, the last of each key. -/
def ordered : Json → Json
  | .null => .null
  | .bool b => .bool b
  | .num n => .num n
  | .str s => .str s
  | .arr items => .arr (orderedItems items)
  | .obj members => .obj (collect (orderedMembers members))

def orderedItems : List Json → List Json
  | [] => []
  | v :: vs => ordered v :: orderedItems vs

def orderedMembers : List (String × Json) → List (String × Json)
  | [] => []
  | (k, v) :: ms => (k, ordered v) :: orderedMembers ms

end

namespace Reading

def run (st : Reading) : List Token → Option Json
  | [] => st.result?
  | t :: ts => (st.step t).bind fun next => next.run ts

theorem ofTokens?_eq_run (ts : List Token) : ofTokens? ts = start.run ts :=
  foldlM_bind_eq step result? run (fun _ => rfl) (fun _ _ _ => rfl) ts start

/-- With `n` more brackets allowed, the machine takes these tokens for the value. -/
def ReadsAs (n : Nat) (tokens : List Token) (v : Json) : Prop :=
  ∀ bs ts, bs.length + n ≤ maxDepth →
    run ⟨bs, .value⟩ (tokens ++ ts) = (give v bs).bind fun next => next.run ts

theorem tokens_head (v : Json) : ∃ t ts, v.tokens = t :: ts ∧ t ≠ .closeArray := by
  cases v with
  | null => exact ⟨_, _, rfl, by decide⟩
  | bool b => exact ⟨_, _, rfl, by simp⟩
  | num n => exact ⟨_, _, rfl, by simp⟩
  | str s => exact ⟨_, _, rfl, by simp⟩
  | arr items =>
    cases items with
    | nil => exact ⟨_, _, rfl, by decide⟩
    | cons v vs => exact ⟨_, _, rfl, by decide⟩
  | obj ms =>
    cases ms with
    | nil => exact ⟨_, _, rfl, by decide⟩
    | cons m ms => exact ⟨_, _, rfl, by decide⟩

theorem run_itemOrEnd (bs : List Bracket) (v : Json) (ts : List Token) :
    run ⟨bs, .itemOrEnd⟩ (v.tokens ++ ts) = run ⟨bs, .value⟩ (v.tokens ++ ts) := by
  obtain ⟨t, ts', ht, hne⟩ := tokens_head v
  rw [ht, List.cons_append, run, run]
  simp only [step, if_neg hne]

theorem run_itemsTokens {n : Nat} (vs : List Json) (h : ∀ v ∈ vs, ReadsAs n v.tokens v.ordered)
    (items : List Json) (bs : List Bracket) (ts : List Token)
    (hn : bs.length + (n + 1) ≤ maxDepth) :
    run ⟨.array items :: bs, .separator⟩ (itemsTokens vs ++ .closeArray :: ts) =
      (give (.arr (items.reverse ++ orderedItems vs)) bs).bind fun next => next.run ts := by
  induction vs generalizing items with
  | nil => simp [itemsTokens, orderedItems, run, step, close]
  | cons v vs ih =>
    have hv := h v List.mem_cons_self
    have hvs := ih fun u hu => h u (List.mem_cons_of_mem v hu)
    simp only [itemsTokens, List.cons_append, List.append_assoc]
    change run ⟨.array items :: bs, .value⟩ (v.tokens ++ _) = _
    rw [hv _ _ (by rw [List.length_cons]; omega)]
    change run ⟨.array (v.ordered :: items) :: bs, .separator⟩ _ = _
    rw [hvs]
    simp [orderedItems]

theorem run_membersTokens {n : Nat} (ms : List (String × Json))
    (h : ∀ m ∈ ms, ReadsAs n m.2.tokens m.2.ordered) (acc : Members) (bs : List Bracket)
    (ts : List Token) (hn : bs.length + (n + 1) ≤ maxDepth) :
    run ⟨.object acc :: bs, .separator⟩ (membersTokens ms ++ .closeObject :: ts) =
      (give (.obj ((orderedMembers ms).foldl (fun acc m => insertMember m.1 m.2 acc) acc)) bs).bind
        fun next => next.run ts := by
  induction ms generalizing acc with
  | nil => simp [membersTokens, orderedMembers, run, step, close]
  | cons m ms ih =>
    obtain ⟨k, v⟩ := m
    have hv : ReadsAs n v.tokens v.ordered := h (k, v) List.mem_cons_self
    have hms := ih fun u hu => h u (List.mem_cons_of_mem _ hu)
    simp only [membersTokens, List.cons_append, List.append_assoc]
    change run ⟨.member acc k :: bs, .value⟩ (v.tokens ++ _) = _
    rw [hv _ _ (by rw [List.length_cons]; omega)]
    change run ⟨.object (insertMember k v.ordered acc) :: bs, .separator⟩ _ = _
    rw [hms]
    rfl

theorem readsAs_arr {n : Nat} (items : List Json)
    (h : ∀ v ∈ items, ReadsAs n v.tokens v.ordered) :
    ReadsAs (n + 1) (Json.arr items).tokens (Json.arr items).ordered := by
  intro bs ts hn
  have hroom : bs.length < maxDepth := by omega
  have hopen : step ⟨bs, .value⟩ .openArray = some ⟨.array [] :: bs, .itemOrEnd⟩ := by
    simp [step, takeValue, push, hroom]
  cases items with
  | nil =>
    simp only [tokens, List.cons_append, List.nil_append]
    rw [run, hopen]
    rfl
  | cons v vs =>
    have hv := h v List.mem_cons_self
    have hvs :=
      run_itemsTokens vs (fun u hu => h u (List.mem_cons_of_mem v hu)) [v.ordered] bs ts hn
    simp only [tokens, List.cons_append, List.append_assoc, List.nil_append]
    rw [run, hopen, Option.bind_some, run_itemOrEnd,
      hv _ _ (by rw [List.length_cons]; omega)]
    exact hvs

theorem readsAs_obj {n : Nat} (ms : List (String × Json))
    (h : ∀ m ∈ ms, ReadsAs n m.2.tokens m.2.ordered) :
    ReadsAs (n + 1) (Json.obj ms).tokens (Json.obj ms).ordered := by
  intro bs ts hn
  have hroom : bs.length < maxDepth := by omega
  have hopen : step ⟨bs, .value⟩ .openObject = some ⟨.object [] :: bs, .keyOrEnd⟩ := by
    simp [step, takeValue, push, hroom]
  cases ms with
  | nil =>
    simp only [tokens, List.cons_append, List.nil_append]
    rw [run, hopen]
    rfl
  | cons m ms =>
    obtain ⟨k, v⟩ := m
    have hv : ReadsAs n v.tokens v.ordered := h (k, v) List.mem_cons_self
    have hms := run_membersTokens ms (fun u hu => h u (List.mem_cons_of_mem _ hu))
      (insertMember k v.ordered []) bs ts hn
    simp only [tokens, List.cons_append, List.append_assoc, List.nil_append]
    rw [run, hopen]
    change run ⟨.member [] k :: bs, .value⟩ (v.tokens ++ _) = _
    rw [hv _ _ (by rw [List.length_cons]; omega)]
    exact hms

theorem readsAs_tokens {n : Nat} {v : Json} (h : Fits n v) : ReadsAs n v.tokens v.ordered := by
  induction h with
  | null n => exact fun bs ts _ => rfl
  | bool n b => exact fun bs ts _ => rfl
  | num n h => exact fun bs ts _ => rfl
  | str n s => exact fun bs ts _ => rfl
  | arr h ih => exact readsAs_arr _ ih
  | obj h ih => exact readsAs_obj _ ih

theorem ofTokens?_tokens {n : Nat} {v : Json} (h : Fits n v) (hn : n ≤ maxDepth) :
    ofTokens? v.tokens = some v.ordered := by
  have hv := readsAs_tokens h [] [] (by simpa using hn)
  rw [List.append_nil] at hv
  rw [ofTokens?_eq_run]
  exact hv

end Reading

/-- What is written is read back, up to the order of members. -/
theorem parse?_pretty {n : Nat} {v : Json} (h : Fits n v) (hn : n ≤ maxDepth) :
    parse? v.pretty = some v.ordered := by
  unfold parse? pretty
  rw [String.toList_ofList, Scan.tokens?_text h]
  exact Reading.ofTokens?_tokens h hn

end ShaderLegalizer.Json
