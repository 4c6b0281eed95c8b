import Mathlib.Data.List.Induction
import ShaderLegalizer.Proofs.SchemaRoundTrip

set_option autoImplicit false

namespace ShaderLegalizer.Json

theorem induction {P : Json → Prop} (null : P .null) (bool : ∀ b, P (.bool b))
    (num : ∀ n, P (.num n)) (str : ∀ s, P (.str s))
    (arr : ∀ items, (∀ v ∈ items, P v) → P (.arr items))
    (obj : ∀ members : Members, (∀ m ∈ members, P m.2) → P (.obj members)) (v : Json) : P v := by
  refine @Json.rec P (fun items => ∀ v ∈ items, P v) (fun members => ∀ m ∈ members, P m.2)
    (fun m => P m.2) null bool num str arr obj ?_ ?_ ?_ ?_ (fun _ _ h => h) v
  · intro v hv
    exact absurd hv List.not_mem_nil
  · intro v vs hv hvs
    exact List.forall_mem_cons.2 ⟨hv, hvs⟩
  · intro m hm
    exact absurd hm List.not_mem_nil
  · intro m ms hm hms
    exact List.forall_mem_cons.2 ⟨hm, hms⟩

def Ascending (ms : Members) : Prop :=
  ms.Pairwise fun m n => m.1 < n.1

theorem lt_of_not_lt_of_ne {a b : String} (h : ¬ a < b) (hne : a ≠ b) : b < a := by
  by_contra hba
  exact hne (String.le_antisymm (String.not_lt.1 hba) (String.not_lt.1 h))

theorem mem_insertMember {key : String} {value : Json} {ms : Members} {m : String × Json}
    (h : m ∈ insertMember key value ms) : m = (key, value) ∨ m ∈ ms := by
  induction ms with
  | nil => exact .inl (List.mem_singleton.1 h)
  | cons n ms ih =>
    obtain ⟨k, v⟩ := n
    unfold insertMember at h
    split at h
    · exact List.mem_cons.1 h
    · split at h
      · exact (List.mem_cons.1 h).imp_right (List.mem_cons_of_mem _)
      · rcases List.mem_cons.1 h with rfl | h
        · exact .inr List.mem_cons_self
        · exact (ih h).imp_right (List.mem_cons_of_mem _)

theorem insertMember_ascending (key : String) (value : Json) {ms : Members} (h : Ascending ms) :
    Ascending (insertMember key value ms) := by
  induction ms with
  | nil => exact List.pairwise_singleton _ _
  | cons n ms ih =>
    obtain ⟨k, v⟩ := n
    obtain ⟨hk, hms⟩ := List.pairwise_cons.1 h
    unfold insertMember
    split
    · next hlt =>
      refine List.pairwise_cons.2 ⟨?_, h⟩
      intro m hm
      rcases List.mem_cons.1 hm with rfl | hm
      · exact hlt
      · exact String.lt_trans hlt (hk m hm)
    · next hlt =>
      split
      · next he =>
        subst he
        exact List.pairwise_cons.2 ⟨hk, hms⟩
      · next hne =>
        refine List.pairwise_cons.2 ⟨?_, ih hms⟩
        intro m hm
        rcases mem_insertMember hm with rfl | hm
        · exact lt_of_not_lt_of_ne hlt hne
        · exact hk m hm

theorem collect_concat (ms : Members) (m : String × Json) :
    collect (ms ++ [m]) = insertMember m.1 m.2 (collect ms) := by
  rw [collect, List.foldl_append]
  rfl

theorem collect_ascending (ms : Members) : Ascending (collect ms) := by
  induction ms using List.reverseRecOn with
  | nil => exact .nil
  | append_singleton ms m ih =>
    rw [collect_concat]
    exact insertMember_ascending m.1 m.2 ih

theorem Ascending.nodup {ms : Members} (h : Ascending ms) : (ms.map Prod.fst).Nodup := by
  apply List.pairwise_map.2
  apply h.imp
  intro m n hlt he
  rw [he] at hlt
  exact String.lt_irrefl _ hlt

theorem Ascending.eq_of_perm {ms ns : Members} (hm : Ascending ms) (hn : Ascending ns)
    (h : ms.Perm ns) : ms = ns :=
  h.eq_of_pairwise (fun _ _ _ _ hab hba => absurd hba (String.lt_asymm hab)) hm hn

theorem collect_eq_of_perm {ms ns : Members} (h : ms.Perm ns) (hn : (ms.map Prod.fst).Nodup) :
    collect ms = collect ns := by
  have hn' : (ns.map Prod.fst).Nodup := (h.map Prod.fst).nodup_iff.1 hn
  have hp : (collect ms).Perm (collect ns) :=
    (collect_perm ms hn).trans (h.trans (collect_perm ns hn').symm)
  exact (collect_ascending ms).eq_of_perm (collect_ascending ns) hp

theorem insertMember_map (f : Json → Json) (key : String) (value : Json) (ms : Members) :
    (insertMember key value ms).map (fun m => (m.1, f m.2)) =
      insertMember key (f value) (ms.map fun m => (m.1, f m.2)) := by
  induction ms with
  | nil => rfl
  | cons n ms ih =>
    obtain ⟨k, v⟩ := n
    simp only [insertMember, List.map_cons]
    split
    · rfl
    · split
      · rfl
      · rw [List.map_cons, ih]

theorem collect_map (f : Json → Json) (ms : Members) :
    (collect ms).map (fun m => (m.1, f m.2)) = collect (ms.map fun m => (m.1, f m.2)) := by
  induction ms using List.reverseRecOn with
  | nil => rfl
  | append_singleton ms m ih =>
    rw [collect_concat, insertMember_map, ih, List.map_append, List.map_singleton, collect_concat]

theorem insertMember_of_lt {key : String} {value : Json} {ms : Members}
    (h : ∀ m ∈ ms, key < m.1) : insertMember key value ms = (key, value) :: ms := by
  cases ms with
  | nil => rfl
  | cons n ms =>
    obtain ⟨k, v⟩ := n
    exact if_pos (h (k, v) List.mem_cons_self)

theorem insertMember_filter_of_not {p : String → Bool} {key : String} (hp : p key = false)
    (value : Json) (ms : Members) :
    (insertMember key value ms).filter (fun m => p m.1) = ms.filter fun m => p m.1 := by
  induction ms with
  | nil => simp [insertMember, hp]
  | cons n ms ih =>
    obtain ⟨k, v⟩ := n
    unfold insertMember
    split
    · rw [List.filter_cons_of_neg (by simp [hp])]
    · split
      · next he =>
        subst he
        rw [List.filter_cons_of_neg (by simp [hp]), List.filter_cons_of_neg (by simp [hp])]
      · rw [List.filter_cons, ih, List.filter_cons]

theorem insertMember_filter {p : String → Bool} {key : String} (hp : p key = true)
    (value : Json) {ms : Members} (h : Ascending ms) :
    (insertMember key value ms).filter (fun m => p m.1) =
      insertMember key value (ms.filter fun m => p m.1) := by
  induction ms with
  | nil => simp [insertMember, hp]
  | cons n ms ih =>
    obtain ⟨k, v⟩ := n
    obtain ⟨hk, hms⟩ := List.pairwise_cons.1 h
    by_cases hlt : key < k
    · have hall : ∀ m ∈ (k, v) :: ms, key < m.1 :=
        List.forall_mem_cons.2 ⟨hlt, fun m hm => String.lt_trans hlt (hk m hm)⟩
      rw [insertMember_of_lt hall,
        insertMember_of_lt fun m hm => hall m (List.mem_of_mem_filter hm)]
      exact List.filter_cons_of_pos hp
    · by_cases he : key = k
      · subst he
        have hpos : ∀ w : Json, ((key, w) :: ms).filter (fun m => p m.1) =
            (key, w) :: ms.filter fun m => p m.1 := fun w => List.filter_cons_of_pos hp
        rw [insertMember, if_neg hlt, if_pos rfl, hpos, hpos, insertMember, if_neg hlt, if_pos rfl]
      · have hins : ∀ ns : Members,
            insertMember key value ((k, v) :: ns) = (k, v) :: insertMember key value ns := by
          intro ns
          rw [insertMember, if_neg hlt, if_neg he]
        rw [hins, List.filter_cons, List.filter_cons, ih hms]
        split
        · rw [hins]
        · rfl

theorem collect_filter (p : String → Bool) (ms : Members) :
    (collect ms).filter (fun m => p m.1) = collect (ms.filter fun m => p m.1) := by
  induction ms using List.reverseRecOn with
  | nil => rfl
  | append_singleton ms m ih =>
    rw [collect_concat, List.filter_append]
    cases hp : p m.1 with
    | true =>
      rw [insertMember_filter hp m.2 (collect_ascending ms), ih,
        List.filter_cons_of_pos (by simpa using hp), List.filter_nil, collect_concat]
    | false =>
      rw [insertMember_filter_of_not hp, ih, List.filter_cons_of_neg (by simpa using hp),
        List.filter_nil, List.append_nil]

/-- All objects in the value have ascending keys. -/
inductive Arranged : Json → Prop where
  | null : Arranged .null
  | bool (b : Bool) : Arranged (.bool b)
  | num (n : Number) : Arranged (.num n)
  | str (s : String) : Arranged (.str s)
  | arr {items : List Json} (h : ∀ v ∈ items, Arranged v) : Arranged (.arr items)
  | obj {members : Members} (hk : Ascending members) (h : ∀ m ∈ members, Arranged m.2) :
      Arranged (.obj members)

theorem mem_collect {ms : Members} {m : String × Json} (h : m ∈ collect ms) : m ∈ ms := by
  induction ms using List.reverseRecOn with
  | nil => exact absurd h List.not_mem_nil
  | append_singleton ms n ih =>
    rw [collect_concat] at h
    rcases mem_insertMember h with rfl | h
    · exact List.mem_append_right ms (List.mem_singleton_self _)
    · exact List.mem_append_left _ (ih h)

theorem mem_keys_insertMember (key k : String) (value : Json) (ms : Members) :
    k ∈ (insertMember key value ms).map Prod.fst ↔ k = key ∨ k ∈ ms.map Prod.fst := by
  induction ms with
  | nil => simp [insertMember]
  | cons n ms ih =>
    obtain ⟨l, v⟩ := n
    unfold insertMember
    split
    · simp
    · split
      · next he => simp [he]
      · rw [List.map_cons, List.mem_cons, ih, List.map_cons, List.mem_cons, or_left_comm]

theorem mem_keys_collect (ms : Members) (key : String) :
    key ∈ (collect ms).map Prod.fst ↔ key ∈ ms.map Prod.fst := by
  induction ms using List.reverseRecOn with
  | nil => exact .rfl
  | append_singleton ms m ih =>
    rw [collect_concat, mem_keys_insertMember, ih, List.map_append, List.mem_append, or_comm,
      List.map_singleton, List.mem_singleton]

end ShaderLegalizer.Json

namespace ShaderLegalizer.Wire

open Json (Members)

theorem mem_normalizeMembers_iff (ms : Members) (m : String × Json) :
    m ∈ normalizeMembers ms ↔
      ∃ n ∈ ms, n.2.isNull = false ∧ m = (canonicalKey n.1, normalizeKeys n.2) := by
  induction ms with
  | nil => simp [normalizeMembers]
  | cons n ms ih =>
    obtain ⟨k, v⟩ := n
    rw [normalizeMembers]
    split
    · next hv => simp [ih, hv]
    · next hv => simp [ih, hv]

theorem normalizeKeys_arranged (v : Json) : (normalizeKeys v).Arranged := by
  induction v using Json.induction with
  | null => exact .null
  | bool b => exact .bool b
  | num n => exact .num n
  | str s => exact .str s
  | arr items ih =>
    rw [normalizeKeys, normalizeItems_eq_map]
    exact .arr (List.forall_mem_map.2 ih)
  | obj members ih =>
    rw [normalizeKeys]
    refine .obj (Json.collect_ascending _) ?_
    intro m hm
    obtain ⟨n, hn, -, rfl⟩ := (mem_normalizeMembers_iff members m).1 (Json.mem_collect hm)
    exact ih n hn

end ShaderLegalizer.Wire
