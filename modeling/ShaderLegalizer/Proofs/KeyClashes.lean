import ShaderLegalizer.Proofs.ByteTests
import ShaderLegalizer.Proofs.KeyEdits

set_option autoImplicit false

namespace ShaderLegalizer.Json

theorem mem_insertMember_iff {ms : Members} (h : Ascending ms) (key : String) (value : Json)
    (m : String × Json) :
    m ∈ insertMember key value ms ↔ m = (key, value) ∨ m ∈ ms ∧ m.1 ≠ key := by
  induction ms with
  | nil => simp [insertMember]
  | cons n ms ih =>
    obtain ⟨k, v⟩ := n
    obtain ⟨hk, hms⟩ := List.pairwise_cons.1 h
    have hne {key : String} (hle : ¬ k < key) (hm : m ∈ ms) : m.1 ≠ key := by
      rintro rfl
      exact hle (hk m hm)
    unfold insertMember
    split
    · next hlt =>
      have hrest : m ∈ (k, v) :: ms → m.1 ≠ key := by
        intro hm
        rcases List.mem_cons.1 hm with rfl | hm
        · exact fun he => String.lt_irrefl _ (he ▸ hlt)
        · exact hne (String.lt_asymm hlt) hm
      rw [List.mem_cons, and_iff_left_of_imp hrest]
    · split
      · next he =>
        subst he
        have hrest : m ∈ ms → m.1 ≠ key := hne (String.lt_irrefl key)
        rw [List.mem_cons, List.mem_cons, or_and_right, and_iff_left_of_imp hrest]
        have hold : ¬ (m = (key, v) ∧ m.1 ≠ key) := by
          rintro ⟨rfl, hn⟩
          exact hn rfl
        rw [or_iff_right hold]
      · next he =>
        have hold : m = (k, v) → m.1 ≠ key := by
          rintro rfl
          exact fun h' => he h'.symm
        rw [List.mem_cons, ih hms, List.mem_cons, or_and_right, and_iff_left_of_imp hold,
          or_left_comm]

theorem mem_collect_iff (ms : Members) (m : String × Json) :
    m ∈ collect ms ↔ ∃ before after, ms = before ++ m :: after ∧ ∀ n ∈ after, n.1 ≠ m.1 := by
  induction ms using List.reverseRecOn with
  | nil => simp [collect]
  | append_singleton ms n ih =>
    rw [collect_concat, mem_insertMember_iff (collect_ascending ms), ih]
    constructor
    · rintro (rfl | ⟨⟨before, after, rfl, hafter⟩, hn⟩)
      · exact ⟨ms, [], rfl, by simp⟩
      · refine ⟨before, after ++ [n], by simp, ?_⟩
        intro l hl
        rcases List.mem_append.1 hl with hl | hl
        · exact hafter l hl
        · rw [List.mem_singleton.1 hl]
          exact hn.symm
    · rintro ⟨before, after, he, hafter⟩
      rcases List.eq_nil_or_concat' after with rfl | ⟨after, l, rfl⟩
      · obtain ⟨-, hm⟩ := List.append_inj' he rfl
        exact .inl (List.singleton_inj.1 hm).symm
      · have he' : ms ++ [n] = (before ++ m :: after) ++ [l] := by simpa using he
        obtain ⟨hms, hl⟩ := List.append_inj' he' rfl
        obtain rfl := List.singleton_inj.1 hl
        refine .inr ⟨⟨before, after, hms, ?_⟩, ?_⟩
        · intro l hl
          exact hafter l (List.mem_append_left _ hl)
        · exact (hafter n (List.mem_append_right _ (List.mem_singleton_self n))).symm

theorem collect_of_ascending {ms : Members} (h : Ascending ms) : collect ms = ms :=
  (collect_ascending ms).eq_of_perm h (collect_perm ms h.nodup)

end ShaderLegalizer.Json

namespace ShaderLegalizer.Wire

open Json (Members)

theorem canonicalKey_of_not_isFieldKey {k : String} (h : isFieldKey k = false) :
    canonicalKey k = k := by
  have hn : fieldKeys.find? (Text.sameName k) = none := by
    rw [List.find?_eq_none]
    intro c hc hs
    rw [isFieldKey, List.any_eq_false] at h
    exact h c hc hs
  rw [canonicalKey, hn, Option.getD_none]

theorem canonicalKey_canonicalKey (k : String) :
    canonicalKey (canonicalKey k) = canonicalKey k := by
  cases h : isFieldKey k with
  | true => exact canonicalKey_of_mem _ (canonicalKey_of_isFieldKey h).1
  | false =>
    have hk := canonicalKey_of_not_isFieldKey h
    rw [hk, hk]

theorem canonicalKey_eq_iff {k : String} (hk : k ∈ fieldKeys) (key : String) :
    canonicalKey key = k ↔ Text.sameName key k = true := by
  constructor
  · intro h
    rw [← h] at hk ⊢
    exact (canonicalKey_of_isFieldKey ((canonicalKey_mem_iff key).1 hk)).2.1
  · intro h
    have hf : isFieldKey key = true := List.any_eq_true.2 ⟨k, hk, h⟩
    rw [canonicalKey_congr h hf, canonicalKey_of_mem k hk]

theorem canonicalKey_eq_iff_of_not_isFieldKey {k : String} (hk : isFieldKey k = false)
    (key : String) : canonicalKey key = k ↔ key = k := by
  constructor
  · intro h
    cases hf : isFieldKey key with
    | true =>
      have hm := (canonicalKey_of_isFieldKey hf).1
      rw [h, ← canonicalKey_of_not_isFieldKey hk, canonicalKey_mem_iff, hk] at hm
      cases hm
    | false => rw [← h, canonicalKey_of_not_isFieldKey hf]
  · rintro rfl
    exact canonicalKey_of_not_isFieldKey hk

theorem isNull_normalizeKeys (v : Json) : (normalizeKeys v).isNull = v.isNull := by
  cases v <;> rfl

theorem normalizeKeys_arr (items : List Json) :
    normalizeKeys (.arr items) = .arr (items.map normalizeKeys) := by
  rw [normalizeKeys, normalizeItems_eq_map]

theorem normalizeKeys_normalizeKeys (v : Json) :
    normalizeKeys (normalizeKeys v) = normalizeKeys v := by
  induction v using Json.induction with
  | null => rw [normalizeKeys, normalizeKeys]
  | bool b => rw [normalizeKeys, normalizeKeys]
  | num n => rw [normalizeKeys, normalizeKeys]
  | str s => rw [normalizeKeys, normalizeKeys]
  | arr items ih =>
    rw [normalizeKeys_arr, normalizeKeys_arr, List.map_map]
    congr 1
    exact List.map_congr_left ih
  | obj ms ih =>
    have hmem (n : String × Json) (hn : n ∈ Json.collect (normalizeMembers ms)) :
        n.2.isNull = false ∧ (canonicalKey n.1, normalizeKeys n.2) = n := by
      obtain ⟨m, hm, hv, rfl⟩ := (mem_normalizeMembers_iff ms n).1 (Json.mem_collect hn)
      refine ⟨?_, ?_⟩
      · rw [isNull_normalizeKeys]
        exact hv
      · rw [canonicalKey_canonicalKey, ih m hm]
    have hms : normalizeMembers (Json.collect (normalizeMembers ms)) =
        Json.collect (normalizeMembers ms) := by
      rw [normalizeMembers_eq_map _ fun n hn => (hmem n hn).1]
      exact (List.map_congr_left fun n hn => (hmem n hn).2).trans (List.map_id _)
    rw [normalizeKeys, normalizeKeys, hms, Json.collect_of_ascending (Json.collect_ascending _)]

def normalMember? (m : String × Json) : Option (String × Json) :=
  if m.2.isNull then none else some (canonicalKey m.1, normalizeKeys m.2)

theorem normalMember?_eq_some_iff (m n : String × Json) :
    normalMember? m = some n ↔ m.2.isNull = false ∧ n = (canonicalKey m.1, normalizeKeys m.2) := by
  unfold normalMember?
  split
  · next h => simp [h]
  · next h => simp [h, eq_comm]

theorem normalizeMembers_eq_filterMap (ms : Members) :
    normalizeMembers ms = ms.filterMap normalMember? := by
  induction ms with
  | nil => rfl
  | cons m ms ih =>
    obtain ⟨k, v⟩ := m
    rw [normalizeMembers, List.filterMap_cons, ih, normalMember?]
    split <;> rfl

theorem mem_collect_normalizeMembers_iff {ms : Members} (h : Json.Ascending ms)
    (n : String × Json) :
    n ∈ Json.collect (normalizeMembers ms) ↔
      ∃ m ∈ ms, m.2.isNull = false ∧ n = (canonicalKey m.1, normalizeKeys m.2) ∧
        ∀ l ∈ ms, l.2.isNull = false → canonicalKey l.1 = canonicalKey m.1 →
          l = m ∨ l.1 < m.1 := by
  rw [Json.mem_collect_iff, normalizeMembers_eq_filterMap]
  constructor
  · rintro ⟨before, after, he, hafter⟩
    obtain ⟨first, rest, rfl, -, hrest⟩ := List.filterMap_eq_append_iff.1 he
    obtain ⟨nulls, m, later, rfl, -, hm, rfl⟩ := List.filterMap_eq_cons_iff.1 hrest
    obtain ⟨hv, rfl⟩ := (normalMember?_eq_some_iff m n).1 hm
    rw [← List.append_assoc] at h ⊢
    refine ⟨m, by simp, hv, rfl, ?_⟩
    intro l hl hlv hlm
    rcases List.mem_append.1 hl with hl | hl
    · exact .inr ((List.pairwise_append.1 h).2.2 l hl m List.mem_cons_self)
    · rcases List.mem_cons.1 hl with hl | hl
      · exact .inl hl
      · have hx := (normalMember?_eq_some_iff l _).2 ⟨hlv, rfl⟩
        exact absurd hlm (hafter _ (List.mem_filterMap.2 ⟨l, hl, hx⟩))
  · rintro ⟨m, hm, hv, rfl, hlast⟩
    obtain ⟨first, later, rfl⟩ := List.append_of_mem hm
    have hx := (normalMember?_eq_some_iff m _).2 ⟨hv, rfl⟩
    refine ⟨first.filterMap normalMember?, later.filterMap normalMember?, ?_, ?_⟩
    · rw [List.filterMap_append, List.filterMap_cons_some hx]
    · intro x hxm he
      obtain ⟨l, hl, hxl⟩ := List.mem_filterMap.1 hxm
      obtain ⟨hlv, rfl⟩ := (normalMember?_eq_some_iff l x).1 hxl
      have hlt : m.1 < l.1 :=
        (List.pairwise_cons.1 (List.pairwise_append.1 h).2.1).1 l hl
      have hmem : l ∈ first ++ m :: later := List.mem_append_right _ (List.mem_cons_of_mem m hl)
      rcases hlast l hmem hlv he with rfl | hlm
      · exact String.lt_irrefl _ hlt
      · exact String.lt_asymm hlt hlm

/-- The first key comes before the second in the order of their UTF-8 bytes. -/
def ByteBefore (k k' : String) : Prop :=
  Text.bytes k.toList < Text.bytes k'.toList

instance (k k' : String) : Decidable (ByteBefore k k') :=
  inferInstanceAs (Decidable (_ < _))

theorem ascending_iff (ms : Members) :
    Json.Ascending ms ↔ ms.Pairwise fun m n => ByteBefore m.1 n.1 := by
  unfold Json.Ascending
  apply List.Pairwise.iff
  intro m n
  exact (Text.bytes_lt_iff m.1 n.1).symm

/-- The member gives the field a value, under some spelling of its key. -/
structure Gives (ms : Members) (k : String) (m : String × Json) : Prop where
  mem : m ∈ ms
  spells : Text.sameName m.1 k = true
  value : m.2.isNull = false

/-- What normalization makes of the members of an object. -/
structure Resolved (ms ns : Members) : Prop where
  order : ns.Pairwise fun m n => ByteBefore m.1 n.1
  field_iff : ∀ k ∈ fieldKeys, (∃ w, (k, w) ∈ ns) ↔ ∃ m, Gives ms k m
  field_value : ∀ k ∈ fieldKeys, ∀ m, Gives ms k m →
    (∀ l, Gives ms k l → l = m ∨ ByteBefore l.1 m.1) → ∀ w, (k, w) ∈ ns ↔ w = normalizeKeys m.2
  other_iff : ∀ k, isFieldKey k = false →
    ∀ w, (k, w) ∈ ns ↔ ∃ v, (k, v) ∈ ms ∧ v.isNull = false ∧ w = normalizeKeys v
  keys : ∀ n ∈ ns, n.1 ∈ fieldKeys ∨ isFieldKey n.1 = false

theorem exists_mem_collect_iff (ms : Members) {k : String} (hk : k ∈ fieldKeys) :
    (∃ w, (k, w) ∈ Json.collect (normalizeMembers ms)) ↔ ∃ m, Gives ms k m := by
  have hkeys : (∃ w, (k, w) ∈ Json.collect (normalizeMembers ms)) ↔
      k ∈ (normalizeMembers ms).map Prod.fst := by
    rw [← Json.mem_keys_collect, List.mem_map]
    simp
  rw [hkeys, List.mem_map]
  constructor
  · rintro ⟨n, hn, rfl⟩
    obtain ⟨m, hm, hv, rfl⟩ := (mem_normalizeMembers_iff ms n).1 hn
    exact ⟨m, hm, (canonicalKey_eq_iff hk m.1).1 rfl, hv⟩
  · rintro ⟨m, hm, hs, hv⟩
    exact ⟨_, (mem_normalizeMembers_iff ms _).2 ⟨m, hm, hv, rfl⟩, (canonicalKey_eq_iff hk m.1).2 hs⟩

theorem mem_collect_iff_of_last {ms : Members} (h : Json.Ascending ms) {k : String}
    (hk : k ∈ fieldKeys) {m : String × Json} (hm : Gives ms k m)
    (hlast : ∀ l, Gives ms k l → l = m ∨ ByteBefore l.1 m.1) (w : Json) :
    (k, w) ∈ Json.collect (normalizeMembers ms) ↔ w = normalizeKeys m.2 := by
  have hcm : canonicalKey m.1 = k := (canonicalKey_eq_iff hk m.1).2 hm.spells
  rw [mem_collect_normalizeMembers_iff h]
  constructor
  · rintro ⟨l, hl, hv, he, hlater⟩
    obtain ⟨hcl, rfl⟩ : k = canonicalKey l.1 ∧ w = normalizeKeys l.2 := Prod.mk.inj he
    have hgl : Gives ms k l := ⟨hl, (canonicalKey_eq_iff hk l.1).1 hcl.symm, hv⟩
    rcases hlast l hgl with rfl | hlm
    · rfl
    · rcases hlater m hm.mem hm.value (hcm.trans hcl) with rfl | hml
      · rfl
      · exact absurd hml (String.lt_asymm ((Text.bytes_lt_iff l.1 m.1).1 hlm))
  · rintro rfl
    refine ⟨m, hm.mem, hm.value, by rw [hcm], ?_⟩
    intro l hl hv he
    have hgl : Gives ms k l := ⟨hl, (canonicalKey_eq_iff hk l.1).1 (he.trans hcm), hv⟩
    exact (hlast l hgl).imp_right (Text.bytes_lt_iff l.1 m.1).1

theorem mem_collect_iff_of_not_isFieldKey {ms : Members} (h : Json.Ascending ms) {k : String}
    (hk : isFieldKey k = false) (w : Json) :
    (k, w) ∈ Json.collect (normalizeMembers ms) ↔
      ∃ v, (k, v) ∈ ms ∧ v.isNull = false ∧ w = normalizeKeys v := by
  rw [mem_collect_normalizeMembers_iff h]
  constructor
  · rintro ⟨⟨key, v⟩, hm, hv, he, -⟩
    obtain ⟨hc, rfl⟩ : k = canonicalKey key ∧ w = normalizeKeys v := Prod.mk.inj he
    obtain rfl := (canonicalKey_eq_iff_of_not_isFieldKey hk key).1 hc.symm
    exact ⟨v, hm, hv, rfl⟩
  · rintro ⟨v, hm, hv, rfl⟩
    have hc := canonicalKey_of_not_isFieldKey hk
    refine ⟨(k, v), hm, hv, by rw [hc], ?_⟩
    intro l hl _ he
    have hkey : l.1 = k := (canonicalKey_eq_iff_of_not_isFieldKey hk l.1).1 (he.trans hc)
    exact .inl (List.inj_on_of_nodup_map h.nodup hl hm hkey)

theorem mem_fieldKeys_or_of_mem_collect {ms : Members} {n : String × Json}
    (hn : n ∈ Json.collect (normalizeMembers ms)) :
    n.1 ∈ fieldKeys ∨ isFieldKey n.1 = false := by
  obtain ⟨m, -, -, rfl⟩ := (mem_normalizeMembers_iff ms n).1 (Json.mem_collect hn)
  cases hf : isFieldKey m.1 with
  | true => exact .inl ((canonicalKey_mem_iff m.1).2 hf)
  | false =>
    right
    change isFieldKey (canonicalKey m.1) = false
    rw [canonicalKey_of_not_isFieldKey hf, hf]

theorem resolved_collect {ms : Members} (h : Json.Ascending ms) :
    Resolved ms (Json.collect (normalizeMembers ms)) where
  order := (ascending_iff _).1 (Json.collect_ascending _)
  field_iff := fun _ hk => exists_mem_collect_iff ms hk
  field_value := fun _ hk _ hm hlast => mem_collect_iff_of_last h hk hm hlast
  other_iff := fun _ hk => mem_collect_iff_of_not_isFieldKey h hk
  keys := fun _ hn => mem_fieldKeys_or_of_mem_collect hn

/-- Normalizing twice is normalizing once. In an object, a map in the order of its keys' bytes, a
field is given by the last of its spellings that has a value, and nothing else is kept but the
members of no field. Arrays keep their elements, nulls among them. -/
theorem key_clashes_resolved :
    (∀ v, normalizeKeys (normalizeKeys v) = normalizeKeys v) ∧
    (∀ ms : Members, (ms.Pairwise fun m n => ByteBefore m.1 n.1) →
      ∃ ns, normalizeKeys (.obj ms) = .obj ns ∧ Resolved ms ns) ∧
    (∀ items, normalizeKeys (.arr items) = .arr (items.map normalizeKeys)) ∧
    normalizeKeys .null = .null := by
  refine ⟨normalizeKeys_normalizeKeys, ?_, normalizeKeys_arr, rfl⟩
  intro ms hms
  refine ⟨Json.collect (normalizeMembers ms), ?_, resolved_collect ((ascending_iff ms).2 hms)⟩
  rw [normalizeKeys]

def manySpellings : Members :=
  [("ID", .num (.integer 1)), ("Id", .num (.integer 2)), ("iD", .null), ("note", .bool true),
    ("zest", .null)]

theorem key_clashes_resolved_manySpellings :
    ∃ ns, normalizeKeys (.obj manySpellings) = .obj ns ∧ Resolved manySpellings ns ∧
      ("id", .num (.integer 2)) ∈ ns := by
  have hms : manySpellings.Pairwise fun m n => ByteBefore m.1 n.1 := by decide
  obtain ⟨ns, he, hr⟩ := key_clashes_resolved.2.1 manySpellings hms
  refine ⟨ns, he, hr, ?_⟩
  have hm : Gives manySpellings "id" ("Id", .num (.integer 2)) :=
    ⟨by simp [manySpellings], by decide, rfl⟩
  refine (hr.field_value "id" (by decide) _ hm ?_ _).2 rfl
  rintro l ⟨hl, hs, hv⟩
  simp only [manySpellings, List.mem_cons, List.not_mem_nil, or_false] at hl
  rcases hl with rfl | rfl | rfl | rfl | rfl
  · exact .inr (by decide)
  · exact .inl rfl
  · cases hv
  · exact absurd hs (by decide)
  · cases hv

end ShaderLegalizer.Wire
