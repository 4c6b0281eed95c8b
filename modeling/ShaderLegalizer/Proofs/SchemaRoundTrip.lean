import Mathlib.Data.List.Nodup
import Mathlib.Data.List.Perm.Basic
import ShaderLegalizer.Proofs.JsonReading
import ShaderLegalizer.Wire.Keys
import ShaderLegalizer.Wire.Schema

/-!
What a schema writes, it reads back. Between the two a value is put into the order of its keys and
has its keys normalized; both leave the members of a written object as they are, up to their order.
The order does not matter either, because the fields of a lawful schema are independent.
-/

set_option autoImplicit false

namespace ShaderLegalizer.Json

theorem insertMember_perm (key : String) (value : Json) (ms : Members)
    (h : key ∉ ms.map Prod.fst) : (insertMember key value ms).Perm ((key, value) :: ms) := by
  induction ms with
  | nil => exact .refl _
  | cons m ms ih =>
    obtain ⟨k, v⟩ := m
    rw [List.map_cons, List.mem_cons, not_or] at h
    unfold insertMember
    split
    · exact .refl _
    · rw [if_neg h.1]
      exact ((ih h.2).cons (k, v)).trans (.swap _ _ _)

theorem foldl_insertMember_perm (ms acc : Members) (h : ((ms ++ acc).map Prod.fst).Nodup) :
    (ms.foldl (fun acc m => insertMember m.1 m.2 acc) acc).Perm (ms ++ acc) := by
  induction ms generalizing acc with
  | nil => exact .refl _
  | cons m ms ih =>
    rw [List.cons_append, List.map_cons, List.nodup_cons, List.map_append, List.mem_append,
      not_or] at h
    have hm := insertMember_perm m.1 m.2 acc h.1.2
    have hp : (ms ++ insertMember m.1 m.2 acc).Perm (m :: (ms ++ acc)) :=
      (hm.append_left ms).trans List.perm_middle
    have hn : ((ms ++ insertMember m.1 m.2 acc).map Prod.fst).Nodup := by
      rw [(hp.map Prod.fst).nodup_iff, List.map_cons, List.nodup_cons, List.map_append,
        List.mem_append, not_or]
      exact h
    exact (ih _ hn).trans hp

theorem collect_perm (ms : Members) (h : (ms.map Prod.fst).Nodup) : (collect ms).Perm ms := by
  have hp := foldl_insertMember_perm ms [] (by simpa using h)
  rwa [List.append_nil] at hp

theorem orderedItems_eq_map (items : List Json) : orderedItems items = items.map ordered := by
  induction items with
  | nil => rfl
  | cons v vs ih => rw [orderedItems, ih, List.map_cons]

theorem orderedMembers_eq_map (ms : List (String × Json)) :
    orderedMembers ms = ms.map fun m => (m.1, m.2.ordered) := by
  induction ms with
  | nil => rfl
  | cons m ms ih => rw [orderedMembers, ih, List.map_cons]

theorem isNull_ordered (v : Json) : v.ordered.isNull = v.isNull := by
  cases v <;> rfl

end ShaderLegalizer.Json

namespace ShaderLegalizer.Wire

section Inversion

variable {ε α β : Type} {x : Except ε α} {b : β}

theorem exists_of_bind_eq_ok {f : α → Except ε β} (h : x >>= f = .ok b) :
    ∃ a, x = .ok a ∧ f a = .ok b := by
  cases x with
  | error e => cases h
  | ok a => exact ⟨a, rfl, h⟩

theorem exists_of_map_eq_ok {f : α → β} (h : x.map f = .ok b) : ∃ a, x = .ok a ∧ f a = b := by
  cases x with
  | error e => cases h
  | ok a =>
    cases h
    exact ⟨a, rfl, rfl⟩

theorem eq_ok_of_mapError_eq_ok {δ : Type} {f : ε → δ} {a : α} (h : x.mapError f = .ok a) :
    x = .ok a := by
  cases x with
  | error e => cases h
  | ok a =>
    cases h
    rfl

end Inversion

theorem normalizeItems_eq_map (items : List Json) :
    normalizeItems items = items.map normalizeKeys := by
  induction items with
  | nil => rfl
  | cons v vs ih => rw [normalizeItems, ih, List.map_cons]

theorem normalizeMembers_eq_map (ms : List (String × Json))
    (h : ∀ m ∈ ms, m.2.isNull = false) :
    normalizeMembers ms = ms.map fun m => (canonicalKey m.1, normalizeKeys m.2) := by
  induction ms with
  | nil => rfl
  | cons m ms ih =>
    obtain ⟨k, v⟩ := m
    have hv : v.isNull = false := h (k, v) List.mem_cons_self
    rw [normalizeMembers, hv, ih fun u hu => h u (List.mem_cons_of_mem _ hu)]
    rfl

theorem canonicalKey_of_mem (k : String) (h : k ∈ fieldKeys) : canonicalKey k = k := by
  have hall : ∀ k ∈ fieldKeys, canonicalKey k = k := by decide +kernel
  exact hall k h

def settle (v : Json) : Json :=
  normalizeKeys v.ordered

theorem settle_arr (items : List Json) : settle (.arr items) = .arr (items.map settle) := by
  rw [settle, Json.ordered, normalizeKeys, Json.orderedItems_eq_map, normalizeItems_eq_map,
    List.map_map]
  rfl

theorem settle_obj (ms : List (String × Json)) (hkeys : (ms.map Prod.fst).Nodup)
    (hnull : ∀ m ∈ ms, m.2.isNull = false) (hcanon : ∀ m ∈ ms, canonicalKey m.1 = m.1) :
    ∃ settled, settle (.obj ms) = .obj settled ∧
      settled.Perm (ms.map fun m => (m.1, settle m.2)) := by
  have hfst : ((Json.orderedMembers ms).map Prod.fst) = ms.map Prod.fst := by
    rw [Json.orderedMembers_eq_map, List.map_map]
    rfl
  have hp := Json.collect_perm (Json.orderedMembers ms) (by rwa [hfst])
  have hnull' : ∀ m ∈ Json.collect (Json.orderedMembers ms), m.2.isNull = false := by
    intro m hm
    rw [hp.mem_iff, Json.orderedMembers_eq_map] at hm
    obtain ⟨u, hu, rfl⟩ := List.mem_map.1 hm
    rw [Json.isNull_ordered]
    exact hnull u hu
  have hn : (normalizeMembers (Json.collect (Json.orderedMembers ms))).Perm
      (ms.map fun m => (m.1, settle m.2)) := by
    rw [normalizeMembers_eq_map _ hnull']
    refine (hp.map _).trans (.of_eq ?_)
    rw [Json.orderedMembers_eq_map, List.map_map]
    apply List.map_congr_left
    intro m hm
    simp only [Function.comp_apply, settle, hcanon m hm]
  have hn' : ((normalizeMembers (Json.collect (Json.orderedMembers ms))).map Prod.fst).Nodup := by
    rw [(hn.map Prod.fst).nodup_iff, List.map_map]
    exact hkeys
  exact ⟨_, rfl, (Json.collect_perm _ hn').trans hn⟩

namespace Codec

variable {α β : Type}

def ReadsBack (c : Codec α) (canon : α → α) : Prop :=
  ∀ a, (c.write a).isNull = false ∧ c.read (settle (c.write a)) = .ok (canon a)

/-- As `ReadsBack`, where null may be written as long as it is for what an absent field holds. -/
def Faithful (c : Codec α) (absent : α) (canon : α → α) : Prop :=
  ∀ a, if (c.write a).isNull then canon a = absent
    else c.read (settle (c.write a)) = .ok (canon a)

theorem ReadsBack.faithful {c : Codec α} {canon : α → α} (h : c.ReadsBack canon) (absent : α) :
    c.Faithful absent canon := by
  intro a
  rw [(h a).1]
  exact (h a).2

theorem u32_readsBack : u32.ReadsBack id := by
  intro n
  refine ⟨rfl, ?_⟩
  have hn : (0 : Int) ≤ (n.toNat : Int) ∧ (n.toNat : Int) ≤ 0xFFFFFFFF := by
    have hlt := n.toNat_lt
    omega
  have hs : settle (u32.write n) = .num (.integer n.toNat) := rfl
  rw [hs]
  simp only [u32, if_pos hn, Int.toNat_natCast, UInt32.ofNat_toNat, id]

theorem text_readsBack : text.ReadsBack id :=
  fun _ => ⟨rfl, rfl⟩

theorem flag_readsBack : flag.ReadsBack id :=
  fun _ => ⟨rfl, rfl⟩

theorem list_readsBack {c : Codec α} {canon : α → α} (h : c.ReadsBack canon) :
    (list c).ReadsBack (List.map canon) := by
  intro as
  refine ⟨rfl, ?_⟩
  change (list c).read (settle (.arr (as.map c.write))) = _
  rw [settle_arr]
  change ((as.map c.write).map settle).mapM c.read = _
  induction as with
  | nil => rfl
  | cons a as ih =>
    rw [List.map_cons, List.map_cons, List.mapM_cons, (h a).2, ih]
    rfl

theorem optional_faithful {c : Codec α} {canon : α → α} (h : c.ReadsBack canon) :
    (optional c).Faithful none (Option.map canon) := by
  intro a
  cases a with
  | none => rfl
  | some a =>
    obtain ⟨hn, hr⟩ := h a
    change if (c.write a).isNull then _ else (optional c).read (settle (c.write a)) = _
    rw [hn]
    have hs : (settle (c.write a)).isNull = false := by
      rw [← hn]
      cases c.write a <;> rfl
    cases hv : settle (c.write a) with
    | null =>
      rw [hv] at hs
      cases hs
    | _ =>
      rw [hv] at hr
      simp only [optional, hr]
      rfl

theorem list_readsBack_id {c : Codec α} (h : c.ReadsBack id) : (list c).ReadsBack id := by
  have hl := list_readsBack h
  rwa [List.map_id_fun] at hl

theorem optional_faithful_id {c : Codec α} (h : c.ReadsBack id) :
    (optional c).Faithful none id := by
  have ho := optional_faithful h
  rwa [Option.map_id] at ho

theorem through_readsBack {c : Codec α} (hc : c.ReadsBack id) (decode : α → β) (encode : β → α) :
    (c.through decode encode).ReadsBack fun b => decode (encode b) := by
  intro b
  refine ⟨(hc (encode b)).1, ?_⟩
  change (c.read (settle (c.write (encode b)))).map decode = _
  rw [(hc (encode b)).2]
  rfl

end Codec

namespace Schema

variable {α : Type}

/-- Fields of their own keys, each of which can be set without regard to the others, and which
together make up the record. -/
structure Lawful (s : Schema α) : Prop where
  distinct : (s.fields.map Field.key).Nodup
  known : ∀ f ∈ s.fields, f.key ∈ fieldKeys
  get_set : ∀ f ∈ s.fields, ∀ c a, f.get (f.set c a) = c
  get_set_ne : ∀ f ∈ s.fields, ∀ g ∈ s.fields, f.key ≠ g.key → ∀ c a, g.get (f.set c a) = g.get a
  ext : ∀ a b, (∀ f ∈ s.fields, f.get a = f.get b) → a = b

theorem ext_of_rebuild {s : Schema α}
    (h : ∀ a b, s.fields.foldl (fun r f => f.set (f.get b) r) a = b) (a b : α)
    (hab : ∀ f ∈ s.fields, f.get a = f.get b) : a = b := by
  calc
    a = s.fields.foldl (fun r f => f.set (f.get a) r) a := (h a a).symm
    _ = s.fields.foldl (fun r f => f.set (f.get b) r) a := by
      apply List.foldl_ext
      intro r f hf
      rw [hab f hf]
    _ = b := h a b

theorem Lawful.eq_of_key {s : Schema α} (hs : s.Lawful) {f g : Field α} (hf : f ∈ s.fields)
    (hg : g ∈ s.fields) (h : f.key = g.key) : f = g :=
  List.inj_on_of_nodup_map hs.distinct hf hg h

theorem Lawful.field?_key {s : Schema α} (hs : s.Lawful) {f : Field α} (hf : f ∈ s.fields) :
    s.field? f.key = some f := by
  unfold field?
  cases h : s.fields.find? fun g => g.key == f.key with
  | none =>
    have hn := List.find?_eq_none.1 h f hf
    simp at hn
  | some g =>
    have hk : g.key = f.key := by simpa using List.find?_some h
    rw [hs.eq_of_key (List.mem_of_find?_eq_some h) hf hk]

/-- Members that hold the fields of a record are read as that record, in whatever order they come,
if the fields that are missing are right from the start. -/
theorem Lawful.foldlM_storeMember {s : Schema α} (hs : s.Lawful) (ms : List (String × Json))
    (a b : α)
    (hms : ∀ m ∈ ms, ∃ f ∈ s.fields, f.key = m.1 ∧ f.codec.read m.2 = .ok (f.get b))
    (hrest : ∀ f ∈ s.fields, f.key ∉ ms.map Prod.fst → f.get a = f.get b) :
    ms.foldlM s.storeMember a = .ok b := by
  induction ms generalizing a with
  | nil =>
    have hab : a = b := hs.ext a b fun f hf => hrest f hf List.not_mem_nil
    rw [hab]
    rfl
  | cons m ms ih =>
    obtain ⟨f, hf, hk, hr⟩ := hms m List.mem_cons_self
    have hstore : s.storeMember a m = .ok (f.set (f.get b) a) := by
      rw [storeMember, ← hk, hs.field?_key hf]
      simp only [Field.store, hr]
      rfl
    rw [List.foldlM_cons, hstore]
    apply ih (f.set (f.get b) a) fun u hu => hms u (List.mem_cons_of_mem m hu)
    intro g hg hgms
    by_cases hgk : f.key = g.key
    · rw [← hs.eq_of_key hf hg hgk]
      exact hs.get_set f hf _ a
    · rw [hs.get_set_ne f hf g hg hgk]
      apply hrest g hg
      rw [List.map_cons, List.mem_cons, not_or, ← hk]
      exact ⟨fun h => hgk h.symm, hgms⟩

theorem Lawful.storeItems_eq {s : Schema α} (hs : s.Lawful) (fs : List (Field α))
    (hfs : ∀ f ∈ fs, f ∈ s.fields) (vs : List Json) (a : α) :
    storeItems fs vs a =
      (((fs.zip vs).map fun p => (p.1.key, p.2)).foldlM s.storeMember a).map
        fun b => (b, vs.drop fs.length) := by
  induction fs generalizing vs a with
  | nil => rfl
  | cons f fs ih =>
    cases vs with
    | nil => rfl
    | cons v vs =>
      obtain ⟨hf, hfs⟩ := List.forall_mem_cons.1 hfs
      have hm : s.storeMember a (f.key, v) = f.store v a := by
        rw [storeMember, hs.field?_key hf]
      rw [storeItems, List.zip_cons_cons, List.map_cons, List.foldlM_cons, hm]
      cases f.store v a with
      | error e => rfl
      | ok b => exact ih hfs vs b

theorem mem_write_iff (s : Schema α) (a : α) (m : String × Json) :
    m ∈ ((s.fields.map fun f => f.member a).filter fun m => !m.2.isNull) ↔
      ∃ f ∈ s.fields, f.member a = m ∧ (f.codec.write (f.get a)).isNull = false := by
  simp only [List.mem_filter, List.mem_map, Bool.not_eq_true']
  constructor
  · rintro ⟨⟨f, hf, rfl⟩, hn⟩
    exact ⟨f, hf, rfl, hn⟩
  · rintro ⟨f, hf, rfl, hn⟩
    exact ⟨⟨f, hf, rfl⟩, hn⟩

theorem Lawful.settle_write {s : Schema α} (hs : s.Lawful) (a : α) :
    ∃ ms, settle (s.write a) = .obj ms ∧ ∀ m, m ∈ ms ↔ ∃ f ∈ s.fields,
      (f.key, settle (f.codec.write (f.get a))) = m ∧
        (f.codec.write (f.get a)).isNull = false := by
  have hkeys : (((s.fields.map fun f => f.member a).filter fun m => !m.2.isNull).map
      Prod.fst).Nodup := by
    apply (List.Sublist.map Prod.fst List.filter_sublist).nodup
    rw [List.map_map]
    exact hs.distinct
  have hnull : ∀ m ∈ (s.fields.map fun f => f.member a).filter fun m => !m.2.isNull,
      m.2.isNull = false := by
    intro m hm
    obtain ⟨f, -, rfl, hn⟩ := (mem_write_iff s a m).1 hm
    exact hn
  have hcanon : ∀ m ∈ (s.fields.map fun f => f.member a).filter fun m => !m.2.isNull,
      canonicalKey m.1 = m.1 := by
    intro m hm
    obtain ⟨f, hf, rfl, -⟩ := (mem_write_iff s a m).1 hm
    exact canonicalKey_of_mem _ (hs.known f hf)
  obtain ⟨ms, he, hp⟩ := settle_obj _ hkeys hnull hcanon
  refine ⟨ms, he, ?_⟩
  intro m
  rw [hp.mem_iff, List.mem_map]
  constructor
  · rintro ⟨u, hu, rfl⟩
    obtain ⟨f, hf, rfl, hn⟩ := (mem_write_iff s a u).1 hu
    exact ⟨f, hf, rfl, hn⟩
  · rintro ⟨f, hf, rfl, hn⟩
    exact ⟨f.member a, (mem_write_iff s a _).2 ⟨f, hf, rfl, hn⟩, rfl⟩

theorem Lawful.readsBack {s : Schema α} (hs : s.Lawful) {canon : α → α}
    (hf : ∀ f ∈ s.fields, ∃ canonField, f.codec.Faithful (f.get s.blank) canonField ∧
      ∀ a, f.get (canon a) = canonField (f.get a)) : s.codec.ReadsBack canon := by
  intro a
  refine ⟨rfl, ?_⟩
  obtain ⟨ms, he, hms⟩ := hs.settle_write a
  change s.read (settle (s.write a)) = _
  rw [he]
  apply hs.foldlM_storeMember ms s.blank (canon a)
  · intro m hm
    obtain ⟨f, hfs, rfl, hn⟩ := (hms m).1 hm
    obtain ⟨canonField, hfaith, hcanon⟩ := hf f hfs
    have hr := hfaith (f.get a)
    rw [hn] at hr
    refine ⟨f, hfs, rfl, ?_⟩
    rw [hcanon]
    exact hr
  · -- a field that is not written is null, so it was right in the blank record
    intro f hfs hnot
    obtain ⟨canonField, hfaith, hcanon⟩ := hf f hfs
    have hr := hfaith (f.get a)
    cases hn : (f.codec.write (f.get a)).isNull with
    | true =>
      rw [hn] at hr
      rw [hcanon]
      exact hr.symm
    | false =>
      have hm := (hms _).2 ⟨f, hfs, rfl, hn⟩
      exact absurd (List.mem_map_of_mem hm) hnot

theorem Lawful.readsBack_id {s : Schema α} (hs : s.Lawful)
    (hf : ∀ f ∈ s.fields, f.codec.Faithful (f.get s.blank) id) : s.codec.ReadsBack id :=
  hs.readsBack fun f hfs => ⟨id, hf f hfs, fun _ => rfl⟩

end Schema

namespace Codec

variable {α β : Type}

/-- What is written has at most so many brackets inside each other. -/
def Within (c : Codec α) (n : Nat) : Prop :=
  ∀ a, Json.Fits n (c.write a)

theorem u32_within (n : Nat) : u32.Within n := by
  intro x
  apply Json.Fits.num
  have hlt := x.toNat_lt
  change -0x8000000000000000 ≤ (x.toNat : Int) ∧ (x.toNat : Int) ≤ 0xFFFFFFFFFFFFFFFF
  omega

theorem text_within (n : Nat) : text.Within n :=
  fun s => .str n s

theorem flag_within (n : Nat) : flag.Within n :=
  fun b => .bool n b

theorem list_within {c : Codec α} {n : Nat} (h : c.Within n) : (list c).Within (n + 1) := by
  intro as
  apply Json.Fits.arr
  intro v hv
  obtain ⟨a, -, rfl⟩ := List.mem_map.1 hv
  exact h a

theorem optional_within {c : Codec α} {n : Nat} (h : c.Within n) : (optional c).Within n := by
  intro a
  cases a with
  | none => exact .null n
  | some a => exact h a

theorem through_within {c : Codec α} {n : Nat} (h : c.Within n) (decode : α → β)
    (encode : β → α) : (c.through decode encode).Within n :=
  fun b => h (encode b)

theorem schema_within {s : Schema α} {n : Nat} (h : ∀ f ∈ s.fields, f.codec.Within n) :
    s.codec.Within (n + 1) := by
  intro a
  apply Json.Fits.obj
  intro m hm
  obtain ⟨f, hf, rfl, -⟩ := (Schema.mem_write_iff s a m).1 hm
  exact h f hf (f.get a)

def Yields (c : Codec α) (P : α → Prop) : Prop :=
  ∀ v a, c.read v = .ok a → P a

theorem list_yields {c : Codec α} {P : α → Prop} (h : c.Yields P) :
    (list c).Yields fun as => ∀ a ∈ as, P a := by
  intro v as hv
  cases v with
  | arr items =>
    change items.mapM c.read = .ok as at hv
    induction items generalizing as with
    | nil =>
      cases hv
      simp
    | cons v vs ih =>
      rw [List.mapM_cons] at hv
      obtain ⟨a, ha, hv⟩ := exists_of_bind_eq_ok hv
      obtain ⟨as', has, hv⟩ := exists_of_bind_eq_ok hv
      cases hv
      exact List.forall_mem_cons.2 ⟨h v a ha, ih as' has⟩
  | _ => cases hv

theorem through_yields {c : Codec α} {P : β → Prop} (decode : α → β) (encode : β → α)
    (h : ∀ a, P (decode a)) : (c.through decode encode).Yields P := by
  intro v b hb
  obtain ⟨a, -, rfl⟩ := exists_of_map_eq_ok hb
  exact h a

end Codec

/-- Storing the field keeps a property of the record. -/
def Field.Keeps {α : Type} (f : Field α) (P : α → Prop) : Prop :=
  ∀ v a b, f.store v a = .ok b → P a → P b

theorem Field.keeps_of_yields {α : Type} {f : Field α} {P : α → Prop} {Q : f.Carrier → Prop}
    (hq : f.codec.Yields Q) (hset : ∀ c a, Q c → P a → P (f.set c a)) : f.Keeps P := by
  intro v a b h ha
  obtain ⟨c, hc, rfl⟩ := exists_of_map_eq_ok h
  exact hset c a (hq v c hc) ha

theorem Field.keeps_of_set {α : Type} {f : Field α} {P : α → Prop}
    (hset : ∀ c a, P a → P (f.set c a)) : f.Keeps P := by
  intro v a b h ha
  obtain ⟨c, -, rfl⟩ := exists_of_map_eq_ok h
  exact hset c a ha

namespace Schema

variable {α : Type} {P : α → Prop}

theorem storeItems_keeps (fs : List (Field α)) (hf : ∀ f ∈ fs, f.Keeps P) (vs : List Json)
    {a b : α} {rest : List Json} (ha : P a) (h : storeItems fs vs a = .ok (b, rest)) : P b := by
  induction fs generalizing vs a with
  | nil =>
    cases h
    exact ha
  | cons f fs ih =>
    cases vs with
    | nil =>
      cases h
      exact ha
    | cons v vs =>
      obtain ⟨a', hs, h⟩ := exists_of_bind_eq_ok h
      exact ih (fun g hg => hf g (List.mem_cons_of_mem f hg)) vs
        (hf f List.mem_cons_self v a a' hs ha) h

variable {s : Schema α}

theorem storeMember_keeps (hf : ∀ f ∈ s.fields, f.Keeps P) {m : String × Json} {a b : α}
    (ha : P a) (h : s.storeMember a m = .ok b) : P b := by
  unfold storeMember at h
  cases hk : s.field? m.1 with
  | none =>
    rw [hk] at h
    cases h
    exact ha
  | some f =>
    rw [hk] at h
    exact hf f (List.mem_of_find?_eq_some hk) m.2 a b h ha

theorem foldlM_storeMember_keeps (hf : ∀ f ∈ s.fields, f.Keeps P) (ms : List (String × Json))
    {a b : α} (ha : P a) (h : ms.foldlM s.storeMember a = .ok b) : P b := by
  induction ms generalizing a with
  | nil =>
    cases h
    exact ha
  | cons m ms ih =>
    rw [List.foldlM_cons] at h
    obtain ⟨a', hm, h⟩ := exists_of_bind_eq_ok h
    exact ih (storeMember_keeps hf ha hm) h

theorem codec_yields (hblank : P s.blank) (hf : ∀ f ∈ s.fields, f.Keeps P) :
    s.codec.Yields P := by
  intro v a hv
  cases v with
  | obj ms => exact foldlM_storeMember_keeps hf ms hblank hv
  | arr items =>
    obtain ⟨⟨b, rest⟩, hi, hv⟩ := exists_of_bind_eq_ok hv
    change (if rest.isEmpty then Except.ok b else _) = _ at hv
    split at hv
    · cases hv
      exact storeItems_keeps s.fields hf items hblank hi
    · cases hv
  | _ => cases hv

end Schema

end ShaderLegalizer.Wire
