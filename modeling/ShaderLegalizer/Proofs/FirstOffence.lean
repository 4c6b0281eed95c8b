import ShaderLegalizer.Proofs.Offence

set_option autoImplicit false

namespace ShaderLegalizer.Wire

open Json (Members)

/-- What a reader should say of a value: nothing, or what its first offence is. -/
def Verdict (s : Shape) (v : Json) : Option Mismatch → Prop
  | none => Conforms s v
  | some e => FirstOffence s v e

def complaint {α : Type} : Except Mismatch α → Option Mismatch
  | .ok _ => none
  | .error e => some e

theorem complaint_map {α β : Type} (f : α → β) (r : Except Mismatch α) :
    complaint (r.map f) = complaint r := by
  cases r <;> rfl

theorem complaint_mapM {α β : Type} (f : α → Except Mismatch β) (l : List α) :
    complaint (l.mapM f) = l.findSome? fun a => complaint (f a) := by
  induction l with
  | nil => rfl
  | cons a l ih =>
    rw [List.mapM_cons, List.findSome?_cons, ← ih]
    cases f a with
    | error e => rfl
    | ok b => cases l.mapM f <;> rfl

theorem exists_index_of_findSome? {α β : Type*} {f : α → Option β} {l : List α} {b : β}
    (h : l.findSome? f = some b) :
    ∃ (i : Nat) (a : α), l[i]? = some a ∧ f a = some b ∧
      ∀ (j : Nat) (c : α), j < i → l[j]? = some c → f c = none := by
  obtain ⟨l₁, a, l₂, rfl, ha, hn⟩ := List.findSome?_eq_some_iff.1 h
  refine ⟨l₁.length, a, ?_, ha, ?_⟩
  · rw [List.getElem?_append_right (Nat.le_refl _), Nat.sub_self]
    rfl
  · intro j c hj hc
    rw [List.getElem?_append_left hj] at hc
    exact hn c (List.mem_of_getElem? hc)

section Records

variable {α : Type}

theorem Schema.complaint_foldlM (r : Schema α) (ms : Members) (a : α) :
    complaint (ms.foldlM r.storeMember a) =
      ms.findSome? fun m => (r.field? m.1).bind fun f => complaint (f.codec.read m.2) := by
  induction ms generalizing a with
  | nil => rfl
  | cons m ms ih =>
    rw [List.foldlM_cons, List.findSome?_cons, storeMember]
    cases r.field? m.1 with
    | none => exact ih a
    | some f =>
      simp only [Field.store, Option.bind_some]
      cases f.codec.read m.2 with
      | error e => rfl
      | ok c => exact ih (f.set c a)

theorem Schema.Lawful.complaint_members {r : Schema α} (hr : r.Lawful) (vs : List Json) (a : α) :
    complaint (((r.fields.zip vs).map fun p => (p.1.key, p.2)).foldlM r.storeMember a) =
      (r.fields.zip vs).findSome? fun p => complaint (p.1.codec.read p.2) := by
  rw [complaint_foldlM, List.findSome?_map, ← List.head?_filterMap, ← List.head?_filterMap]
  congr 1
  apply List.filterMap_congr
  intro p hp
  simp only [Function.comp_apply, hr.field?_key (List.of_mem_zip hp).1, Option.bind_some]

theorem Schema.Lawful.complaint_read_arr {r : Schema α} (hr : r.Lawful) (items : List Json) :
    complaint (r.read (.arr items)) =
      ((r.fields.zip items).findSome? fun p => complaint (p.1.codec.read p.2)).or
        (if items.length ≤ r.fields.length then none else some (.tooLong items.length)) := by
  rw [← hr.complaint_members items r.blank, Schema.read,
    hr.storeItems_eq r.fields fun _ hf => hf]
  cases ((r.fields.zip items).map fun p => (p.1.key, p.2)).foldlM r.storeMember r.blank with
  | error e => rfl
  | ok b =>
    change complaint (if (items.drop r.fields.length).isEmpty then Except.ok b
      else .error (.tooLong items.length)) = _
    by_cases hl : items.length ≤ r.fields.length
    · rw [if_pos hl, List.drop_eq_nil_of_le hl]
      rfl
    · rw [if_neg hl, if_neg (by rwa [List.isEmpty_iff, List.drop_eq_nil_iff])]
      rfl

end Records

section Formers

variable {α : Type}

theorem Verdict.list {c : Codec α} {s : Shape} {items : List Json}
    (h : ∀ v ∈ items, Verdict s v (complaint (c.read v))) :
    Verdict (.list s) (.arr items) (complaint (items.mapM c.read)) := by
  rw [complaint_mapM]
  cases hf : items.findSome? fun v => complaint (c.read v) with
  | none =>
    apply Conforms.list
    intro v hv
    have hc := h v hv
    rwa [List.findSome?_eq_none_iff.1 hf v hv] at hc
  | some e =>
    obtain ⟨i, w, hi, he, hbefore⟩ := exists_index_of_findSome? hf
    have hw := h w (List.mem_of_getElem? hi)
    rw [he] at hw
    apply FirstOffence.of_part (.item hi) hw
    intro t' s'' u hp
    cases hp with
    | @item _ _ j _ hj =>
      rcases Nat.lt_trichotomy j i with hlt | rfl | hlt
      · have hu := h u (List.mem_of_getElem? hj)
        rw [hbefore j u hlt hj] at hu
        exact .inr (.inr hu)
      · rw [hi] at hj
        exact .inl ⟨rfl, rfl, (Option.some.inj hj).symm⟩
      · exact .inr (.inl (.index hlt))

variable {r : Schema α} {fields : List (String × Shape)}

theorem Verdict.optional {s : Shape} {v : Json} {o : Option Mismatch} (hv : v.isNull = false)
    (h : Verdict s v o) : Verdict (.optional s) v o := by
  cases o with
  | none => exact Conforms.present h
  | some e => exact FirstOffence.optional hv h

theorem Verdict.array {items : List Json} (lawful : r.Lawful)
    (keys : r.fields.map Field.key = fields.map Prod.fst)
    (h : ∀ p ∈ r.fields.zip fields, ∀ v ∈ items, Verdict p.2.2 v (complaint (p.1.codec.read v))) :
    Verdict (.record r.name fields) (.arr items) (complaint (r.read (.arr items))) := by
  rw [lawful.complaint_read_arr]
  have hplace {i : Nat} {k : String} {s : Shape} {v : Json} (hs : fields[i]? = some (k, s))
      (hv : items[i]? = some v) :
      ∃ f, (r.fields.zip items)[i]? = some (f, v) ∧ Verdict s v (complaint (f.codec.read v)) := by
    have hlt : i < r.fields.length := by
      rw [fields_length keys]
      exact (List.getElem?_eq_some_iff.1 hs).1
    have hf : r.fields[i]? = some r.fields[i] := List.getElem?_eq_getElem hlt
    refine ⟨r.fields[i], List.getElem?_zip_eq_some.2 ⟨hf, hv⟩, ?_⟩
    exact h (r.fields[i], (k, s)) (List.mem_of_getElem? (List.getElem?_zip_eq_some.2 ⟨hf, hs⟩)) v
      (List.mem_of_getElem? hv)
  cases hf : (r.fields.zip items).findSome? fun p => complaint (p.1.codec.read p.2) with
  | none =>
    have hall {i : Nat} {k : String} {s : Shape} {v : Json} (hs : fields[i]? = some (k, s))
        (hv : items[i]? = some v) : Conforms s v := by
      obtain ⟨f, hz, hverdict⟩ := hplace hs hv
      rwa [List.findSome?_eq_none_iff.1 hf (f, v) (List.mem_of_getElem? hz)] at hverdict
    rw [Option.none_or, fields_length keys]
    by_cases hl : items.length ≤ fields.length
    · rw [if_pos hl]
      exact Conforms.array hl fun i k s v => hall
    · rw [if_neg hl]
      apply FirstOffence.of_own (.length (Nat.lt_of_not_le hl))
      intro t s' w hp
      cases hp with
      | element hs hv => exact hall hs hv
  | some e =>
    obtain ⟨i, ⟨f, w⟩, hi, he, hbefore⟩ := exists_index_of_findSome? hf
    obtain ⟨hfi, hwi⟩ := List.getElem?_zip_eq_some.1 hi
    have hlt : i < fields.length := by
      rw [← fields_length keys]
      exact (List.getElem?_eq_some_iff.1 hfi).1
    have hs : fields[i]? = some (fields[i].1, fields[i].2) := List.getElem?_eq_getElem hlt
    obtain ⟨g, hg, hw⟩ := hplace hs hwi
    rw [hi] at hg
    cases hg
    rw [he] at hw
    rw [Option.some_or]
    apply FirstOffence.of_part (.element hs hwi) hw
    intro t' s'' u hp
    cases hp with
    | @element _ _ _ j k _ _ hsj huj =>
      rcases Nat.lt_trichotomy j i with hji | rfl | hij
      · obtain ⟨g, hg, hu⟩ := hplace hsj huj
        rw [hbefore j (g, u) hji hg] at hu
        exact .inr (.inr hu)
      · rw [hwi] at huj
        rw [hs] at hsj
        cases hsj
        cases huj
        exact .inl ⟨rfl, rfl, rfl⟩
      · exact .inr (.inl (.index hij))

theorem Verdict.object {members : Members} (lawful : r.Lawful)
    (keys : r.fields.map Field.key = fields.map Prod.fst) (hk : Json.Ascending members)
    (h : ∀ p ∈ r.fields.zip fields, ∀ m ∈ members,
      Verdict p.2.2 m.2 (complaint (p.1.codec.read m.2))) :
    Verdict (.record r.name fields) (.obj members) (complaint (r.read (.obj members))) := by
  change Verdict _ _ (complaint (members.foldlM r.storeMember r.blank))
  rw [Schema.complaint_foldlM]
  have hfield {k : String} {s : Shape} {v : Json} (hs : (k, s) ∈ fields) (hv : (k, v) ∈ members) :
      ∃ f, r.field? k = some f ∧ Verdict s v (complaint (f.codec.read v)) := by
    obtain ⟨f, hf, hkey, hz⟩ := exists_field keys hs
    refine ⟨f, ?_, h _ hz _ hv⟩
    rw [← lawful.field?_key hf, hkey]
  cases hf : members.findSome? fun m =>
      (r.field? m.1).bind fun f => complaint (f.codec.read m.2) with
  | none =>
    apply Conforms.object
    intro k s v hs hv
    obtain ⟨f, hfk, hverdict⟩ := hfield hs hv
    have hn := List.findSome?_eq_none_iff.1 hf (k, v) hv
    simp only [hfk, Option.bind_some] at hn
    rwa [hn] at hverdict
  | some e =>
    obtain ⟨i, ⟨k, w⟩, hi, he, hbefore⟩ := exists_index_of_findSome? hf
    obtain ⟨f, hfk, he⟩ := Option.bind_eq_some_iff.1 he
    have hwm : (k, w) ∈ members := List.mem_of_getElem? hi
    have hkey : f.key = k := by simpa using List.find?_some hfk
    obtain ⟨s, hs, hz⟩ := exists_shape keys (List.mem_of_find?_eq_some hfk)
    rw [hkey] at hs hz
    have hw := h _ hz _ hwm
    rw [he] at hw
    apply FirstOffence.of_part (.member hs hwm) hw
    intro t' s'' u hp
    cases hp with
    | @member _ _ _ k' _ _ hs' hu =>
      obtain ⟨j, hj⟩ := List.mem_iff_getElem?.1 hu
      rcases Nat.lt_trichotomy j i with hji | rfl | hij
      · obtain ⟨g, hgk, hverdict⟩ := hfield hs' hu
        have hn := hbefore j (k', u) hji hj
        simp only [hgk, Option.bind_some] at hn
        rw [hn] at hverdict
        exact .inr (.inr hverdict)
      · rw [hi] at hj
        cases hj
        have hnodup : (fields.map Prod.fst).Nodup := by
          rw [← keys]
          exact lawful.distinct
        have heq := List.inj_on_of_nodup_map hnodup hs hs' rfl
        cases heq
        exact .inl ⟨rfl, rfl, rfl⟩
      · obtain ⟨hil, hie⟩ := List.getElem?_eq_some_iff.1 hi
        obtain ⟨hjl, hje⟩ := List.getElem?_eq_some_iff.1 hj
        have hlt := List.pairwise_iff_getElem.1 hk i j hil hjl hij
        rw [hie, hje] at hlt
        exact .inr (.inl (.key hlt))

/-- A codec finds nothing wrong with a value that has its shape, and with any other the first
offence. -/
theorem Codec.Reads.verdict {c : Codec α} {s : Shape} (h : c.Reads s) (v : Json)
    (hv : v.Arranged) : Verdict s v (complaint (c.read v)) := by
  induction h generalizing v with
  | u32 =>
    cases v with
    | num n =>
      cases n with
      | integer n =>
        by_cases hn : 0 ≤ n ∧ n ≤ 0xFFFFFFFF
        · simp only [Codec.u32, if_pos hn]
          exact Conforms.u32 (by omega)
        · simp only [Codec.u32, if_neg hn]
          apply FirstOffence.of_own (.range (by omega))
          intro t s' w hp
          cases hp
      | real => exact FirstOffence.of_kind rfl
    | _ => exact FirstOffence.of_kind rfl
  | text =>
    cases v with
    | str s => exact Conforms.text s
    | _ => exact FirstOffence.of_kind rfl
  | flag =>
    cases v with
    | bool b => exact Conforms.flag b
    | _ => exact FirstOffence.of_kind rfl
  | list _ ih =>
    cases v with
    | arr items =>
      cases hv with
      | arr hv => exact Verdict.list fun v hm => ih v (hv v hm)
    | _ => exact FirstOffence.of_kind rfl
  | @optional _ c s _ ih =>
    have hr := ih v hv
    rw [← complaint_map some] at hr
    cases v with
    | null => exact Conforms.absent s
    | _ => exact Verdict.optional rfl hr
  | through _ decode _ ih =>
    have hr := ih v hv
    rwa [← complaint_map decode] at hr
  | record lawful keys _ ih =>
    cases v with
    | obj members =>
      cases hv with
      | obj hk hv => exact Verdict.object lawful keys hk fun p hp m hm => ih p hp m.2 (hv m hm)
    | arr items =>
      cases hv with
      | arr hv => exact Verdict.array lawful keys fun p hp v hm => ih p hp v (hv v hm)
    | _ => exact FirstOffence.of_kind rfl

end Formers

theorem ofJson_verdict (v : Json) :
    Verdict moduleShape (normalizeKeys v) (complaint (Module.ofJson v)) :=
  moduleSchema_reads.verdict (normalizeKeys v) (normalizeKeys_arranged v)

/-- A value is read as a module exactly if it has the shape of one under normalized keys. A value
that is refused is refused for its first offence; an array that is too long for its record is the
reason only if the elements that stand for fields are all right. -/
theorem reading_reports_first_offence (v : Json) :
    ((∃ m, Module.ofJson v = .ok m) ↔ Conforms moduleShape (normalizeKeys v)) ∧
    (∀ e, Module.ofJson v = .error e ↔ FirstOffence moduleShape (normalizeKeys v) e) ∧
    ∀ n, Module.ofJson v = .error (.tooLong n) → ∃ p name fields items,
      Visits moduleShape (normalizeKeys v) p (.record name fields) (.arr items) ∧
      n = items.length ∧ fields.length < n ∧
      ∀ (i : Nat) k s w, fields[i]? = some (k, s) → items[i]? = some w → Conforms s w := by
  have hverdict := ofJson_verdict v
  cases hr : Module.ofJson v with
  | ok m =>
    rw [hr] at hverdict
    have hc : Conforms moduleShape (normalizeKeys v) := hverdict
    refine ⟨⟨fun _ => hc, fun _ => ⟨m, rfl⟩⟩, ?_, ?_⟩
    · intro e
      refine ⟨nofun, ?_⟩
      rintro ⟨p, hp, -⟩
      exact absurd hp (hc.not_offendsAt p e)
    · intro n h
      cases h
  | error e =>
    rw [hr] at hverdict
    have hf : FirstOffence moduleShape (normalizeKeys v) e := hverdict
    refine ⟨⟨?_, ?_⟩, ?_, ?_⟩
    · rintro ⟨m, h⟩
      cases h
    · intro hc
      obtain ⟨p, hp, -⟩ := hf
      exact absurd hp (hc.not_offendsAt p e)
    · intro e'
      refine ⟨?_, fun h => by rw [hf.unique h]⟩
      intro h
      cases h
      exact hf
    · intro n h
      cases h
      exact hf.tooLong

def overlongValue (kind : Json) : Json :=
  .obj [("Values", .arr [.arr [.num (.integer 1), .str "float4", kind, .null, .bool true]])]

theorem reading_reports_first_offence_overlongValue :
    FirstOffence moduleShape (normalizeKeys (overlongValue (.str "Temp"))) (.tooLong 5) ∧
      FirstOffence moduleShape (normalizeKeys (overlongValue (.bool false)))
        (.wrongType (.bool false) .text) ∧
      ∃ p name fields items,
        Visits moduleShape (normalizeKeys (overlongValue (.str "Temp"))) p (.record name fields)
          (.arr items) ∧ 5 = items.length ∧ fields.length < 5 ∧
        ∀ (i : Nat) k s w, fields[i]? = some (k, s) → items[i]? = some w → Conforms s w := by
  have hlong : Module.ofJson (overlongValue (.str "Temp")) = .error (.tooLong 5) := by
    decide +kernel
  have hkind : Module.ofJson (overlongValue (.bool false)) =
      .error (.wrongType (.bool false) .text) := by
    decide +kernel
  exact ⟨((reading_reports_first_offence _).2.1 _).1 hlong,
    ((reading_reports_first_offence _).2.1 _).1 hkind,
    (reading_reports_first_offence _).2.2 5 hlong⟩

end ShaderLegalizer.Wire
