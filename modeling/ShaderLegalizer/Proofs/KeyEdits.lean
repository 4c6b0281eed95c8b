import Mathlib.Logic.Relation
import ShaderLegalizer.Proofs.JsonOrder
import ShaderLegalizer.Proofs.WireShape

set_option autoImplicit false

namespace ShaderLegalizer.Wire

open Json (Members)

/-- Whether the key is some spelling of a field's key. -/
def isFieldKey (key : String) : Bool :=
  fieldKeys.any (Text.sameName key)

theorem sameName_congr {k k' : String} (h : Text.sameName k k' = true) :
    Text.sameName k = Text.sameName k' := by
  funext t
  rw [Text.sameName, Text.sameName, (Text.sameName_iff k k').1 h]

theorem isFieldKey_congr {k k' : String} (h : Text.sameName k k' = true) :
    isFieldKey k = isFieldKey k' := by
  rw [isFieldKey, isFieldKey, sameName_congr h]

theorem canonicalKey_of_isFieldKey {k : String} (h : isFieldKey k = true) :
    canonicalKey k ∈ fieldKeys ∧ Text.sameName k (canonicalKey k) = true ∧
      fieldKeys.find? (Text.sameName k) = some (canonicalKey k) := by
  obtain ⟨c, hc⟩ := Option.isSome_iff_exists.1 (List.find?_isSome.2 (List.any_eq_true.1 h))
  have hk : canonicalKey k = c := by rw [canonicalKey, hc, Option.getD_some]
  rw [hk]
  exact ⟨List.mem_of_find?_eq_some hc, List.find?_some hc, hc⟩

theorem canonicalKey_congr {k k' : String} (h : Text.sameName k k' = true)
    (hk : isFieldKey k = true) : canonicalKey k = canonicalKey k' := by
  have hf := (canonicalKey_of_isFieldKey hk).2.2
  rw [sameName_congr h] at hf
  rw [canonicalKey.eq_def k', hf, Option.getD_some]

theorem canonicalKey_mem_iff (k : String) : canonicalKey k ∈ fieldKeys ↔ isFieldKey k = true := by
  refine ⟨?_, fun h => (canonicalKey_of_isFieldKey h).1⟩
  intro h
  by_contra hk
  have hn : fieldKeys.find? (Text.sameName k) = none := by
    rw [List.find?_eq_none]
    intro c hc hs
    exact hk (List.any_eq_true.2 ⟨c, hc, hs⟩)
  rw [canonicalKey, hn, Option.getD_none] at h
  exact hk (List.any_eq_true.2 ⟨k, h, (Text.sameName_iff k k).2 rfl⟩)

theorem sameName_of_canonicalKey_eq {k k' : String} (hk : isFieldKey k = true)
    (hk' : isFieldKey k' = true) (h : canonicalKey k = canonicalKey k') :
    Text.sameName k k' = true := by
  have hs := (Text.sameName_iff _ _).1 (canonicalKey_of_isFieldKey hk).2.1
  have hs' := (Text.sameName_iff _ _).1 (canonicalKey_of_isFieldKey hk').2.1
  rw [Text.sameName_iff, hs, h, hs']

mutual

def pruned : Json → Json
  | .null => .null
  | .bool b => .bool b
  | .num n => .num n
  | .str s => .str s
  | .arr items => .arr (prunedItems items)
  | .obj members => .obj (prunedMembers members)

def prunedItems : List Json → List Json
  | [] => []
  | v :: vs => pruned v :: prunedItems vs

def prunedMembers : List (String × Json) → List (String × Json)
  | [] => []
  | (k, v) :: ms =>
    if fieldKeys.contains k then (k, pruned v) :: prunedMembers ms else prunedMembers ms

end

theorem pruned_arr (items : List Json) : pruned (.arr items) = .arr (items.map pruned) := by
  rw [pruned]
  congr
  induction items with
  | nil => rfl
  | cons v vs ih => rw [prunedItems, ih, List.map_cons]

theorem pruned_obj (ms : Members) :
    pruned (.obj ms) =
      .obj ((ms.filter fun m => fieldKeys.contains m.1).map fun m => (m.1, pruned m.2)) := by
  rw [pruned]
  congr
  induction ms with
  | nil => rfl
  | cons m ms ih =>
    obtain ⟨k, v⟩ := m
    rw [prunedMembers, List.filter_cons, ih]
    split <;> rfl

section Reading

variable {α : Type} {s : Schema α}

/-- Each field reads a value and what is left of it alike. -/
def Schema.Prunable (s : Schema α) : Prop :=
  ∀ f ∈ s.fields, ∀ v, f.codec.read (pruned v) = f.codec.read v

theorem Field.store_pruned {f : Field α} (hf : ∀ v, f.codec.read (pruned v) = f.codec.read v)
    (v : Json) (a : α) : f.store (pruned v) a = f.store v a := by
  rw [Field.store, hf, Field.store]

theorem Schema.storeMember_pruned (hs : s.Prunable) (a : α) (k : String) (v : Json) :
    s.storeMember a (k, pruned v) = s.storeMember a (k, v) := by
  unfold storeMember
  cases hk : s.field? k with
  | none => rfl
  | some f => exact Field.store_pruned (hs f (List.mem_of_find?_eq_some hk)) v a

theorem Schema.Lawful.storeMember_of_not_mem (hs : s.Lawful) (a : α) {m : String × Json}
    (h : m.1 ∉ fieldKeys) : s.storeMember a m = .ok a := by
  have hn : s.field? m.1 = none := by
    rw [field?, List.find?_eq_none]
    intro f hf hk
    rw [beq_iff_eq] at hk
    rw [← hk] at h
    exact h (hs.known f hf)
  rw [storeMember, hn]

theorem Schema.Lawful.foldlM_pruned (hs : s.Lawful) (hp : s.Prunable) (ms : Members) (a : α) :
    ((ms.filter fun m => fieldKeys.contains m.1).map fun m => (m.1, pruned m.2)).foldlM
      s.storeMember a = ms.foldlM s.storeMember a := by
  induction ms generalizing a with
  | nil => rfl
  | cons m ms ih =>
    obtain ⟨k, v⟩ := m
    by_cases hk : k ∈ fieldKeys
    · rw [List.filter_cons_of_pos (by simpa using hk), List.map_cons, List.foldlM_cons,
        List.foldlM_cons, storeMember_pruned hp]
      congr
      funext b
      exact ih b
    · rw [List.filter_cons_of_neg (by simpa using hk), List.foldlM_cons,
        hs.storeMember_of_not_mem a hk, ih]
      rfl

theorem Schema.storeItems_pruned (fs : List (Field α))
    (hf : ∀ f ∈ fs, ∀ v, f.codec.read (pruned v) = f.codec.read v) (vs : List Json) (a : α) :
    storeItems fs (vs.map pruned) a =
      (storeItems fs vs a).map fun r => (r.1, r.2.map pruned) := by
  induction fs generalizing vs a with
  | nil => rfl
  | cons f fs ih =>
    cases vs with
    | nil => rfl
    | cons v vs =>
      have ih' := ih (fun g hg => hf g (List.mem_cons_of_mem f hg)) vs
      rw [List.map_cons, storeItems, storeItems, Field.store_pruned (hf f List.mem_cons_self)]
      cases f.store v a with
      | error e => rfl
      | ok b => exact ih' b

theorem Codec.Reads.read_pruned {c : Codec α} {s : Shape} (h : c.Reads s) (v : Json) :
    c.read (pruned v) = c.read v := by
  induction h generalizing v with
  | u32 => cases v <;> rfl
  | text => cases v <;> rfl
  | flag => cases v <;> rfl
  | @list _ c _ _ ih =>
    cases v with
    | arr items =>
      rw [pruned_arr]
      change (items.map pruned).mapM c.read = items.mapM c.read
      induction items with
      | nil => rfl
      | cons v vs ihs => rw [List.map_cons, List.mapM_cons, List.mapM_cons, ih, ihs]
    | _ => rfl
  | optional _ ih =>
    cases v with
    | null => rfl
    | arr items =>
      have h := ih (.arr items)
      rw [pruned_arr] at h ⊢
      exact congrArg (Except.map some) h
    | obj ms =>
      have h := ih (.obj ms)
      rw [pruned_obj] at h ⊢
      exact congrArg (Except.map some) h
    | _ => rfl
  | through _ decode _ ih => exact congrArg (Except.map decode) (ih v)
  | @record _ r fields lawful keys _ ih =>
    have hp : r.Prunable := by
      intro f hf
      obtain ⟨s, -, hz⟩ := exists_shape keys hf
      exact ih _ hz
    cases v with
    | obj ms =>
      rw [pruned_obj]
      exact lawful.foldlM_pruned hp ms r.blank
    | arr items =>
      rw [pruned_arr]
      change r.read (.arr (items.map pruned)) = r.read (.arr items)
      rw [Schema.read, Schema.read, Schema.storeItems_pruned r.fields hp, List.length_map]
      cases Schema.storeItems r.fields items r.blank with
      | error e => rfl
      | ok p =>
        obtain ⟨a, rest⟩ := p
        cases rest <;> rfl
    | _ => rfl

end Reading

/-- What the reader sees of a value. -/
def essence (v : Json) : Json :=
  pruned (normalizeKeys v)

theorem ofJson_essence (v : Json) : Module.ofJson v = moduleSchema.read (essence v) :=
  (moduleSchema_reads.read_pruned (normalizeKeys v)).symm

/-- A member as the reader sees it, unless it is null or of no field. -/
def essenceMember? (m : String × Json) : Option (String × Json) :=
  if m.2.isNull = false ∧ isFieldKey m.1 = true then some (canonicalKey m.1, essence m.2) else none

theorem essence_arr (items : List Json) : essence (.arr items) = .arr (items.map essence) := by
  rw [essence, normalizeKeys, normalizeItems_eq_map, pruned_arr, List.map_map]
  rfl

theorem essence_obj (ms : Members) :
    essence (.obj ms) = .obj (Json.collect (ms.filterMap essenceMember?)) := by
  have h : ((normalizeMembers ms).filter fun m => fieldKeys.contains m.1).map
      (fun m => (m.1, pruned m.2)) = ms.filterMap essenceMember? := by
    induction ms with
    | nil => rfl
    | cons m ms ih =>
      obtain ⟨k, v⟩ := m
      have hk : fieldKeys.contains (canonicalKey k) = isFieldKey k := by
        rw [Bool.eq_iff_iff, List.contains_iff_mem, canonicalKey_mem_iff]
      rw [normalizeMembers, List.filterMap_cons, essenceMember?]
      by_cases hv : v.isNull = true
      · rw [if_pos hv, if_neg (by simp [hv])]
        exact ih
      · rw [if_neg hv]
        simp only [List.filter_cons, hk]
        by_cases hf : isFieldKey k = true
        · rw [if_pos hf, if_pos ⟨eq_false_of_ne_true hv, hf⟩, List.map_cons, ih]
          rfl
        · rw [if_neg hf, if_neg fun h => hf h.2]
          exact ih
  rw [essence, normalizeKeys, pruned_obj, Json.collect_filter fun k => fieldKeys.contains k,
    Json.collect_map, h]

/-- No field is given by two members with a value. -/
def Unambiguous (ms : Members) : Prop :=
  ms.Pairwise fun m n => m.2.isNull = false → n.2.isNull = false → isFieldKey m.1 = true →
    Text.sameName m.1 n.1 = false

/-- One edit in one object, at any depth. A member under another spelling of its key may go to
another place, since members stand in the order of their keys. Where two members with a value spell
one field that order decides between them, so keys are not recased there. -/
inductive Edit : Json → Json → Prop where
  | recase {before after ms : Members} {k k' : String} {v : Json}
      (hk : Text.sameName k k' = true) (hu : Unambiguous (before ++ (k, v) :: after))
      (hp : ms.Perm (before ++ (k', v) :: after)) :
      Edit (.obj (before ++ (k, v) :: after)) (.obj ms)
  | addNull (before after : Members) (k : String) :
      Edit (.obj (before ++ after)) (.obj (before ++ (k, .null) :: after))
  | addUnknown (before after : Members) {k : String} (v : Json) (hk : isFieldKey k = false) :
      Edit (.obj (before ++ after)) (.obj (before ++ (k, v) :: after))
  | item {before after : List Json} {v w : Json} (h : Edit v w) :
      Edit (.arr (before ++ v :: after)) (.arr (before ++ w :: after))
  | member {before after : Members} {k : String} {v w : Json} (h : Edit v w) :
      Edit (.obj (before ++ (k, v) :: after)) (.obj (before ++ (k, w) :: after))

theorem essenceMember?_recase {k k' : String} (h : Text.sameName k k' = true) (v : Json) :
    essenceMember? (k, v) = essenceMember? (k', v) := by
  rw [essenceMember?, essenceMember?, ← isFieldKey_congr h]
  split
  · next hv => rw [canonicalKey_congr h hv.2]
  · rfl

theorem Unambiguous.nodup {ms : Members} (h : Unambiguous ms) :
    ((ms.filterMap essenceMember?).map Prod.fst).Nodup := by
  rw [List.Nodup, List.pairwise_map, List.pairwise_filterMap]
  apply h.imp
  intro m n hmn a ha b hb hab
  unfold essenceMember? at ha hb
  split at ha
  · next hm =>
    split at hb
    · next hn =>
      cases ha
      cases hb
      have hs := sameName_of_canonicalKey_eq hm.2 hn.2 hab
      rw [hmn hm.1 hn.1 hm.2] at hs
      cases hs
    · cases hb
  · cases ha

theorem Edit.isNull {v w : Json} (h : Edit v w) : v.isNull = w.isNull := by
  cases h <;> rfl

theorem Edit.essence_eq {v w : Json} (h : Edit v w) : essence v = essence w := by
  induction h with
  | @recase before after ms k k' v hk hu hp =>
    have hl : (before ++ (k, v) :: after).filterMap essenceMember? =
        (before ++ (k', v) :: after).filterMap essenceMember? := by
      rw [List.filterMap_append, List.filterMap_append, List.filterMap_cons, List.filterMap_cons,
        essenceMember?_recase hk]
    rw [essence_obj, essence_obj]
    congr 1
    apply Json.collect_eq_of_perm ?_ hu.nodup
    rw [hl]
    exact (hp.filterMap essenceMember?).symm
  | addNull before after k =>
    rw [essence_obj, essence_obj, List.filterMap_append, List.filterMap_append,
      List.filterMap_cons]
    rfl
  | @addUnknown before after k v hk =>
    have hn : essenceMember? (k, v) = none := by simp [essenceMember?, hk]
    rw [essence_obj, essence_obj, List.filterMap_append, List.filterMap_append,
      List.filterMap_cons, hn]
  | item _ ih =>
    rw [essence_arr, essence_arr, List.map_append, List.map_append, List.map_cons, List.map_cons,
      ih]
  | @member before after k v w h ih =>
    have hm : essenceMember? (k, v) = essenceMember? (k, w) := by
      rw [essenceMember?, essenceMember?, h.isNull, ih]
    rw [essence_obj, essence_obj, List.filterMap_append, List.filterMap_append,
      List.filterMap_cons, List.filterMap_cons, hm]

/-- However the keys of a value are cased, and whatever null members and members of no field are
put in or left out, it is read as the same module or refused for the same reason. -/
theorem reading_ignores_edits {v w : Json} (h : Relation.EqvGen Edit v w) :
    Module.ofJson v = Module.ofJson w := by
  have he : essence v = essence w := by
    induction h with
    | rel _ _ h => exact h.essence_eq
    | refl _ => rfl
    | symm _ _ _ ih => exact ih.symm
    | trans _ _ _ _ _ ih ih' => exact ih.trans ih'
  rw [ofJson_essence, ofJson_essence, he]

def oddlySpelled (id : Int) : Json :=
  .obj [("PROFILE", .str "sm2"),
    ("Values", .arr [.obj [("ID", .num (.integer id)), ("note", .bool true)]])]

def plainlySpelled (id : Int) : Json :=
  .obj [("profile", .str "sm2"), ("tag", .null),
    ("values", .arr [.obj [("id", .num (.integer id))]])]

theorem plainlySpelled_of_oddlySpelled (id : Int) :
    Relation.EqvGen Edit (oddlySpelled id) (plainlySpelled id) := by
  have hn (k k' : String) (h : Text.sameName k k' = false) (v w : Json) :
      Unambiguous [(k, v), (k', w)] := List.pairwise_pair.2 fun _ _ _ => h
  have hprofile (w : Json) : Edit (.obj [("PROFILE", .str "sm2"), ("Values", w)])
      (.obj [("Values", w), ("profile", .str "sm2")]) :=
    @Edit.recase [] [("Values", w)] _ "PROFILE" "profile" _ (by decide) (hn _ _ (by decide) _ _)
      (.swap _ _ _)
  have hvalues (w : Json) : Edit (.obj [("Values", w), ("profile", .str "sm2")])
      (.obj [("profile", .str "sm2"), ("values", w)]) :=
    @Edit.recase [] [("profile", .str "sm2")] _ "Values" "values" w (by decide)
      (hn _ _ (by decide) _ _) (.swap _ _ _)
  have htag (w : Json) : Edit (.obj [("profile", .str "sm2"), ("values", w)])
      (.obj [("profile", .str "sm2"), ("tag", .null), ("values", w)]) :=
    .addNull [("profile", .str "sm2")] [("values", w)] "tag"
  have hinside {v w : Json} (h : Edit v w) :
      Edit (.obj [("profile", .str "sm2"), ("tag", .null), ("values", .arr [v])])
        (.obj [("profile", .str "sm2"), ("tag", .null), ("values", .arr [w])]) :=
    @Edit.member [("profile", .str "sm2"), ("tag", .null)] [] "values" _ _
      (@Edit.item [] [] _ _ h)
  have hid (n w : Json) : Edit (.obj [("ID", n), ("note", w)]) (.obj [("id", n), ("note", w)]) :=
    @Edit.recase [] [("note", w)] _ "ID" "id" n (by decide) (hn _ _ (by decide) _ _) (.refl _)
  have hnote (n w : Json) : Edit (.obj [("id", n)]) (.obj [("id", n), ("note", w)]) :=
    .addUnknown [("id", n)] [] w (by decide)
  exact .trans _ _ _ (.rel _ _ (hprofile _)) (.trans _ _ _ (.rel _ _ (hvalues _))
    (.trans _ _ _ (.rel _ _ (htag _)) (.trans _ _ _ (.rel _ _ (hinside (hid _ _)))
      (.symm _ _ (.rel _ _ (hinside (hnote _ _)))))))

theorem reading_ignores_edits_oddlySpelled :
    Module.ofJson (oddlySpelled 7) = .ok { profile := some "sm2", values := [{ id := 7 }] } ∧
      Module.ofJson (oddlySpelled 7) = Module.ofJson (plainlySpelled 7) ∧
      Module.ofJson (oddlySpelled (-1)) = .error (.outOfRange (-1)) ∧
      Module.ofJson (oddlySpelled (-1)) = Module.ofJson (plainlySpelled (-1)) :=
  ⟨by decide +kernel, reading_ignores_edits (plainlySpelled_of_oddlySpelled 7), by decide +kernel,
    reading_ignores_edits (plainlySpelled_of_oddlySpelled (-1))⟩

end ShaderLegalizer.Wire
