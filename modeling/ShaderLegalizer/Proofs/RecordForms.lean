import Mathlib.Data.List.Forall2
import ShaderLegalizer.Proofs.JsonOrder
import ShaderLegalizer.Proofs.ModuleRoundTrip

set_option autoImplicit false

namespace ShaderLegalizer.Wire

open Json (Members)

/-- Which values stand for which data. -/
abbrev Form (α : Type) := α → Json → Prop

/-- A field of a record: its key, the values that stand for it, and when it may be left out. -/
structure Slot (α : Type) where
  key : String
  form : Form α
  omissible : α → Prop

def Slot.of {α β : Type} (key : String) (F : Form β) (default : β) (get : α → β) : Slot α where
  key := key
  form a v := F (get a) v
  omissible a := get a = default

namespace Form

variable {α : Type}

def u32 : Form UInt32 := fun n v => v = .num (.integer n.toNat)

def text : Form String := fun s v => v = .str s

def flag : Form Bool := fun b v => v = .bool b

def severity : Form Severity := fun s v => v = .str s.name

def list (F : Form α) : Form (List α) :=
  fun as v => ∃ items, v = .arr items ∧ List.Forall₂ F as items

def optional (F : Form α) : Form (Option α)
  | none, v => v = .null
  | some a, v => F a v

/-- Elements for the first fields, in declaration order, and defaults in the others. -/
inductive Row (a : α) : List (Slot α) → List Json → Prop where
  | done {slots : List (Slot α)} (h : ∀ s ∈ slots, s.omissible a) : Row a slots []
  | next {s : Slot α} {slots : List (Slot α)} {v : Json} {vs : List Json} (h : s.form a v)
      (hrest : Row a slots vs) : Row a (s :: slots) (v :: vs)

theorem Row.length_le {a : α} {slots : List (Slot α)} {vs : List Json} (h : Row a slots vs) :
    vs.length ≤ slots.length := by
  induction h with
  | done => exact Nat.zero_le _
  | next _ _ ih => exact Nat.succ_le_succ ih

inductive record (slots : List (Slot α)) (a : α) : Json → Prop where
  | object {members : Members}
      (held : ∀ m ∈ members, ∃ s ∈ slots, s.key = m.1 ∧ s.form a m.2)
      (omitted : ∀ s ∈ slots, s.key ∉ members.map Prod.fst → s.omissible a) :
      record slots a (.obj members)
  | array {items : List Json} (h : Row a slots items) : record slots a (.arr items)

end Form

def diagnosticForm : Form Diagnostic :=
  .record
    [.of "severity" .severity .info (·.severity), .of "message" .text "" (·.message),
     .of "stage" .text "" (·.stage)]

def entryPointForm : Form EntryPoint :=
  .record [.of "function" .text "" (·.function), .of "stage" .text "" (·.stage)]

def instructionForm : Form Instruction :=
  .record
    [.of "op" .text "" (·.op), .of "operands" (.list .u32) [] (·.operands),
     .of "result" (.optional .u32) none (·.result), .of "type" (.optional .text) none (·.type),
     .of "terminator" .flag false (·.terminator), .of "tag" (.optional .text) none (·.tag)]

def blockForm : Form Block :=
  .record
    [.of "id" .text "" (·.id), .of "instructions" (.list instructionForm) [] (·.instructions)]

def functionForm : Form Function :=
  .record
    [.of "name" .text "" (·.name), .of "returnType" .text "" (·.returnType),
     .of "parameters" (.list .u32) [] (·.parameters), .of "blocks" (.list blockForm) [] (·.blocks)]

def valueForm : Form Value :=
  .record
    [.of "id" .u32 0 (·.id), .of "type" .text "" (·.type), .of "kind" .text "" (·.kind),
     .of "semantic" (.optional .text) none (·.semantic)]

def resourceForm : Form Resource :=
  .record
    [.of "name" .text "" (·.name), .of "kind" .text "" (·.kind), .of "type" .text "" (·.type),
     .of "writable" .flag false (·.writable)]

def moduleForm : Form Module :=
  .record
    [.of "formatVersion" (.optional .u32) none (·.formatVersion),
     .of "profile" (.optional .text) none (·.profile),
     .of "entryPoint" (.optional entryPointForm) none (·.entryPoint),
     .of "functions" (.list functionForm) [] (·.functions),
     .of "values" (.list valueForm) [] (·.values),
     .of "resources" (.list resourceForm) [] (·.resources),
     .of "diagnostics" (.list diagnosticForm) [] (·.diagnostics)]

namespace Codec

variable {α : Type}

/-- Every value that stands for the datum is read as it, and none of them is null. -/
def Understood (c : Codec α) (F : Form α) (a : α) : Prop :=
  ∀ v, F a v → v.isNull = false ∧ c.read (normalizeKeys v) = .ok a

theorem u32_understood (n : UInt32) : u32.Understood .u32 n := by
  rintro v rfl
  exact u32_readsBack n

theorem text_understood (s : String) : text.Understood .text s := by
  rintro v rfl
  exact text_readsBack s

theorem flag_understood (b : Bool) : flag.Understood .flag b := by
  rintro v rfl
  exact flag_readsBack b

theorem severity_understood (s : Severity) (hs : s.canonical = s) :
    severityCodec.Understood .severity s := by
  rintro v rfl
  have h := severityCodec_readsBack s
  rw [hs] at h
  exact h

theorem list_understood {c : Codec α} {F : Form α} {as : List α}
    (h : ∀ a ∈ as, c.Understood F a) : (list c).Understood (.list F) as := by
  rintro v ⟨items, rfl, hitems⟩
  refine ⟨rfl, ?_⟩
  rw [normalizeKeys, normalizeItems_eq_map]
  change (items.map normalizeKeys).mapM c.read = .ok as
  induction hitems with
  | nil => rfl
  | @cons a v as items hv _ ih =>
    obtain ⟨ha, has⟩ := List.forall_mem_cons.1 h
    rw [List.map_cons, List.mapM_cons, (ha v hv).2, ih has]
    rfl

theorem optional_read {c : Codec α} {v : Json} {a : α} (hv : v.isNull = false)
    (h : c.read (normalizeKeys v) = .ok a) :
    (optional c).read (normalizeKeys v) = .ok (some a) := by
  have hmap : (optional c).read (normalizeKeys v) = (c.read (normalizeKeys v)).map some := by
    cases v with
    | null => cases hv
    | _ => rfl
  rw [hmap, h]
  rfl

end Codec

theorem exists_mem_of_forall₂ {α β : Type*} {R : α → β → Prop} {as : List α} {bs : List β}
    (h : List.Forall₂ R as bs) : ∀ a ∈ as, ∃ b ∈ bs, R a b := by
  induction h with
  | nil => simp
  | @cons a b as bs hab _ ih =>
    refine List.forall_mem_cons.2 ⟨⟨b, List.mem_cons_self, hab⟩, ?_⟩
    intro c hc
    obtain ⟨d, hd, hcd⟩ := ih c hc
    exact ⟨d, List.mem_cons_of_mem b hd, hcd⟩

namespace Schema

variable {α : Type}

/-- The field reads what the slot admits. Null members do not reach the field, so null may only
stand for what the blank record has, as may nothing at all. -/
structure Serves (s : Schema α) (a : α) (f : Field α) (slot : Slot α) : Prop where
  key : f.key = slot.key
  read : ∀ v, slot.form a v → f.codec.read (normalizeKeys v) = .ok (f.get a)
  null : slot.form a .null → f.get s.blank = f.get a
  omitted : slot.omissible a → f.get s.blank = f.get a

section Slots

variable {s : Schema α} {a : α} {β : Type} {key : String} {c : Codec β} {F : Form β}

theorem serves_of_understood {get : α → β} {set : β → α → α} {default : β}
    (h : c.Understood F (get a)) (hblank : get s.blank = default) :
    s.Serves a ⟨key, c, get, set⟩ (.of key F default get) where
  key := rfl
  read v hv := (h v hv).2
  null hv := by cases (h _ hv).1
  omitted ho := hblank.trans ho.symm

theorem serves_of_optional {get : α → Option β} {set : Option β → α → α}
    (h : ∀ b, c.Understood F b) (hblank : get s.blank = none) :
    s.Serves a ⟨key, .optional c, get, set⟩ (.of key F.optional none get) where
  key := rfl
  read v hv := by
    change F.optional (get a) v at hv
    change (Codec.optional c).read (normalizeKeys v) = .ok (get a)
    cases hb : get a with
    | none =>
      rw [hb] at hv
      cases hv
      rfl
    | some b =>
      rw [hb] at hv
      exact Codec.optional_read (h b v hv).1 (h b v hv).2
  null hv := by
    change F.optional (get a) .null at hv
    cases hb : get a with
    | none => exact hblank.trans hb.symm
    | some b =>
      rw [hb] at hv
      cases (h b _ hv).1
  omitted ho := hblank.trans ho.symm

end Slots

section Rows

variable {s : Schema α} {a : α} {fs : List (Field α)} {slots : List (Slot α)} {vs : List Json}

theorem read_of_row (h : Form.Row a slots vs) (hfs : List.Forall₂ (s.Serves a) fs slots) :
    ∀ p ∈ fs.zip (vs.map normalizeKeys), p.1.codec.read p.2 = .ok (p.1.get a) := by
  induction h generalizing fs with
  | done => simp
  | next hv _ ih =>
    cases hfs with
    | cons hf hfs => exact List.forall_mem_cons.2 ⟨hf.read _ hv, ih hfs⟩

theorem blank_of_row (h : Form.Row a slots vs) (hfs : List.Forall₂ (s.Serves a) fs slots) :
    ∀ f ∈ fs, f.key ∉ ((fs.zip (vs.map normalizeKeys)).map fun p => p.1.key) →
      f.get s.blank = f.get a := by
  induction h generalizing fs with
  | done ho =>
    intro f hf _
    obtain ⟨slot, hslot, hserves⟩ := exists_mem_of_forall₂ hfs f hf
    exact hserves.omitted (ho slot hslot)
  | next _ _ ih =>
    cases hfs with
    | cons _ hfs =>
      intro g hg hkey
      rw [List.map_cons, List.zip_cons_cons, List.map_cons, List.mem_cons, not_or] at hkey
      rcases List.mem_cons.1 hg with rfl | hg
      · exact absurd rfl hkey.1
      · exact ih hfs g hg hkey.2

end Rows

section Records

variable {s : Schema α} {a : α} {slots : List (Slot α)}

theorem Lawful.read_array (hs : s.Lawful) (hslots : List.Forall₂ (s.Serves a) s.fields slots)
    {items : List Json} (h : Form.Row a slots items) :
    s.read (.arr (items.map normalizeKeys)) = .ok a := by
  have hstored : ((s.fields.zip (items.map normalizeKeys)).map fun p => (p.1.key, p.2)).foldlM
      s.storeMember s.blank = .ok a := by
    apply hs.foldlM_storeMember
    · intro m hm
      obtain ⟨⟨f, v⟩, hp, rfl⟩ := List.mem_map.1 hm
      exact ⟨f, (List.of_mem_zip hp).1, rfl, read_of_row h hslots _ hp⟩
    · intro f hf hkey
      rw [List.map_map] at hkey
      exact blank_of_row h hslots f hf hkey
  have hrest : (items.map normalizeKeys).drop s.fields.length = [] := by
    rw [List.drop_eq_nil_iff, List.length_map, hslots.length_eq]
    exact h.length_le
  rw [Schema.read, hs.storeItems_eq s.fields (fun _ hf => hf), hstored, hrest]
  rfl

theorem Lawful.read_object (hs : s.Lawful) (hslots : List.Forall₂ (s.Serves a) s.fields slots)
    {members : Members} (held : ∀ m ∈ members, ∃ t ∈ slots, t.key = m.1 ∧ t.form a m.2)
    (omitted : ∀ t ∈ slots, t.key ∉ members.map Prod.fst → t.omissible a) :
    s.read (.obj (Json.collect (normalizeMembers members))) = .ok a := by
  have hfield : ∀ m ∈ members, ∃ f ∈ s.fields, f.key = m.1 ∧ canonicalKey m.1 = m.1 ∧
      f.codec.read (normalizeKeys m.2) = .ok (f.get a) ∧
      (m.2.isNull = true → f.get s.blank = f.get a) := by
    intro m hm
    obtain ⟨t, ht, hkey, hform⟩ := held m hm
    obtain ⟨f, hf, hserves⟩ := exists_mem_of_forall₂ hslots.flip t ht
    have hfk : f.key = m.1 := hserves.key.trans hkey
    refine ⟨f, hf, hfk, ?_, hserves.read _ hform, ?_⟩
    · rw [← hfk]
      exact canonicalKey_of_mem _ (hs.known f hf)
    · intro hn
      apply hserves.null
      cases hv : m.2 with
      | null => rwa [hv] at hform
      | _ =>
        rw [hv] at hn
        cases hn
  apply hs.foldlM_storeMember
  · intro m hm
    obtain ⟨n, hn, -, rfl⟩ := (mem_normalizeMembers_iff members m).1 (Json.mem_collect hm)
    obtain ⟨f, hf, hkey, hcanon, hread, -⟩ := hfield n hn
    exact ⟨f, hf, hkey.trans hcanon.symm, hread⟩
  · intro f hf hkey
    by_cases hmem : f.key ∈ members.map Prod.fst
    · -- the member was there but null, or it would still be there
      obtain ⟨m, hm, hmk⟩ := List.mem_map.1 hmem
      obtain ⟨g, hg, hgk, hcanon, -, hnull⟩ := hfield m hm
      cases hs.eq_of_key hg hf (hgk.trans hmk)
      apply hnull
      by_contra hn
      apply hkey
      rw [Json.mem_keys_collect, hgk, ← hcanon]
      exact List.mem_map_of_mem
        ((mem_normalizeMembers_iff members _).2 ⟨m, hm, eq_false_of_ne_true hn, rfl⟩)
    · obtain ⟨t, ht, hserves⟩ := exists_mem_of_forall₂ hslots f hf
      apply hserves.omitted
      apply omitted t ht
      rwa [← hserves.key]

theorem Lawful.understood (hs : s.Lawful) (hslots : List.Forall₂ (s.Serves a) s.fields slots) :
    s.codec.Understood (.record slots) a := by
  intro v hv
  cases hv with
  | object held omitted => exact ⟨rfl, hs.read_object hslots held omitted⟩
  | array h =>
    refine ⟨rfl, ?_⟩
    rw [normalizeKeys, normalizeItems_eq_map]
    exact hs.read_array hslots h

end Records

end Schema

open Codec Schema

theorem diagnosticSchema_understood (d : Diagnostic) (hd : d.severity.canonical = d.severity) :
    diagnosticSchema.codec.Understood diagnosticForm d := by
  apply diagnosticSchema_lawful.understood
  exact .cons (serves_of_understood (severity_understood _ hd) rfl)
    (.cons (serves_of_understood (text_understood _) rfl)
    (.cons (serves_of_understood (text_understood _) rfl) .nil))

theorem entryPointSchema_understood (e : EntryPoint) :
    entryPointSchema.codec.Understood entryPointForm e := by
  apply entryPointSchema_lawful.understood
  exact .cons (serves_of_understood (text_understood _) rfl)
    (.cons (serves_of_understood (text_understood _) rfl) .nil)

theorem instructionSchema_understood (i : Instruction) :
    instructionSchema.codec.Understood instructionForm i := by
  apply instructionSchema_lawful.understood
  exact .cons (serves_of_understood (text_understood _) rfl)
    (.cons (serves_of_understood (list_understood fun _ _ => u32_understood _) rfl)
    (.cons (serves_of_optional u32_understood rfl)
    (.cons (serves_of_optional text_understood rfl)
    (.cons (serves_of_understood (flag_understood _) rfl)
    (.cons (serves_of_optional text_understood rfl) .nil)))))

theorem blockSchema_understood (b : Block) : blockSchema.codec.Understood blockForm b := by
  apply blockSchema_lawful.understood
  exact .cons (serves_of_understood (text_understood _) rfl)
    (.cons (serves_of_understood
      (list_understood fun i _ => instructionSchema_understood i) rfl) .nil)

theorem functionSchema_understood (f : Function) :
    functionSchema.codec.Understood functionForm f := by
  apply functionSchema_lawful.understood
  exact .cons (serves_of_understood (text_understood _) rfl)
    (.cons (serves_of_understood (text_understood _) rfl)
    (.cons (serves_of_understood (list_understood fun _ _ => u32_understood _) rfl)
    (.cons (serves_of_understood (list_understood fun b _ => blockSchema_understood b) rfl)
      .nil)))

theorem valueSchema_understood (v : Value) : valueSchema.codec.Understood valueForm v := by
  apply valueSchema_lawful.understood
  exact .cons (serves_of_understood (u32_understood _) rfl)
    (.cons (serves_of_understood (text_understood _) rfl)
    (.cons (serves_of_understood (text_understood _) rfl)
    (.cons (serves_of_optional text_understood rfl) .nil)))

theorem resourceSchema_understood (r : Resource) :
    resourceSchema.codec.Understood resourceForm r := by
  apply resourceSchema_lawful.understood
  exact .cons (serves_of_understood (text_understood _) rfl)
    (.cons (serves_of_understood (text_understood _) rfl)
    (.cons (serves_of_understood (text_understood _) rfl)
    (.cons (serves_of_understood (flag_understood _) rfl) .nil)))

theorem moduleSchema_understood (m : Module)
    (hm : ∀ d ∈ m.diagnostics, d.severity.canonical = d.severity) :
    moduleSchema.codec.Understood moduleForm m := by
  apply moduleSchema_lawful.understood
  exact .cons (serves_of_optional u32_understood rfl)
    (.cons (serves_of_optional text_understood rfl)
    (.cons (serves_of_optional entryPointSchema_understood rfl)
    (.cons (serves_of_understood (list_understood fun f _ => functionSchema_understood f) rfl)
    (.cons (serves_of_understood (list_understood fun v _ => valueSchema_understood v) rfl)
    (.cons (serves_of_understood (list_understood fun r _ => resourceSchema_understood r) rfl)
    (.cons (serves_of_understood
      (list_understood fun d hd => diagnosticSchema_understood d (hm d hd)) rfl) .nil))))))

/-- Whatever form is chosen for each record of a module that has been read, the value is read as
that module. -/
theorem record_forms_agree {t : String} {m : Module} {v : Json} (ht : Module.ofText t = .ok m)
    (hv : moduleForm m v) : Module.ofJson v = .ok m := by
  have hd : m.diagnostics.map Diagnostic.canonical = m.diagnostics.map id := by
    rw [List.map_id]
    exact congrArg Module.diagnostics (Module.canonical_of_ofText t m ht)
  have hsev : ∀ d ∈ m.diagnostics, d.severity.canonical = d.severity :=
    fun d hm => congrArg Diagnostic.severity (List.map_inj_left.1 hd d hm)
  exact (moduleSchema_understood m hsev v hv).2

def mixedModule : Module where
  profile := some "ps_2_0"
  entryPoint := some { function := "main", stage := "ps" }
  functions :=
    [{ name := "main", returnType := "void"
       blocks := [{ id := "a", instructions := [{ op := "Return", terminator := true }] }] }]
  values := [{ id := 1, type := "bool" }]
  diagnostics := [{ severity := .error, message := "late" }]

def mixedForms : Json :=
  .arr
    [.null, .str "ps_2_0", .obj [("stage", .str "ps"), ("function", .str "main")],
     .arr
      [.arr
        [.str "main", .str "void", .arr [],
         .arr
          [.obj
            [("instructions", .arr [.arr [.str "Return", .arr [], .null, .null, .bool true]]),
             ("id", .str "a")]]]],
     .arr [.obj [("id", .num (.integer 1)), ("type", .str "bool"), ("semantic", .null)]],
     .arr [], .arr [.arr [.str "Error", .str "late"]]]

theorem mixedForms_form : moduleForm mixedModule mixedForms := by
  have hentry : entryPointForm { function := "main", stage := "ps" }
      (.obj [("stage", .str "ps"), ("function", .str "main")]) :=
    .object (by simp [Slot.of, Form.text]) (by simp [Slot.of])
  have hinstruction : instructionForm { op := "Return", terminator := true }
      (.arr [.str "Return", .arr [], .null, .null, .bool true]) :=
    .array (.next rfl (.next ⟨_, rfl, .nil⟩ (.next rfl (.next rfl (.next rfl
      (.done (by simp [Slot.of])))))))
  have hblock : blockForm { id := "a", instructions := [{ op := "Return", terminator := true }] }
      (.obj [("instructions", .arr [.arr [.str "Return", .arr [], .null, .null, .bool true]]),
        ("id", .str "a")]) :=
    .object (by simp [Slot.of, Form.text, Form.list, hinstruction]) (by simp [Slot.of])
  have hvalue : valueForm { id := 1, type := "bool" }
      (.obj [("id", .num (.integer 1)), ("type", .str "bool"), ("semantic", .null)]) :=
    .object (by simp [Slot.of, Form.text, Form.u32, Form.optional]) (by simp [Slot.of])
  have hdiagnostic : diagnosticForm { severity := .error, message := "late" }
      (.arr [.str "Error", .str "late"]) :=
    .array (.next rfl (.next rfl (.done (by simp [Slot.of]))))
  have hfunctions : Form.list functionForm mixedModule.functions _ :=
    ⟨_, rfl, .cons (.array (.next rfl (.next rfl (.next ⟨_, rfl, .nil⟩
      (.next ⟨_, rfl, .cons hblock .nil⟩ (.done (by simp))))))) .nil⟩
  exact .array (.next rfl (.next rfl (.next hentry (.next hfunctions
    (.next ⟨_, rfl, .cons hvalue .nil⟩ (.next ⟨_, rfl, .nil⟩
    (.next ⟨_, rfl, .cons hdiagnostic .nil⟩ (.done (by simp)))))))))

theorem record_forms_agree_mixedForms :
    moduleForm mixedModule mixedForms ∧ Module.ofJson mixedForms = .ok mixedModule := by
  have ht : Module.ofText mixedModule.toText = .ok mixedModule := Module.ofText_toText mixedModule
  exact ⟨mixedForms_form, record_forms_agree ht mixedForms_form⟩

end ShaderLegalizer.Wire
