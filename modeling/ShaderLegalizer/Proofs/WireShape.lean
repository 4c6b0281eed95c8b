import ShaderLegalizer.Proofs.ModuleRoundTrip

set_option autoImplicit false

namespace ShaderLegalizer.Wire

open Json (Members)

inductive Shape where
  | u32
  | text
  | flag
  | list (item : Shape)
  | optional (item : Shape)
  | record (name : String) (fields : List (String × Shape))

def diagnosticShape : Shape :=
  .record "IrDiagnostic" [("severity", .text), ("message", .text), ("stage", .text)]

def entryPointShape : Shape :=
  .record "IrEntryPoint" [("function", .text), ("stage", .text)]

def instructionShape : Shape :=
  .record "IrInstruction"
    [("op", .text), ("operands", .list .u32), ("result", .optional .u32),
     ("type", .optional .text), ("terminator", .flag), ("tag", .optional .text)]

def blockShape : Shape :=
  .record "IrBlock" [("id", .text), ("instructions", .list instructionShape)]

def functionShape : Shape :=
  .record "IrFunction"
    [("name", .text), ("returnType", .text), ("parameters", .list .u32),
     ("blocks", .list blockShape)]

def valueShape : Shape :=
  .record "IrValue" [("id", .u32), ("type", .text), ("kind", .text), ("semantic", .optional .text)]

def resourceShape : Shape :=
  .record "IrResource" [("name", .text), ("kind", .text), ("type", .text), ("writable", .flag)]

def moduleShape : Shape :=
  .record "IrModule"
    [("formatVersion", .optional .u32), ("profile", .optional .text),
     ("entryPoint", .optional entryPointShape), ("functions", .list functionShape),
     ("values", .list valueShape), ("resources", .list resourceShape),
     ("diagnostics", .list diagnosticShape)]

/-- A record is an object whose members are right as far as they are fields of it, or an array
without more elements than it has fields, each right for the field in its place. -/
inductive Conforms : Shape → Json → Prop where
  | u32 {n : Int} (h : 0 ≤ n ∧ n < 4294967296) : Conforms .u32 (.num (.integer n))
  | text (s : String) : Conforms .text (.str s)
  | flag (b : Bool) : Conforms .flag (.bool b)
  | list {s : Shape} {items : List Json} (h : ∀ v ∈ items, Conforms s v) :
      Conforms (.list s) (.arr items)
  | absent (s : Shape) : Conforms (.optional s) .null
  | present {s : Shape} {v : Json} (h : Conforms s v) : Conforms (.optional s) v
  | object {name : String} {fields : List (String × Shape)} {members : Members}
      (h : ∀ k s v, (k, s) ∈ fields → (k, v) ∈ members → Conforms s v) :
      Conforms (.record name fields) (.obj members)
  | array {name : String} {fields : List (String × Shape)} {items : List Json}
      (hl : items.length ≤ fields.length)
      (h : ∀ (i : Nat) k s v, fields[i]? = some (k, s) → items[i]? = some v → Conforms s v) :
      Conforms (.record name fields) (.arr items)

namespace Codec

/-- The codec is put together from its parts as the shape is. -/
inductive Reads : {α : Type} → Codec α → Shape → Prop where
  | u32 : Reads Codec.u32 .u32
  | text : Reads Codec.text .text
  | flag : Reads Codec.flag .flag
  | list {α : Type} {c : Codec α} {s : Shape} (h : Reads c s) : Reads (Codec.list c) (.list s)
  | optional {α : Type} {c : Codec α} {s : Shape} (h : Reads c s) :
      Reads (Codec.optional c) (.optional s)
  | through {α β : Type} {c : Codec α} {s : Shape} (h : Reads c s) (decode : α → β)
      (encode : β → α) : Reads (c.through decode encode) s
  | record {α : Type} {r : Schema α} {fields : List (String × Shape)} (lawful : r.Lawful)
      (keys : r.fields.map Field.key = fields.map Prod.fst)
      (h : ∀ p ∈ r.fields.zip fields, Reads p.1.codec p.2.2) :
      Reads r.codec (.record r.name fields)

end Codec

section Fields

variable {α : Type} {r : Schema α} {fields : List (String × Shape)}

theorem key_eq_of_getElem? (keys : r.fields.map Field.key = fields.map Prod.fst) {i : Nat}
    {f : Field α} {p : String × Shape} (hf : r.fields[i]? = some f) (hp : fields[i]? = some p) :
    f.key = p.1 := by
  have h : (r.fields.map Field.key)[i]? = (fields.map Prod.fst)[i]? := by rw [keys]
  rw [List.getElem?_map, List.getElem?_map, hf, hp] at h
  exact Option.some.inj h

theorem fields_length (keys : r.fields.map Field.key = fields.map Prod.fst) :
    r.fields.length = fields.length := by
  rw [← List.length_map Field.key, keys, List.length_map]

theorem exists_shape (keys : r.fields.map Field.key = fields.map Prod.fst) {f : Field α}
    (hf : f ∈ r.fields) : ∃ s, (f.key, s) ∈ fields ∧ (f, (f.key, s)) ∈ r.fields.zip fields := by
  obtain ⟨i, hi⟩ := List.mem_iff_getElem?.1 hf
  have hlt : i < fields.length := by
    rw [← fields_length keys]
    exact (List.getElem?_eq_some_iff.1 hi).1
  have hp : fields[i]? = some fields[i] := List.getElem?_eq_getElem hlt
  refine ⟨fields[i].2, ?_, ?_⟩
  · rw [key_eq_of_getElem? keys hi hp]
    exact List.mem_of_getElem? hp
  · rw [key_eq_of_getElem? keys hi hp]
    exact List.mem_of_getElem? (List.getElem?_zip_eq_some.2 ⟨hi, hp⟩)

theorem exists_field (keys : r.fields.map Field.key = fields.map Prod.fst) {p : String × Shape}
    (hp : p ∈ fields) : ∃ f ∈ r.fields, f.key = p.1 ∧ (f, p) ∈ r.fields.zip fields := by
  obtain ⟨i, hi⟩ := List.mem_iff_getElem?.1 hp
  have hlt : i < r.fields.length := by
    rw [fields_length keys]
    exact (List.getElem?_eq_some_iff.1 hi).1
  have hf : r.fields[i]? = some r.fields[i] := List.getElem?_eq_getElem hlt
  exact ⟨r.fields[i], List.mem_of_getElem? hf, key_eq_of_getElem? keys hf hi,
    List.mem_of_getElem? (List.getElem?_zip_eq_some.2 ⟨hf, hi⟩)⟩

end Fields

theorem diagnosticSchema_reads : diagnosticSchema.codec.Reads diagnosticShape := by
  apply Codec.Reads.record diagnosticSchema_lawful rfl
  simp only [diagnosticSchema, List.zip_cons_cons, List.zip_nil_left, List.forall_mem_cons]
  exact ⟨.through .text _ _, .text, .text, by simp⟩

theorem entryPointSchema_reads : entryPointSchema.codec.Reads entryPointShape := by
  apply Codec.Reads.record entryPointSchema_lawful rfl
  simp only [entryPointSchema, List.zip_cons_cons, List.zip_nil_left, List.forall_mem_cons]
  exact ⟨.text, .text, by simp⟩

theorem instructionSchema_reads : instructionSchema.codec.Reads instructionShape := by
  apply Codec.Reads.record instructionSchema_lawful rfl
  simp only [instructionSchema, List.zip_cons_cons, List.zip_nil_left, List.forall_mem_cons]
  exact ⟨.text, .list .u32, .optional .u32, .optional .text, .flag, .optional .text, by simp⟩

theorem blockSchema_reads : blockSchema.codec.Reads blockShape := by
  apply Codec.Reads.record blockSchema_lawful rfl
  simp only [blockSchema, List.zip_cons_cons, List.zip_nil_left, List.forall_mem_cons]
  exact ⟨.text, .list instructionSchema_reads, by simp⟩

theorem functionSchema_reads : functionSchema.codec.Reads functionShape := by
  apply Codec.Reads.record functionSchema_lawful rfl
  simp only [functionSchema, List.zip_cons_cons, List.zip_nil_left, List.forall_mem_cons]
  exact ⟨.text, .text, .list .u32, .list blockSchema_reads, by simp⟩

theorem valueSchema_reads : valueSchema.codec.Reads valueShape := by
  apply Codec.Reads.record valueSchema_lawful rfl
  simp only [valueSchema, List.zip_cons_cons, List.zip_nil_left, List.forall_mem_cons]
  exact ⟨.u32, .text, .text, .optional .text, by simp⟩

theorem resourceSchema_reads : resourceSchema.codec.Reads resourceShape := by
  apply Codec.Reads.record resourceSchema_lawful rfl
  simp only [resourceSchema, List.zip_cons_cons, List.zip_nil_left, List.forall_mem_cons]
  exact ⟨.text, .text, .text, .flag, by simp⟩

theorem moduleSchema_reads : moduleSchema.codec.Reads moduleShape := by
  apply Codec.Reads.record moduleSchema_lawful rfl
  simp only [moduleSchema, List.zip_cons_cons, List.zip_nil_left, List.forall_mem_cons]
  exact ⟨.optional .u32, .optional .text, .optional entryPointSchema_reads,
    .list functionSchema_reads, .list valueSchema_reads, .list resourceSchema_reads,
    .list diagnosticSchema_reads, by simp⟩

end ShaderLegalizer.Wire
