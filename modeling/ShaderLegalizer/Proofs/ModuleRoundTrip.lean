import ShaderLegalizer.Proofs.SchemaRoundTrip
import ShaderLegalizer.Wire.ModuleText

set_option autoImplicit false

namespace ShaderLegalizer

/-- The known severity that the text of an unknown one spells, if it does. -/
def Severity.canonical : Severity → Severity
  | .other s => (ofName? s).getD (.other s)
  | s => s

def Diagnostic.canonical (d : Diagnostic) : Diagnostic :=
  { d with severity := d.severity.canonical }

def Module.canonical (m : Module) : Module :=
  m.withDiagnostics (m.diagnostics.map Diagnostic.canonical)

theorem Severity.ofName_name (s : Severity) : ofName s.name = s.canonical := by
  cases s with
  | info => decide
  | warning => decide
  | error => decide
  | other s => rfl

theorem Severity.ofName?_known (s : String) (k : Severity) (h : ofName? s = some k) :
    k.canonical = k := by
  unfold ofName? at h
  simp only at h
  split_ifs at h <;> cases h <;> rfl

theorem Severity.canonical_ofName (s : String) : (ofName s).canonical = ofName s := by
  unfold ofName
  cases h : ofName? s with
  | none => simp [canonical, h]
  | some k => exact ofName?_known s k h

namespace Wire

open Codec

theorem severityCodec_readsBack : severityCodec.ReadsBack Severity.canonical := by
  have h := Codec.through_readsBack Codec.text_readsBack Severity.ofName Severity.name
  simp only [Severity.ofName_name] at h
  exact h

theorem diagnosticSchema_lawful : diagnosticSchema.Lawful where
  distinct := by decide
  known := by decide
  get_set := by simp [diagnosticSchema]
  get_set_ne := by simp [diagnosticSchema]
  ext := Schema.ext_of_rebuild fun _ _ => rfl

theorem entryPointSchema_lawful : entryPointSchema.Lawful where
  distinct := by decide
  known := by decide
  get_set := by simp [entryPointSchema]
  get_set_ne := by simp [entryPointSchema]
  ext := Schema.ext_of_rebuild fun _ _ => rfl

theorem instructionSchema_lawful : instructionSchema.Lawful where
  distinct := by decide
  known := by decide
  get_set := by simp [instructionSchema]
  get_set_ne := by simp [instructionSchema]
  ext := Schema.ext_of_rebuild fun _ _ => rfl

theorem blockSchema_lawful : blockSchema.Lawful where
  distinct := by decide
  known := by decide
  get_set := by simp [blockSchema]
  get_set_ne := by simp [blockSchema]
  ext := Schema.ext_of_rebuild fun _ _ => rfl

theorem functionSchema_lawful : functionSchema.Lawful where
  distinct := by decide
  known := by decide
  get_set := by simp [functionSchema]
  get_set_ne := by simp [functionSchema]
  ext := Schema.ext_of_rebuild fun _ _ => rfl

theorem valueSchema_lawful : valueSchema.Lawful where
  distinct := by decide
  known := by decide
  get_set := by simp [valueSchema]
  get_set_ne := by simp [valueSchema]
  ext := Schema.ext_of_rebuild fun _ _ => rfl

theorem resourceSchema_lawful : resourceSchema.Lawful where
  distinct := by decide
  known := by decide
  get_set := by simp [resourceSchema]
  get_set_ne := by simp [resourceSchema]
  ext := Schema.ext_of_rebuild fun _ _ => rfl

theorem moduleSchema_lawful : moduleSchema.Lawful where
  distinct := by decide
  known := by decide
  get_set := by simp [moduleSchema]
  get_set_ne := by simp [moduleSchema]
  ext := Schema.ext_of_rebuild fun _ _ => rfl

theorem diagnosticSchema_readsBack : diagnosticSchema.codec.ReadsBack Diagnostic.canonical := by
  apply diagnosticSchema_lawful.readsBack
  simp only [diagnosticSchema, List.forall_mem_cons]
  exact ⟨⟨Severity.canonical, severityCodec_readsBack.faithful _, fun _ => rfl⟩,
    ⟨id, text_readsBack.faithful _, fun _ => rfl⟩,
    ⟨id, text_readsBack.faithful _, fun _ => rfl⟩, by simp⟩

theorem entryPointSchema_readsBack : entryPointSchema.codec.ReadsBack id := by
  apply entryPointSchema_lawful.readsBack_id
  simp only [entryPointSchema, List.forall_mem_cons]
  exact ⟨text_readsBack.faithful _, text_readsBack.faithful _, by simp⟩

theorem instructionSchema_readsBack : instructionSchema.codec.ReadsBack id := by
  apply instructionSchema_lawful.readsBack_id
  simp only [instructionSchema, List.forall_mem_cons]
  exact ⟨text_readsBack.faithful _, (list_readsBack_id u32_readsBack).faithful _,
    optional_faithful_id u32_readsBack, optional_faithful_id text_readsBack,
    flag_readsBack.faithful _, optional_faithful_id text_readsBack, by simp⟩

theorem blockSchema_readsBack : blockSchema.codec.ReadsBack id := by
  apply blockSchema_lawful.readsBack_id
  simp only [blockSchema, List.forall_mem_cons]
  exact ⟨text_readsBack.faithful _, (list_readsBack_id instructionSchema_readsBack).faithful _,
    by simp⟩

theorem functionSchema_readsBack : functionSchema.codec.ReadsBack id := by
  apply functionSchema_lawful.readsBack_id
  simp only [functionSchema, List.forall_mem_cons]
  exact ⟨text_readsBack.faithful _, text_readsBack.faithful _,
    (list_readsBack_id u32_readsBack).faithful _,
    (list_readsBack_id blockSchema_readsBack).faithful _, by simp⟩

theorem valueSchema_readsBack : valueSchema.codec.ReadsBack id := by
  apply valueSchema_lawful.readsBack_id
  simp only [valueSchema, List.forall_mem_cons]
  exact ⟨u32_readsBack.faithful _, text_readsBack.faithful _, text_readsBack.faithful _,
    optional_faithful_id text_readsBack, by simp⟩

theorem resourceSchema_readsBack : resourceSchema.codec.ReadsBack id := by
  apply resourceSchema_lawful.readsBack_id
  simp only [resourceSchema, List.forall_mem_cons]
  exact ⟨text_readsBack.faithful _, text_readsBack.faithful _, text_readsBack.faithful _,
    flag_readsBack.faithful _, by simp⟩

theorem moduleSchema_readsBack : moduleSchema.codec.ReadsBack Module.canonical := by
  apply moduleSchema_lawful.readsBack
  simp only [moduleSchema, List.forall_mem_cons]
  exact ⟨⟨id, optional_faithful_id u32_readsBack, fun _ => rfl⟩,
    ⟨id, optional_faithful_id text_readsBack, fun _ => rfl⟩,
    ⟨id, optional_faithful_id entryPointSchema_readsBack, fun _ => rfl⟩,
    ⟨id, (list_readsBack_id functionSchema_readsBack).faithful _, fun _ => rfl⟩,
    ⟨id, (list_readsBack_id valueSchema_readsBack).faithful _, fun _ => rfl⟩,
    ⟨id, (list_readsBack_id resourceSchema_readsBack).faithful _, fun _ => rfl⟩,
    ⟨_, (list_readsBack diagnosticSchema_readsBack).faithful _, fun _ => rfl⟩, by simp⟩

theorem diagnosticSchema_within (n : Nat) : diagnosticSchema.codec.Within (n + 1) := by
  apply schema_within
  simp only [diagnosticSchema, List.forall_mem_cons]
  exact ⟨through_within (text_within n) _ _, text_within n, text_within n, by simp⟩

theorem entryPointSchema_within (n : Nat) : entryPointSchema.codec.Within (n + 1) := by
  apply schema_within
  simp only [entryPointSchema, List.forall_mem_cons]
  exact ⟨text_within n, text_within n, by simp⟩

theorem instructionSchema_within (n : Nat) : instructionSchema.codec.Within (n + 2) := by
  apply schema_within
  simp only [instructionSchema, List.forall_mem_cons]
  exact ⟨text_within _, list_within (u32_within n), optional_within (u32_within _),
    optional_within (text_within _), flag_within _, optional_within (text_within _), by simp⟩

theorem blockSchema_within (n : Nat) : blockSchema.codec.Within (n + 4) := by
  apply schema_within
  simp only [blockSchema, List.forall_mem_cons]
  exact ⟨text_within _, list_within (instructionSchema_within n), by simp⟩

theorem functionSchema_within (n : Nat) : functionSchema.codec.Within (n + 6) := by
  apply schema_within
  simp only [functionSchema, List.forall_mem_cons]
  exact ⟨text_within _, text_within _, list_within (u32_within _),
    list_within (blockSchema_within n), by simp⟩

theorem valueSchema_within (n : Nat) : valueSchema.codec.Within (n + 1) := by
  apply schema_within
  simp only [valueSchema, List.forall_mem_cons]
  exact ⟨u32_within n, text_within n, text_within n, optional_within (text_within n), by simp⟩

theorem resourceSchema_within (n : Nat) : resourceSchema.codec.Within (n + 1) := by
  apply schema_within
  simp only [resourceSchema, List.forall_mem_cons]
  exact ⟨text_within n, text_within n, text_within n, flag_within n, by simp⟩

theorem moduleSchema_within : moduleSchema.codec.Within 8 := by
  apply schema_within
  simp only [moduleSchema, List.forall_mem_cons]
  exact ⟨optional_within (u32_within _), optional_within (text_within _),
    optional_within (entryPointSchema_within _), list_within (functionSchema_within 0),
    list_within (valueSchema_within _), list_within (resourceSchema_within _),
    list_within (diagnosticSchema_within _), by simp⟩

theorem severityCodec_yields : severityCodec.Yields fun s => s.canonical = s :=
  through_yields _ _ Severity.canonical_ofName

theorem diagnosticSchema_yields :
    diagnosticSchema.codec.Yields fun d => d.severity.canonical = d.severity := by
  apply Schema.codec_yields
  · rfl
  · simp only [diagnosticSchema, List.forall_mem_cons]
    exact ⟨Field.keeps_of_yields severityCodec_yields fun _ _ hc _ => hc,
      Field.keeps_of_set fun _ _ ha => ha, Field.keeps_of_set fun _ _ ha => ha, by simp⟩

theorem moduleSchema_yields :
    moduleSchema.codec.Yields fun m =>
      ∀ d ∈ m.diagnostics, d.severity.canonical = d.severity := by
  apply Schema.codec_yields
  · intro d hd
    exact absurd hd List.not_mem_nil
  · simp only [moduleSchema, List.forall_mem_cons]
    exact ⟨Field.keeps_of_set fun _ _ ha => ha, Field.keeps_of_set fun _ _ ha => ha,
      Field.keeps_of_set fun _ _ ha => ha, Field.keeps_of_set fun _ _ ha => ha,
      Field.keeps_of_set fun _ _ ha => ha, Field.keeps_of_set fun _ _ ha => ha,
      Field.keeps_of_yields (list_yields diagnosticSchema_yields) fun _ _ hc _ => hc, by simp⟩

end Wire

namespace Module

theorem canonical_eq_self (m : Module)
    (h : ∀ d ∈ m.diagnostics, d.severity.canonical = d.severity) : m.canonical = m := by
  have hd : m.diagnostics.map Diagnostic.canonical = m.diagnostics.map id := by
    apply List.map_congr_left
    intro d hd
    simp only [Diagnostic.canonical, h d hd]
    rfl
  rw [canonical, hd, List.map_id]
  rfl

theorem toText_toList (m : Module) : ∃ rest, m.toText.toList = '\x7b' :: rest := by
  have h (ms : List (String × Json)) : ∃ rest, Json.text 0 (.obj ms) = '\x7b' :: rest := by
    cases ms with
    | nil => exact ⟨_, rfl⟩
    | cons m ms => exact ⟨_, rfl⟩
  obtain ⟨rest, hr⟩ := h _
  refine ⟨rest, ?_⟩
  rw [toText, Json.pretty, String.toList_ofList]
  exact hr

theorem ofText_toText (m : Module) : ofText m.toText = .ok m.canonical := by
  have hb : Text.isBlankText m.toText = false := by
    obtain ⟨rest, h⟩ := m.toText_toList
    rw [Text.isBlankText, h, List.all_cons]
    rfl
  have hp : Json.parse? m.toText = some m.toJson.ordered :=
    Json.parse?_pretty (Wire.moduleSchema_within m) (by decide)
  have hr : ofJson m.toJson.ordered = .ok m.canonical := (Wire.moduleSchema_readsBack m).2
  rw [ofText, hb, hp]
  simp only [hr]
  rfl

theorem canonical_of_ofText (t : String) (m : Module) (h : ofText t = .ok m) :
    m.canonical = m := by
  apply canonical_eq_self
  unfold ofText at h
  split at h
  · cases h
  · split at h
    · cases h
    · next v hv => exact Wire.moduleSchema_yields _ m (Wire.eq_ok_of_mapError_eq_ok h)

/-- Writing a module and reading it again gives the module with its severities in canonical form,
and a module that was read from a text is in that form already. -/
theorem roundTrip_canonical :
    (∀ m : Module, ofText m.toText = .ok m.canonical) ∧
      ∀ (t : String) (m : Module), ofText t = .ok m →
        m.canonical = m ∧ ofText m.toText = .ok m := by
  refine ⟨ofText_toText, ?_⟩
  intro t m h
  have hc := canonical_of_ofText t m h
  refine ⟨hc, ?_⟩
  rw [ofText_toText, hc]

def shouted : Module where
  formatVersion := some 4294967295
  diagnostics := [{ severity := .other " ERROR", message := "\"\\\x00\n", stage := "é" }]

def oddText : String :=
  "\x7b\"Tag\":null,\"VALUES\":[\x7b\"ID\":7,\"kind\":\"\\u0000\\\"\"\x7d]\x7d"

theorem roundTrip_canonical_shouted :
    ofText shouted.toText = .ok shouted.canonical ∧ shouted.canonical ≠ shouted ∧
      ∃ m, ofText oddText = .ok m ∧ m.canonical = m ∧ ofText m.toText = .ok m := by
  have h : ofText oddText = .ok { values := [{ id := 7, kind := "\x00\"" }] } := by
    decide +kernel
  exact ⟨roundTrip_canonical.1 shouted, by decide, _, h, roundTrip_canonical.2 _ _ h⟩

end Module

end ShaderLegalizer
