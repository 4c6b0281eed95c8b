import ShaderLegalizer.CommandLine.Run
import ShaderLegalizer.Proofs.FixedPoint
import ShaderLegalizer.Proofs.ModuleRoundTrip

set_option autoImplicit false

namespace ShaderLegalizer

namespace Json

theorem Scan.step_newline (st : Scan) : (st.step '\n').bind finish? = st.finish? := by
  obtain ⟨tokens, mode⟩ := st
  cases mode with
  | between => rfl
  | word read =>
    simp only [step, finish?]
    cases Token.ofWord? read.reverse <;> rfl
  | string read escaped => cases escaped <;> rfl

theorem tokens?_newline (cs : List Char) : tokens? (cs ++ ['\n']) = tokens? cs := by
  rw [tokens?, tokens?, List.foldlM_append]
  cases cs.foldlM Scan.step Scan.start with
  | none => rfl
  | some st => simpa using st.step_newline

theorem parse?_newline (s : String) : parse? (s ++ "\n") = parse? s := by
  rw [parse?, parse?, String.toList_append]
  change (do let ts ← tokens? (s.toList ++ ['\n']); ofTokens? ts) = _
  rw [tokens?_newline]

end Json

theorem Rule.notice?_canonical (band : Label) (op : String) (r : Rule) (d : Diagnostic)
    (h : r.notice? band op = some d) : d.severity.canonical = d.severity := by
  cases r with
  | keep => cases h
  | _ => cases h; rfl

namespace Module

theorem ofText_newline (s : String) : ofText (s ++ "\n") = ofText s := by
  have hb : Text.isBlankText (s ++ "\n") = Text.isBlankText s := by
    rw [Text.isBlankText, Text.isBlankText, String.toList_append, List.all_append]
    exact Bool.and_true _
  rw [ofText, ofText, hb, Json.parse?_newline]

theorem severity_of_canonical_eq_self (m : Module) (h : m.canonical = m) :
    ∀ d ∈ m.diagnostics, d.severity.canonical = d.severity := by
  have hd : m.diagnostics.map Diagnostic.canonical = m.diagnostics.map id := by
    rw [List.map_id]
    exact congrArg Module.diagnostics h
  intro d hmem
  exact congrArg Diagnostic.severity (List.map_inj_left.1 hd d hmem)

theorem newDiagnostics_canonical (m : Module) (p : Profile) :
    ∀ d ∈ m.newDiagnostics check p, d.severity.canonical = d.severity := by
  intro d hd
  simp only [newDiagnostics, List.mem_append] at hd
  rcases hd with ((hd | hd) | hd) | hd
  · obtain ⟨f, -, rfl⟩ := List.mem_map.1 hd
    rfl
  · obtain ⟨i, -, hi⟩ := List.mem_filterMap.1 hd
    exact Rule.notice?_canonical _ _ _ _ hi
  · split at hd
    · rw [List.mem_singleton.1 hd]
      rfl
    · cases hd
  · obtain ⟨f, -, rfl⟩ := List.mem_map.1 hd
    rfl

end Module

theorem legalize_module_canonical (r : Request) (h : r.module.canonical = r.module) :
    (legalize r).module.canonical = (legalize r).module := by
  have hcarried : ∀ d ∈ r.effective.diagnostics, d.severity.canonical = d.severity := by
    rw [r.effective_diagnostics]
    exact r.module.severity_of_canonical_eq_self h
  apply Module.canonical_eq_self
  intro d hd
  rw [legalize, legalizeWith_module_diagnostics] at hd
  cases hb : r.effective.band? with
  | none =>
    rw [legalizeWith_of_band?_eq_none _ r hb, Outcome.close, List.mem_append,
      List.mem_singleton] at hd
    rcases hd with hd | rfl
    · exact hcarried d hd
    · rfl
  | some b =>
    rw [← legalize, legalize_diagnostics r b hb, List.mem_append] at hd
    rcases hd with hd | hd
    · exact hcarried d hd
    · exact Module.newDiagnostics_canonical _ _ d hd

theorem Module.withDiagnostics_self (m : Module) : m.withDiagnostics m.diagnostics = m :=
  rfl

theorem Outcome.close_module (m : Module) (ds : List Diagnostic) (s : Statistics) :
    (close m ds s).module = m.withDiagnostics ds :=
  rfl

theorem legalize_settled (r : Request) (h : (legalize r).module.hasErrors = false) (again : Bool) :
    (legalize
      { module := (legalize r).module
        override := if again then r.override else none }).module = (legalize r).module := by
  have hv : (legalize r).invalid = false := by
    rw [legalize_invalid, legalize, ← legalizeWith_module_diagnostics]
    exact h
  obtain ⟨b, hb, -⟩ := of_legalize_valid r hv
  obtain ⟨s, -, hs⟩ := legalize_again r b hb again (legalize r).module.diagnostics
  rw [Module.withDiagnostics_self, objections_eq_nil r b hb hv, List.append_nil] at hs
  rw [hs, Outcome.close_module, Module.withDiagnostics_self]

namespace CommandLine

theorem Source.text_toUTF8 (path text : String) :
    (Source.content text.toUTF8).text path = .ok text := by
  have h : String.fromUTF8? text.toUTF8 = some text := by
    rw [String.fromUTF8?, String.toUTF8_eq_toByteArray, dif_pos text.isValidUTF8]
    rfl
  simp only [Source.text, h]

/-- What the command prints for a module. -/
def Options.printed (o : Options) (m : Module) : String :=
  (legalize { module := m, override := o.profile }).module.toText ++ "\n"

theorem Options.run_of_text (o : Options) (source : Source) (text : String) (m : Module)
    (ht : source.text o.inputName = .ok text) (hm : Module.ofText text = .ok m) :
    ∃ out, o.run source = .ok out ∧ out.stdout = o.printed m := by
  rw [Options.run, ht]
  change ∃ out, o.legalizeText text = .ok out ∧ _
  rw [Options.legalizeText, hm]
  exact ⟨_, rfl, rfl⟩

theorem Options.text_of_run (o : Options) (source : Source) (out : Output)
    (h : o.run source = .ok out) :
    ∃ text m, source.text o.inputName = .ok text ∧ Module.ofText text = .ok m ∧
      out.stdout = o.printed m := by
  cases ht : source.text o.inputName with
  | error e =>
    rw [Options.run, ht] at h
    cases h
  | ok text =>
    cases hm : Module.ofText text with
    | error e =>
      rw [Options.run, ht] at h
      change o.legalizeText text = .ok out at h
      rw [Options.legalizeText, hm] at h
      cases h
    | ok m =>
      obtain ⟨out', hout, hs⟩ := o.run_of_text source text m ht hm
      obtain rfl : out = out' := Except.ok.inj (h.symm.trans hout)
      exact ⟨text, m, rfl, hm, hs⟩

theorem Options.ofText_printed (o : Options) (text : String) (m : Module)
    (h : Module.ofText text = .ok m) :
    Module.ofText (o.printed m) = .ok (legalize { module := m, override := o.profile }).module := by
  have hm : m.canonical = m := Module.canonical_of_ofText text m h
  rw [Options.printed, Module.ofText_newline, Module.ofText_toText, legalize_module_canonical _ hm]

section Execute

variable (lookup : Option String → Source) (args : List String)

theorem execute_of_run (out : Output) (h : run lookup args = .ok out) :
    (execute lookup args).status = 0 ∧ (execute lookup args).stdout = out.stdout := by
  simp only [execute, h, and_self]

theorem exists_run_of_status (h : (execute lookup args).status = 0) :
    ∃ out, run lookup args = .ok out := by
  unfold execute at h
  cases hr : run lookup args with
  | ok out => exact ⟨out, rfl⟩
  | error e => simp [hr] at h

theorem stdout_of_status (h : (execute lookup args).status ≠ 0) :
    (execute lookup args).stdout = "" := by
  unfold execute at h ⊢
  cases hr : run lookup args with
  | ok out => simp [hr] at h
  | error e => rfl

variable (o : Options) (ho : Command.ofArguments? args = some (.legalize o))

include ho

theorem run_legalize : run lookup args = o.run (lookup o.input) := by
  simp only [run, ho, Command.run]

theorem execute_of_text (text : String) (m : Module)
    (ht : (lookup o.input).text o.inputName = .ok text) (hm : Module.ofText text = .ok m) :
    (execute lookup args).status = 0 ∧ (execute lookup args).stdout = o.printed m := by
  obtain ⟨out, hout, hs⟩ := o.run_of_text _ text m ht hm
  rw [← run_legalize lookup args o ho] at hout
  rw [← hs]
  exact execute_of_run lookup args out hout

theorem text_of_status (h : (execute lookup args).status = 0) :
    ∃ text m, Module.ofText text = .ok m ∧ (execute lookup args).stdout = o.printed m := by
  obtain ⟨out, hout⟩ := exists_run_of_status lookup args h
  obtain ⟨text, m, -, hm, hs⟩ :=
    o.text_of_run _ out ((run_legalize lookup args o ho).symm.trans hout)
  exact ⟨text, m, hm, (execute_of_run lookup args out hout).2.trans hs⟩

end Execute

/-- A run that fails prints nothing to its standard output. What a successful one prints is accepted
when it is read in again, with the same profile or with none, wherever it is read from and with or
without statistics; and if the module in it has no errors, it is printed again as it is. -/
theorem rerun_stable :
    (∀ (lookup : Option String → Source) (args : List String),
      (execute lookup args).status ≠ 0 → (execute lookup args).stdout = "") ∧
    ∀ (lookup lookup' : Option String → Source) (args args' : List String) (o o' : Options),
      Command.ofArguments? args = some (.legalize o) →
      Command.ofArguments? args' = some (.legalize o') →
      o'.profile = o.profile ∨ o'.profile = none →
      (execute lookup args).status = 0 →
      lookup' o'.input = .content (execute lookup args).stdout.toUTF8 →
      (execute lookup' args').status = 0 ∧
      ∃ m, Module.ofText (execute lookup args).stdout = .ok m ∧
        (m.hasErrors = false →
          (execute lookup' args').stdout = (execute lookup args).stdout) := by
  refine ⟨stdout_of_status, ?_⟩
  intro lookup lookup' args args' o o' ho ho' hp h hin
  obtain ⟨text, m, hm, hs⟩ := text_of_status lookup args o ho h
  have hread : Module.ofText (execute lookup args).stdout =
      .ok (legalize { module := m, override := o.profile }).module := by
    rw [hs]
    exact o.ofText_printed text m hm
  have htext : (lookup' o'.input).text o'.inputName = .ok (execute lookup args).stdout := by
    rw [hin]
    exact Source.text_toUTF8 _ _
  obtain ⟨h', hs'⟩ := execute_of_text lookup' args' o' ho' _ _ htext hread
  refine ⟨h', _, hread, ?_⟩
  intro he
  obtain ⟨again, hagain⟩ : ∃ again : Bool, o'.profile = if again then o.profile else none := by
    rcases hp with hp | hp
    · exact ⟨true, hp⟩
    · exact ⟨false, hp⟩
  rw [hs', hs, Options.printed, Options.printed, hagain,
    legalize_settled { module := m, override := o.profile } he again]

def sloppyText : String :=
  "\x7b\"PROFILE\":\"ps_5_0\",\"Tag\":null,\"functions\":[[\"f\",\"\",[],[\x7b\"ID\":\"a\"," ++
    "\"instructions\":[[\"Loop\"],[\"Return\",[],null,null,true]]\x7d]]]\x7d"

def sloppyModule : Module where
  profile := some "ps_5_0"
  functions :=
    [ { name := "f", blocks := [{ id := "a", instructions :=
        [{ op := "Loop" }, { op := "Return", terminator := true }] }] } ]

theorem ofText_sloppyText : Module.ofText sloppyText = .ok sloppyModule := by
  decide +kernel

def sloppyRun : Transcript :=
  execute (fun _ => .content sloppyText.toUTF8) ["legalize", "-p", "ps_2_0"]

def sloppyRerun : Transcript :=
  execute (fun _ => .content sloppyRun.stdout.toUTF8) ["legalize", "--stats", "--input=out.json"]

theorem rerun_stable_sloppyText :
    sloppyRun.status = 0 ∧ sloppyRerun.status = 0 ∧ sloppyRerun.stdout = sloppyRun.stdout := by
  have ho : Command.ofArguments? ["legalize", "-p", "ps_2_0"] =
      some (.legalize { profile := some "ps_2_0" }) := by decide +kernel
  have ho' : Command.ofArguments? ["legalize", "--stats", "--input=out.json"] =
      some (.legalize { input := some "out.json", statistics := true }) := by decide +kernel
  have hclean : (legalize { module := sloppyModule, override := some "ps_2_0" }).module.hasErrors =
      false := by decide +kernel
  unfold sloppyRerun
  obtain ⟨h, hs⟩ := execute_of_text (fun _ => .content sloppyText.toUTF8) _ _ ho sloppyText _
    (Source.text_toUTF8 _ _) ofText_sloppyText
  obtain ⟨h', m, hread, hsame⟩ := rerun_stable.2 (fun _ => .content sloppyText.toUTF8)
    (fun _ => .content sloppyRun.stdout.toUTF8) _ _ _ _ ho ho' (.inr rfl) h rfl
  rw [hs, Options.ofText_printed _ _ _ ofText_sloppyText] at hread
  refine ⟨h, h', hsame ?_⟩
  rw [← Except.ok.inj hread]
  exact hclean

end CommandLine

end ShaderLegalizer
