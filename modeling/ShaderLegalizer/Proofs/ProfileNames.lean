import Mathlib.Data.List.DropRight
import ShaderLegalizer.Proofs.FindingOrder
import ShaderLegalizer.Proofs.Spelling

set_option autoImplicit false

namespace ShaderLegalizer

namespace Text

theorem isBlank_eq_false (c : Char) (h : 0x20 < c.toNat) (h' : c.toNat < 0x85) :
    isBlank c = false := by
  simp [isBlank, inRanges, blankRanges]
  omega

theorem isBlank_toLower (c : Char) : isBlank c.toLower = isBlank c := by
  have hl := toNat_toLower c
  split at hl
  · rw [isBlank_eq_false c (by omega) (by omega), isBlank_eq_false c.toLower (by omega) (by omega)]
  · rw [isBlank, hl, isBlank]

theorem trim_eq (s : List Char) : trim s = (s.dropWhile isBlank).rdropWhile isBlank :=
  rfl

theorem trim_map_toLower (s : List Char) :
    trim (s.map Char.toLower) = (trim s).map Char.toLower := by
  have hb : isBlank ∘ Char.toLower = isBlank := funext isBlank_toLower
  rw [trim, trim, List.dropWhile_map, hb, ← List.map_reverse, List.dropWhile_map, hb,
    ← List.map_reverse]

theorem keyword_eq (s : String) : keyword s = trim (fold s) :=
  (trim_map_toLower s.toList).symm

theorem keyword_congr {s t : String} (h : fold s = fold t) : keyword s = keyword t := by
  rw [keyword_eq, keyword_eq, h]

theorem rdropWhile_append_of_all {p : Char → Bool} (s : List Char) {t : List Char}
    (h : ∀ c ∈ t, p c = true) : (s ++ t).rdropWhile p = s.rdropWhile p := by
  have hr : ∀ c ∈ t.reverse, p c = true := by simpa using h
  rw [List.rdropWhile, List.reverse_append, List.dropWhile_append_of_pos hr]
  rfl

theorem rdropWhile_prefix_append (p : Char → Bool) (s t : List Char) :
    s.rdropWhile p <+: (s ++ t).rdropWhile p := by
  induction t using List.reverseRecOn with
  | nil => simp
  | append_singleton t c ih =>
    rw [← List.append_assoc, List.rdropWhile_concat]
    split
    · exact ih
    · rw [List.append_assoc]
      exact (List.rdropWhile_prefix p s).trans (List.prefix_append _ _)

theorem trim_pad (before s after : List Char) (hb : ∀ c ∈ before, isBlank c = true)
    (ha : ∀ c ∈ after, isBlank c = true) : trim (before ++ s ++ after) = trim s := by
  rw [trim_eq, trim_eq, List.append_assoc, List.dropWhile_append_of_pos hb, List.dropWhile_append]
  split
  · next h =>
    have hs : s.dropWhile isBlank = [] := List.isEmpty_iff.1 h
    rw [hs, List.dropWhile_eq_nil_iff.2 ha]
  · exact rdropWhile_append_of_all _ ha

theorem keyword_pad (s : String) {before after : String} (hb : isBlankText before = true)
    (ha : isBlankText after = true) : keyword (before ++ s ++ after) = keyword s := by
  rw [keyword, keyword, String.toList_append, String.toList_append,
    trim_pad _ _ _ (List.all_eq_true.1 hb) (List.all_eq_true.1 ha)]

theorem trim_prefix_append (s t : List Char) (h : trim s ≠ []) : trim s <+: trim (s ++ t) := by
  have hs : s.dropWhile isBlank ≠ [] := by
    intro hs
    rw [trim_eq, hs] at h
    exact h rfl
  rw [trim_eq, trim_eq, List.dropWhile_append, if_neg (by simpa using hs)]
  exact rdropWhile_prefix_append _ _ _

end Text

theorem idxOf_le_of_find? {α : Type} [DecidableEq α] {l : List α} {q : α → Bool} {a b : α}
    (hb : l.find? q = some b) (ha : q a = true) : l.idxOf b ≤ l.idxOf a := by
  induction l with
  | nil => exact le_rfl
  | cons c l ih =>
    rw [List.find?_cons] at hb
    cases hc : q c with
    | true =>
      rw [hc] at hb
      obtain rfl : c = b := Option.some.inj hb
      rw [List.idxOf_cons_self]
      exact Nat.zero_le _
    | false =>
      rw [hc] at hb
      have hne : ∀ d, q d = true → c ≠ d := by
        rintro d hd rfl
        rw [hc] at hd
        cases hd
      rw [List.idxOf_cons_ne _ (hne b (List.find?_some hb)), List.idxOf_cons_ne _ (hne a ha)]
      exact Nat.succ_le_succ (ih hb)

namespace Band

theorem ofProfileName?_congr {s t : String} (h : Text.keyword s = Text.keyword t) :
    ofProfileName? s = ofProfileName? t := by
  rw [ofProfileName?, ofProfileName?, h]

theorem fits_mono (b : Band) {key key' : List Char} (h : key <+: key') (hb : b.fits key = true) :
    b.fits key' = true := by
  rw [fits, Bool.or_eq_true, decide_eq_true_iff, Text.holds_iff] at hb ⊢
  exact hb.imp (fun hp => hp.trans h) fun hv => hv.trans h.isInfix

theorem not_fits_nil (b : Band) : b.fits [] = false := by
  cases b <;> decide

theorem fits_of_ofProfileName? {raw : String} {b : Band} (h : ofProfileName? raw = some b) :
    b.fits (Text.keyword raw) = true := by
  have hb := List.find?_some h
  exact hb

theorem mem_all (b : Band) : b ∈ all := by
  cases b <;> decide

theorem keyword_prefix_append {raw : String} {b : Band} (h : ofProfileName? raw = some b)
    (suffix : String) : Text.keyword raw <+: Text.keyword (raw ++ suffix) := by
  have hne : Text.trim raw.toList ≠ [] := by
    intro hn
    have hf := fits_of_ofProfileName? h
    rw [Text.keyword, hn, List.map_nil, not_fits_nil] at hf
    cases hf
  rw [Text.keyword, Text.keyword, String.toList_append]
  exact (Text.trim_prefix_append _ _ hne).map Char.toLower

theorem ofProfileName?_append {raw : String} {b : Band} (h : ofProfileName? raw = some b)
    (suffix : String) :
    ∃ b', ofProfileName? (raw ++ suffix) = some b' ∧ all.idxOf b' ≤ all.idxOf b := by
  have hfits : b.fits (Text.keyword (raw ++ suffix)) = true :=
    b.fits_mono (keyword_prefix_append h suffix) (fits_of_ofProfileName? h)
  have hsome : (ofProfileName? (raw ++ suffix)).isSome = true :=
    List.find?_isSome.2 ⟨b, b.mem_all, hfits⟩
  obtain ⟨b', hb'⟩ := Option.isSome_iff_exists.1 hsome
  exact ⟨b', hb', idxOf_le_of_find? hb' hfits⟩

theorem keyword_name (b : Band) : Text.keyword b.name = b.name.toList := by
  cases b <;> decide

theorem ofName?_name (b : Band) : ofName? b.name = some b := by
  cases b <;> decide

theorem ofProfileName?_of_ofName? {raw : String} {b : Band} (h : ofName? raw = some b) :
    ofProfileName? raw = some b := by
  have hb := List.find?_some h
  have hk : Text.keyword raw = Text.keyword b.name := by
    rw [b.keyword_name]
    exact eq_of_beq hb
  rw [ofProfileName?_congr hk, ofProfileName?_name]

theorem profile_band (b : Band) : b.profile.band = b.label := by
  cases b <;> rfl

end Band

/-! ### The complaint about an unknown profile -/

/-- The words in which a legalization complains of its profile. -/
def unknownProfileWords : String := "Unknown or missing profile "

theorem Module.unknownProfile_begins (m : Module) :
    m.unknownProfile.begins unknownProfileWords = true := by
  rw [Diagnostic.begins_iff]
  iterate 2 apply Text.prefix_append
  decide

theorem Diagnostic.begins_eq_false {d : Diagnostic} {w w' : String} (h : d.begins w = true)
    (hw : ¬ w.toList <+: w'.toList) (hw' : ¬ w'.toList <+: w.toList) : d.begins w' = false := by
  rw [← Bool.not_eq_true, begins_iff]
  rw [begins_iff] at h
  intro h'
  exact (List.prefix_or_prefix_of_prefix h h').elim hw hw'

theorem Rule.notice?_begins {r : Rule} {b : Label} {op : String} {d : Diagnostic}
    (h : r.notice? b op = some d) :
    ∃ w ∈ ["Flattened ", "Unrolled ", "Rewriting ", "Removed "], d.begins w = true := by
  cases r with
  | flatten =>
    obtain rfl := Option.some.inj h
    refine ⟨"Flattened ", by decide, (Diagnostic.begins_iff _ _).2 ?_⟩
    iterate 4 apply Text.prefix_append
    decide
  | unroll =>
    obtain rfl := Option.some.inj h
    refine ⟨"Unrolled ", by decide, (Diagnostic.begins_iff _ _).2 ?_⟩
    iterate 4 apply Text.prefix_append
    decide
  | decompose =>
    obtain rfl := Option.some.inj h
    refine ⟨"Rewriting ", by decide, (Diagnostic.begins_iff _ _).2 ?_⟩
    decide
  | remove =>
    obtain rfl := Option.some.inj h
    refine ⟨"Removed ", by decide, (Diagnostic.begins_iff _ _).2 ?_⟩
    iterate 2 apply Text.prefix_append
    decide
  | keep => cases h

theorem Fault.diagnostic_begins (f : Fault) : f.diagnostic.begins unknownProfileWords = false := by
  rw [← Bool.not_eq_true, Diagnostic.begins_iff]
  rintro ⟨rest, hrest⟩
  have hu : unknownProfileWords.toList.head? = some 'U' := by decide
  have hi : some f.initial = some 'U' := by
    rw [← f.message_head?]
    change f.diagnostic.message.toList.head? = some 'U'
    rw [← hrest, List.head?_append, hu]
    rfl
  cases f <;> simp [initial] at hi

namespace Module

variable (m : Module) (p : Profile)

theorem validate_begins (d : Diagnostic) (h : d ∈ m.validate p) :
    d.begins unknownProfileWords = false := by
  obtain ⟨k, hk, -⟩ := m.exists_kind_of_mem_validate p d h
  refine Diagnostic.begins_eq_false hk ?_ ?_
  all_goals cases k <;> decide

theorem notices_begins (d : Diagnostic) (h : d ∈ (m.lower p).notices) :
    d.begins unknownProfileWords = false := by
  obtain ⟨i, -, hi⟩ := List.mem_filterMap.1 h
  obtain ⟨w, hw, hd⟩ := Rule.notice?_begins hi
  have hother : ∀ w ∈ ["Flattened ", "Unrolled ", "Rewriting ", "Removed "],
      ¬ w.toList <+: unknownProfileWords.toList ∧ ¬ unknownProfileWords.toList <+: w.toList := by
    decide
  exact Diagnostic.begins_eq_false hd (hother w hw).1 (hother w hw).2

theorem newDiagnostics_begins (d : Diagnostic) (h : d ∈ m.newDiagnostics check p) :
    d.begins unknownProfileWords = false := by
  simp only [newDiagnostics, List.mem_append] at h
  rcases h with ((hv | hn) | hr) | hc
  · exact m.validate_begins p d hv
  · exact m.notices_begins p d hn
  · split at hr
    · rw [List.mem_singleton.1 hr]
      decide
    · cases hr
  · obtain ⟨f, -, rfl⟩ := List.mem_map.1 hc
    exact f.diagnostic_begins

end Module

namespace Request

/-- The name that decides the band: the override unless it is blank, else that of the module. -/
def profileName (r : Request) : Option String :=
  (r.override.filter fun o => !Text.isBlankText o).or r.module.profile

theorem unknown_profile_iff (r : Request) :
    ∃ added, (legalize r).diagnostics = r.module.diagnostics ++ added ∧
      (Band.ofProfileName? (r.profileName.getD "") = none ↔
        ∃ d ∈ added, d.begins unknownProfileWords = true) ∧
      (Band.ofProfileName? (r.profileName.getD "") = none →
        added = [r.effective.unknownProfile]) := by
  have hband : r.effective.band? = Band.ofProfileName? (r.profileName.getD "") := by
    rw [r.effective_eq]
    rfl
  rw [← hband]
  cases hb : r.effective.band? with
  | none =>
    refine ⟨[r.effective.unknownProfile], ?_, ?_, fun _ => rfl⟩
    · rw [legalize, legalizeWith_of_band?_eq_none _ r hb, ← r.effective_diagnostics]
      rfl
    · simp [Module.unknownProfile_begins]
  | some b =>
    refine ⟨r.effective.newDiagnostics Module.check b.profile, ?_, ?_, ?_⟩
    · rw [legalize, legalizeWith_of_band?_eq_some _ r b hb, ← r.effective_diagnostics]
      rfl
    · constructor
      · intro h
        cases h
      · rintro ⟨d, hd, hw⟩
        rw [r.effective.newDiagnostics_begins b.profile d hd] at hw
        cases hw
    · intro h
      cases h

end Request

/-- The laws of selecting a band by a name. Case and blanks around the name do not count. The name
of a band selects it, and a band that is selected is found again by its name. With any text behind
it a name goes on selecting a band, the same or a more restrictive one. A legalization complains of
its profile exactly where none is selected. -/
theorem profile_selection_laws (raw : String) :
    (∀ other, Text.fold other = Text.fold raw →
      Band.ofProfileName? other = Band.ofProfileName? raw) ∧
    (∀ before after, Text.isBlankText before = true → Text.isBlankText after = true →
      Band.ofProfileName? (before ++ raw ++ after) = Band.ofProfileName? raw) ∧
    (∀ p, (Band.ofName? raw).map Band.profile = some p →
      (Band.ofProfileName? raw).map Band.label = some p.band) ∧
    (∀ b, Band.ofProfileName? raw = some b →
      (Band.ofName? b.name).map Band.profile = some b.profile ∧ b.profile.band = b.label) ∧
    (∀ b suffix, Band.ofProfileName? raw = some b →
      ∃ b', Band.ofProfileName? (raw ++ suffix) = some b' ∧
        Band.all.idxOf b' ≤ Band.all.idxOf b) ∧
    ∀ r : Request, r.profileName.getD "" = raw →
      ∃ added, (legalize r).diagnostics = r.module.diagnostics ++ added ∧
        (Band.ofProfileName? raw = none ↔ ∃ d ∈ added, d.begins unknownProfileWords = true) ∧
        (Band.ofProfileName? raw = none → added = [r.effective.unknownProfile]) := by
  refine ⟨?_, ?_, ?_, ?_, ?_, ?_⟩
  · intro other h
    exact Band.ofProfileName?_congr (Text.keyword_congr h)
  · intro before after hb ha
    exact Band.ofProfileName?_congr (Text.keyword_pad raw hb ha)
  · intro p h
    obtain ⟨b, hb, rfl⟩ := Option.map_eq_some_iff.1 h
    rw [Band.ofProfileName?_of_ofName? hb, b.profile_band]
    rfl
  · intro b _
    rw [b.ofName?_name]
    exact ⟨rfl, b.profile_band⟩
  · intro b suffix h
    exact Band.ofProfileName?_append h suffix
  · rintro r rfl
    exact r.unknown_profile_iff

theorem profile_selection_laws_names :
    Band.ofProfileName? ("\u3000" ++ "PS_3_0" ++ "\t") = some .sm3 ∧
    (Band.ofProfileName? " Sm4").map Band.label = some Band.sm4.label ∧
    (∃ b, Band.ofProfileName? ("ps_3_0" ++ " _2_") = some b ∧
      Band.all.idxOf b ≤ Band.all.idxOf .sm3) ∧
    ∃ added, (legalize { module := {}, override := some "glsl450" }).diagnostics = added ∧
      ∃ d ∈ added, d.begins unknownProfileWords = true := by
  have h3 : Band.ofProfileName? "ps_3_0" = some .sm3 := by decide +kernel
  obtain ⟨hcase, -, -, -, hsuffix, -⟩ := profile_selection_laws "ps_3_0"
  obtain ⟨-, hpad, -⟩ := profile_selection_laws "PS_3_0"
  obtain ⟨-, -, hname, -⟩ := profile_selection_laws " Sm4"
  obtain ⟨-, -, -, -, -, hunknown⟩ := profile_selection_laws "glsl450"
  refine ⟨?_, hname Band.sm4.profile (by decide +kernel), hsuffix .sm3 " _2_" h3, ?_⟩
  · rw [hpad "\u3000" "\t" (by decide) (by decide), hcase "PS_3_0" (by decide), h3]
  · obtain ⟨added, hadded, hiff, -⟩ :=
      hunknown { module := {}, override := some "glsl450" } (by decide +kernel)
    exact ⟨added, hadded, hiff.1 (by decide +kernel)⟩

end ShaderLegalizer
