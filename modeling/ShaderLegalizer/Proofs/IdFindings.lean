import Mathlib.Data.List.Perm.Basic
import ShaderLegalizer.Proofs.WellFormed

set_option autoImplicit false

namespace ShaderLegalizer

section SecondOccurrence

variable {α β : Type} [DecidableEq α] (key : β → Option α)

/-- The second of the elements with the key `a` stands at position `i`. -/
def SecondAt (l : List β) (a : α) (i : Nat) : Prop :=
  (∃ b, l[i]? = some b ∧ key b = some a) ∧ (l.take i).countP (fun b => key b == some a) = 1

/-- The keys that at least two elements have, each once, in the order of the second elements. -/
structure RepeatedKeys (l : List β) (as : List α) : Prop where
  nodup : as.Nodup
  mem_iff : ∀ a, a ∈ as ↔ 2 ≤ l.countP fun b => key b == some a
  order : as.Pairwise fun a b => ∃ i j, SecondAt key l a i ∧ SecondAt key l b j ∧ i < j

theorem repeats_go_nodup (before l : List α) : (repeats.go before l).Nodup := by
  induction l generalizing before with
  | nil => exact List.nodup_nil
  | cons a l ih =>
    rw [repeats.go]
    split
    · next h =>
      refine List.nodup_cons.2 ⟨?_, ih (a :: before)⟩
      rw [mem_repeats_go_iff, List.count_cons_self]
      omega
    · exact ih (a :: before)

/-- The key of an element if exactly one of those before has it too. -/
def secondKey? (first : List β) (b : β) : Option α :=
  (key b).filter fun a => first.countP (fun c => key c == some a) == 1

theorem repeats_go_filterMap_cons (first : List β) (b : β) (rest : List β) :
    repeats.go (first.filterMap key).reverse ((b :: rest).filterMap key) =
      (secondKey? key first b).toList ++
        repeats.go ((first ++ [b]).filterMap key).reverse (rest.filterMap key) := by
  cases hb : key b with
  | none =>
    rw [List.filterMap_cons_none hb, List.filterMap_append, List.filterMap_cons_none hb,
      List.filterMap_nil, List.append_nil, secondKey?, hb]
    rfl
  | some a =>
    rw [List.filterMap_cons_some hb, List.filterMap_append, List.filterMap_cons_some hb,
      List.filterMap_nil, List.reverse_append, List.reverse_singleton, List.singleton_append,
      repeats.go, List.count_reverse, List.count_filterMap, secondKey?, hb, Option.filter_some]
    split
    · next h =>
      rw [if_pos (beq_iff_eq.2 h)]
      rfl
    · next h =>
      rw [if_neg fun h' => h (beq_iff_eq.1 h')]
      rfl

theorem secondAt_of_secondKey? {first : List β} {b : β} {a : α}
    (h : secondKey? key first b = some a) (rest : List β) :
    SecondAt key (first ++ b :: rest) a first.length := by
  obtain ⟨hb, hc⟩ := Option.filter_eq_some_iff.1 h
  refine ⟨⟨b, by simp, hb⟩, ?_⟩
  rw [List.take_left]
  exact beq_iff_eq.1 hc

theorem exists_secondAt_of_mem_go (first rest : List β) (a : α)
    (h : a ∈ repeats.go (first.filterMap key).reverse (rest.filterMap key)) :
    ∃ i, first.length ≤ i ∧ SecondAt key (first ++ rest) a i := by
  induction rest generalizing first with
  | nil => exact absurd h List.not_mem_nil
  | cons b rest ih =>
    rw [repeats_go_filterMap_cons] at h
    rcases List.mem_append.1 h with h | h
    · exact ⟨first.length, le_rfl, secondAt_of_secondKey? key (Option.mem_toList.1 h) rest⟩
    · obtain ⟨i, hi, hs⟩ := ih (first ++ [b]) h
      rw [List.append_assoc, List.singleton_append] at hs
      rw [List.length_append, List.length_singleton] at hi
      exact ⟨i, by omega, hs⟩

theorem repeats_go_order (first rest : List β) :
    (repeats.go (first.filterMap key).reverse (rest.filterMap key)).Pairwise fun a b =>
      ∃ i j, SecondAt key (first ++ rest) a i ∧ SecondAt key (first ++ rest) b j ∧ i < j := by
  induction rest generalizing first with
  | nil => exact .nil
  | cons b rest ih =>
    have happend : first ++ b :: rest = first ++ [b] ++ rest := by simp
    rw [repeats_go_filterMap_cons, List.pairwise_append]
    refine ⟨?_, ?_, ?_⟩
    · cases secondKey? key first b with
      | none => exact .nil
      | some a => exact List.pairwise_singleton _ a
    · rw [happend]
      exact ih (first ++ [b])
    · -- what is told here comes before whatever is told of the rest
      intro a ha c hc
      obtain ⟨j, hj, hs⟩ := exists_secondAt_of_mem_go key (first ++ [b]) rest c hc
      rw [← happend] at hs
      rw [List.length_append, List.length_singleton] at hj
      exact ⟨first.length, j, secondAt_of_secondKey? key (Option.mem_toList.1 ha) rest, hs,
        by omega⟩

theorem repeatedKeys_repeats (l : List β) : RepeatedKeys key l (repeats (l.filterMap key)) where
  nodup := repeats_go_nodup [] _
  mem_iff := by
    intro a
    rw [mem_repeats_iff, List.count_filterMap]
  order := repeats_go_order key [] l

end SecondOccurrence

def Diagnostic.closes (words : String) (d : Diagnostic) : Bool :=
  words.toList.isSuffixOf d.message.toList

theorem Diagnostic.closes_iff (words : String) (d : Diagnostic) :
    d.closes words = true ↔ words.toList <:+ d.message.toList :=
  List.isSuffixOf_iff_suffix

theorem Diagnostic.closes_of_message {d : Diagnostic} {s words : String}
    (h : d.message = s ++ words) : d.closes words = true := by
  rw [closes_iff, h, String.toList_append]
  exact List.suffix_append _ _

namespace Fault

inductive Origin where
  | values
  | entry
  | functions
  | definitions
  | recursion
deriving DecidableEq, Repr

def origin : Fault → Origin
  | .duplicateValue _ => .values
  | .missingEntry _ => .entry
  | .emptyBlock _ _ | .openBlock _ _ _ | .earlyTerminator _ _ _ | .undefinedParameter _ _
  | .undefinedReference _ _ _ _ => .functions
  | .multipleDefinition _ => .definitions
  | .recursion _ => .recursion

/-- The id that the fault finds undeclared. -/
def undeclared? : Fault → Option ValueId
  | .undefinedParameter _ id | .undefinedReference _ _ _ id => some id
  | _ => none

/-- Whether the letter can stand before the full stop of the message. -/
def closesWith (c : Char) : Fault → Bool
  | .duplicateValue _ | .missingEntry _ => c == 'e'
  | .emptyBlock _ _ => c == 'y'
  | .openBlock _ _ _ => c == ')'
  | .earlyTerminator _ _ _ | .recursion _ => c == '\''
  | .undefinedParameter _ _ | .undefinedReference _ _ _ _ => c.isDigit
  | .multipleDefinition _ => c == 'n'

end Fault

namespace Text

theorem reverse_append_words {t : String} {c : Char} {r : List Char}
    (h : t.toList.reverse = '.' :: c :: r) (s : String) :
    ∃ rest, (s ++ t).toList.reverse = '.' :: c :: rest := by
  refine ⟨r ++ s.toList.reverse, ?_⟩
  rw [String.toList_append, List.reverse_append, h]
  rfl

theorem isDigit_of_mem_toString (id : ValueId) (c : Char) (h : c ∈ (toString id).toList) :
    c.isDigit = true := by
  change c ∈ (Nat.repr id.toNat).toList at h
  rw [Nat.toList_repr] at h
  exact Nat.isDigit_of_mem_toDigits (by decide) (by decide) h

theorem reverse_append_id (s : String) (id : ValueId) :
    ∃ c rest, (s ++ toString id ++ ".").toList.reverse = '.' :: c :: rest ∧ c.isDigit = true := by
  have hne : (toString id).toList.reverse ≠ [] := by
    change (Nat.repr id.toNat).toList.reverse ≠ []
    rw [Nat.toList_repr, ne_eq, List.reverse_eq_nil_iff]
    exact Nat.toDigits_ne_nil
  obtain ⟨c, r, hr⟩ := List.exists_cons_of_ne_nil hne
  refine ⟨c, r ++ s.toList.reverse, ?_, ?_⟩
  · rw [String.toList_append, String.toList_append, List.reverse_append, List.reverse_append, hr]
    rfl
  · apply isDigit_of_mem_toString id c
    rw [← List.mem_reverse, hr]
    exact List.mem_cons_self

theorem digits_eq_of_suffix {a b ds es : List Char} (hd : ∀ c ∈ ds, c.isDigit = true)
    (he : ∀ c ∈ es, c.isDigit = true) (h : a ++ ' ' :: ds <:+ b ++ ' ' :: es) : ds = es := by
  have hcut {ds es u : List Char} (hd : ∀ c ∈ ds, c.isDigit = true)
      (hu : ' ' :: ds = u ++ ' ' :: es) : ds = es := by
    cases u with
    | nil => exact (List.cons.inj hu).2
    | cons c u =>
      have hmem : ' ' ∈ ds := by
        rw [(List.cons.inj hu).2]
        exact List.mem_append_right u List.mem_cons_self
      exact absurd (hd ' ' hmem) (by decide)
  obtain ⟨t, ht⟩ := h
  rw [← List.append_assoc] at ht
  rcases List.append_eq_append_iff.1 ht with ⟨u, -, hu⟩ | ⟨u, -, hu⟩
  · exact hcut hd hu
  · exact (hcut he hu).symm

end Text

namespace Fault

theorem message_reverse (f : Fault) :
    ∃ c rest, f.message.toList.reverse = '.' :: c :: rest ∧ f.closesWith c = true := by
  cases f with
  | duplicateValue id =>
    obtain ⟨rest, h⟩ := Text.reverse_append_words (t := " is declared more than once.") rfl _
    exact ⟨'e', rest, h, rfl⟩
  | missingEntry f =>
    obtain ⟨rest, h⟩ := Text.reverse_append_words (t := "' is not defined in the module.") rfl _
    exact ⟨'e', rest, h, rfl⟩
  | emptyBlock f b =>
    obtain ⟨rest, h⟩ := Text.reverse_append_words (t := "' is empty.") rfl _
    exact ⟨'y', rest, h, rfl⟩
  | openBlock f b op =>
    obtain ⟨rest, h⟩ := Text.reverse_append_words (t := "').") rfl _
    exact ⟨')', rest, h, rfl⟩
  | earlyTerminator f b op =>
    obtain ⟨rest, h⟩ := Text.reverse_append_words (t := "'.") rfl _
    exact ⟨'\'', rest, h, rfl⟩
  | undefinedParameter f id => exact Text.reverse_append_id _ id
  | undefinedReference f b op id => exact Text.reverse_append_id _ id
  | multipleDefinition id =>
    obtain ⟨rest, h⟩ :=
      Text.reverse_append_words (t := " is defined by more than one instruction.") rfl _
    exact ⟨'n', rest, h, rfl⟩
  | recursion f =>
    obtain ⟨rest, h⟩ := Text.reverse_append_words (t := "'.") rfl _
    exact ⟨'\'', rest, h, rfl⟩

theorem closesWith_of_closes {f : Fault} {words : String} {c : Char} {r : List Char}
    (hw : words.toList.reverse = '.' :: c :: r) (h : f.diagnostic.closes words = true) :
    f.closesWith c = true := by
  obtain ⟨d, rest, hd, hf⟩ := f.message_reverse
  have hs : words.toList <:+ f.diagnostic.message.toList :=
    (Diagnostic.closes_iff words f.diagnostic).1 h
  have hp : words.toList.reverse <+: f.message.toList.reverse := List.reverse_prefix.2 hs
  rw [hw, hd, List.cons_prefix_cons, List.cons_prefix_cons] at hp
  rw [hp.2.1]
  exact hf

theorem closes_declared (f : Fault) :
    f.diagnostic.closes " is declared more than once." = decide (f.origin = .values) := by
  rw [Bool.eq_iff_iff, decide_eq_true_eq]
  constructor
  · intro h
    have hc := closesWith_of_closes (c := 'e') rfl h
    cases f with
    | duplicateValue id => rfl
    | missingEntry name =>
      have hw := (Diagnostic.closes_iff _ _).1 h
      have hm : "' is not defined in the module.".toList <:+
          (missingEntry name).diagnostic.message.toList := by
        rw [← Diagnostic.closes_iff]
        exact Diagnostic.closes_of_message rfl
      rcases List.suffix_or_suffix_of_suffix hw hm with h' | h'
      · exact absurd h' (by decide)
      · exact absurd h' (by decide)
    | _ => simp [closesWith] at hc
  · intro h
    cases f with
    | duplicateValue id => exact Diagnostic.closes_of_message rfl
    | _ => cases h

theorem closes_defined (f : Fault) :
    f.diagnostic.closes " is defined by more than one instruction." =
      decide (f.origin = .definitions) := by
  rw [Bool.eq_iff_iff, decide_eq_true_eq]
  constructor
  · intro h
    have hc := closesWith_of_closes (c := 'n') rfl h
    cases f with
    | multipleDefinition id => rfl
    | _ => simp [closesWith] at hc
  · intro h
    cases f with
    | multipleDefinition id => exact Diagnostic.closes_of_message rfl
    | _ => cases h

theorem closes_reference_iff {d : Diagnostic} {s : String} {id : ValueId}
    (h : d.message = s ++ "' references undefined value " ++ toString id ++ ".") (x : ValueId) :
    d.closes s!" references undefined value {x}." = true ↔ id = x := by
  have hwords : s!" references undefined value {x}.".toList =
      (" references undefined value".toList ++ ' ' :: (toString x).toList) ++ ['.'] := by
    change (" references undefined value " ++ toString x ++ ".").toList = _
    simp [String.toList_append]
  have hmessage : d.message.toList =
      (s.toList ++ "' references undefined value".toList ++ ' ' :: (toString id).toList) ++
        ['.'] := by
    rw [h]
    simp [String.toList_append]
  rw [Diagnostic.closes_iff, hwords, hmessage]
  constructor
  · rintro ⟨t, ht⟩
    rw [← List.append_assoc] at ht
    have hdigits := Text.digits_eq_of_suffix (Text.isDigit_of_mem_toString x)
      (Text.isDigit_of_mem_toString id) ⟨t, List.append_cancel_right ht⟩
    change (Nat.repr x.toNat).toList = (Nat.repr id.toNat).toList at hdigits
    rw [Nat.toList_repr, Nat.toList_repr] at hdigits
    rw [← UInt32.toNat_inj, ← Nat.ofDigitChars_ten_toDigits (n := id.toNat), ← hdigits,
      Nat.ofDigitChars_ten_toDigits]
  · rintro rfl
    exact ⟨s.toList ++ ['\''], by simp⟩

theorem closes_undeclared (f : Fault) (x : ValueId) :
    f.diagnostic.closes s!" references undefined value {x}." = (f.undeclared? == some x) := by
  rw [Bool.eq_iff_iff, beq_iff_eq]
  obtain ⟨c, r, hw, hd⟩ := Text.reverse_append_id " references undefined value " x
  cases f with
  | undefinedParameter name id =>
    rw [closes_reference_iff rfl, undeclared?, Option.some.injEq]
  | undefinedReference name b op id =>
    rw [closes_reference_iff rfl, undeclared?, Option.some.injEq]
  | _ =>
    refine iff_of_false ?_ nofun
    intro h
    have hc := closesWith_of_closes hw h
    simp only [closesWith, beq_iff_eq] at hc
    subst hc
    exact absurd hd (by decide)

end Fault

theorem Block.of_mem_faults {function : String} {b : Block} {f : Fault}
    (h : f ∈ b.faults function) : f.origin = .functions ∧ f.undeclared? = none := by
  unfold faults at h
  split at h
  · rw [List.mem_singleton.1 h]
    exact ⟨rfl, rfl⟩
  · rcases List.mem_append.1 h with h | h
    · split at h
      · exact absurd h List.not_mem_nil
      · rw [List.mem_singleton.1 h]
        exact ⟨rfl, rfl⟩
    · obtain ⟨i, -, rfl⟩ := List.mem_map.1 h
      exact ⟨rfl, rfl⟩

namespace Function

def references (f : Function) : List ValueId :=
  f.parameters ++ f.instructions.flatMap Instruction.references

theorem origin_of_mem_faults {declared : List ValueId} {g : Function} {f : Fault}
    (h : f ∈ g.faults declared) : f.origin = .functions := by
  rcases List.mem_append.1 h with h | h
  · obtain ⟨b, -, hb⟩ := List.mem_flatMap.1 h
    exact (Block.of_mem_faults hb).1
  · rcases List.mem_append.1 h with h | h
    · obtain ⟨id, -, rfl⟩ := List.mem_map.1 h
      rfl
    · obtain ⟨b, -, hb⟩ := List.mem_flatMap.1 h
      obtain ⟨i, -, hi⟩ := List.mem_flatMap.1 hb
      obtain ⟨id, -, rfl⟩ := List.mem_map.1 hi
      rfl

theorem undeclared_faults (declared : List ValueId) (f : Function) :
    (f.faults declared).filterMap Fault.undeclared? =
      f.references.filter fun id => !declared.contains id := by
  have hblocks : f.blockFaults.filterMap Fault.undeclared? = [] := by
    rw [List.filterMap_eq_nil_iff]
    intro g hg
    obtain ⟨b, -, hb⟩ := List.mem_flatMap.1 hg
    exact (Block.of_mem_faults hb).2
  have hmap (k : ValueId → Fault) (hk : ∀ id, (k id).undeclared? = some id)
      (ids : List ValueId) : (ids.map k).filterMap Fault.undeclared? = ids := by
    rw [List.filterMap_map]
    exact (List.filterMap_congr fun id _ => hk id).trans List.filterMap_some
  have hbody : (f.blocks.flatMap (Block.referenceFaults declared f.name)).filterMap
        Fault.undeclared? =
      (f.instructions.flatMap Instruction.references).filter fun id => !declared.contains id := by
    have hids (b op : String) (ids : List ValueId) :
        (ids.map (Fault.undefinedReference f.name b op)).filterMap Fault.undeclared? = ids :=
      hmap _ (fun _ => rfl) ids
    simp only [Block.referenceFaults, List.filterMap_flatMap, List.filter_flatMap, instructions,
      List.flatMap_assoc, hids]
  rw [faults, List.filterMap_append, hblocks, List.nil_append, referenceFaults,
    List.filterMap_append, hmap _ fun _ => rfl, hbody, references, List.filter_append]

end Function

namespace Module

def part (m : Module) : Fault.Origin → List Fault
  | .values => m.duplicateFaults
  | .entry => m.entryFaults
  | .functions => m.functionFaults
  | .definitions => m.definitionFaults
  | .recursion => m.recursionFaults

theorem origin_of_mem_part {m : Module} {o : Fault.Origin} {f : Fault} (h : f ∈ m.part o) :
    f.origin = o := by
  cases o with
  | values =>
    obtain ⟨id, -, rfl⟩ := List.mem_map.1 h
    rfl
  | entry =>
    change f ∈ m.entryFaults at h
    unfold entryFaults at h
    split at h
    · exact absurd h List.not_mem_nil
    · split at h
      · exact absurd h List.not_mem_nil
      · rw [List.mem_singleton.1 h]
        rfl
  | functions =>
    obtain ⟨g, -, hg⟩ := List.mem_flatMap.1 h
    exact Function.origin_of_mem_faults hg
  | definitions =>
    obtain ⟨id, -, rfl⟩ := List.mem_map.1 h
    rfl
  | recursion =>
    obtain ⟨i, -, hi⟩ := List.mem_filterMap.1 h
    obtain ⟨g, -, rfl⟩ := Option.map_eq_some_iff.1 hi
    rfl

theorem faults_filter_origin (m : Module) (o : Fault.Origin) :
    m.faults.filter (fun f => decide (f.origin = o)) = m.part o := by
  have hpart (o' : Fault.Origin) : (m.part o').filter (fun f => decide (f.origin = o)) =
      if o' = o then m.part o' else [] := by
    split
    · next he =>
      rw [List.filter_eq_self]
      intro f hf
      rw [origin_of_mem_part hf, he]
      exact decide_eq_true rfl
    · next hne =>
      rw [List.filter_eq_nil_iff]
      intro f hf
      rw [origin_of_mem_part hf]
      simpa using hne
  have hfaults : m.faults = m.part .values ++ m.part .entry ++ m.part .functions ++
      m.part .definitions ++ m.part .recursion := rfl
  simp only [hfaults, List.filter_append, hpart]
  cases o <;> simp

theorem undeclared_part {m : Module} {o : Fault.Origin} (ho : o ≠ .functions) :
    (m.part o).filterMap Fault.undeclared? = [] := by
  rw [List.filterMap_eq_nil_iff]
  intro f hf
  have hf := origin_of_mem_part hf
  cases f with
  | undefinedParameter name id => exact absurd hf.symm ho
  | undefinedReference name b op id => exact absurd hf.symm ho
  | _ => rfl

theorem undeclared_faults (m : Module) :
    m.faults.filterMap Fault.undeclared? =
      (m.functions.flatMap Function.references).filter fun id => !m.declaredIds.contains id := by
  have hfaults : m.faults = m.part .values ++ m.part .entry ++ m.functionFaults ++
      m.part .definitions ++ m.part .recursion := rfl
  have hfunctions : m.functionFaults.filterMap Fault.undeclared? =
      (m.functions.flatMap Function.references).filter fun id => !m.declaredIds.contains id := by
    rw [functionFaults, List.filterMap_flatMap, List.filter_flatMap]
    exact List.flatMap_congr fun f _ => f.undeclared_faults m.declaredIds
  simp only [hfaults, List.filterMap_append, undeclared_part, ne_eq, reduceCtorEq,
    not_false_eq_true, List.nil_append, List.append_nil, hfunctions]

theorem count_references (m : Module) (id : ValueId) :
    (m.functions.flatMap Function.references).count id =
      (m.functions.flatMap Function.parameters).count id +
        (m.instructions.flatMap Instruction.operands).count id +
          (m.instructions.filterMap Instruction.result).count id := by
  have hf : ((m.functions.flatMap Function.parameters) ++
      m.instructions.flatMap Instruction.references).Perm
        (m.functions.flatMap Function.references) := by
    rw [instructions, List.flatMap_assoc]
    exact List.flatMap_append_perm m.functions _ _
  have hi : (m.instructions.flatMap Instruction.operands ++
      m.instructions.filterMap Instruction.result).Perm
        (m.instructions.flatMap Instruction.references) := by
    rw [List.filterMap_eq_flatMap_toList]
    exact List.flatMap_append_perm m.instructions _ _
  rw [← hf.count_eq, List.count_append, ← hi.count_eq, List.count_append, Nat.add_assoc]

theorem check_filter_eq {m : Module} {words : String} {o : Fault.Origin}
    (h : ∀ f : Fault, f.diagnostic.closes words = decide (f.origin = o)) :
    m.check.filter (Diagnostic.closes words) = (m.part o).map Fault.diagnostic := by
  rw [check, List.filter_map, ← m.faults_filter_origin o]
  congr 1
  exact List.filter_congr fun f _ => h f

theorem check_countP_undeclared (m : Module) (id : ValueId) :
    m.check.countP (Diagnostic.closes s!" references undefined value {id}.") =
      if id ∈ m.declaredIds then 0 else (m.functions.flatMap Function.references).count id := by
  have hcount : m.check.countP (Diagnostic.closes s!" references undefined value {id}.") =
      (m.faults.filterMap Fault.undeclared?).count id := by
    rw [check, List.countP_map, List.count_filterMap]
    apply List.countP_congr
    intro f _
    rw [Function.comp_apply, f.closes_undeclared id]
  rw [hcount, undeclared_faults]
  split
  · next h =>
    rw [List.count_eq_zero, List.mem_filter]
    simp [h]
  · next h => exact List.count_filter (by simpa using h)

/-- The findings on ids, read off the report by their wording: one for each id declared at least
twice and for each id defined at least twice, in the order of second occurrences, and as many for an
id that is not declared as there are references to it. -/
theorem id_findings_exact (m : Module) :
    (∃ ids, (m.check.filter (Diagnostic.closes " is declared more than once.")).map
          Diagnostic.message = ids.map (fun id => s!"Value id {id} is declared more than once.") ∧
        RepeatedKeys (fun v => some v.id) m.values ids) ∧
    (∃ ids, (m.check.filter (Diagnostic.closes " is defined by more than one instruction.")).map
          Diagnostic.message =
            ids.map (fun id => s!"Value {id} is defined by more than one instruction.") ∧
        RepeatedKeys Instruction.result m.instructions ids) ∧
    ∀ id, m.check.countP (Diagnostic.closes s!" references undefined value {id}.") =
      if id ∈ m.values.map Value.id then 0
      else (m.functions.flatMap Function.parameters).count id +
        (m.instructions.flatMap Instruction.operands).count id +
          (m.instructions.filterMap Instruction.result).count id := by
  refine ⟨⟨repeats m.declaredIds, ?_, ?_⟩, ⟨repeats m.definedIds, ?_, ?_⟩, ?_⟩
  · rw [check_filter_eq Fault.closes_declared, part, duplicateFaults, List.map_map, List.map_map]
    rfl
  · have h := repeatedKeys_repeats (fun v => some v.id) m.values
    rwa [List.filterMap_eq_map'] at h
  · rw [check_filter_eq Fault.closes_defined, part, definitionFaults, List.map_map, List.map_map]
    rfl
  · exact repeatedKeys_repeats Instruction.result m.instructions
  · intro id
    rw [check_countP_undeclared, count_references]
    rfl

end Module

end ShaderLegalizer
