import Mathlib.Data.List.Infix
import Mathlib.Data.String.Basic
import ShaderLegalizer.Module
import ShaderLegalizer.Proofs.Spelling

set_option autoImplicit false

namespace ShaderLegalizer.Text

theorem ofNat_eq_ofNat_iff {m n : Nat} (hm : m < UInt8.size) (hn : n < UInt8.size) :
    UInt8.ofNat m = UInt8.ofNat n ↔ m = n := by
  rw [← UInt8.toNat_inj, UInt8.toNat_ofNat_of_lt' hm, UInt8.toNat_ofNat_of_lt' hn]

theorem encode_append_lt {c d : Char} (h : c < d) (x y : List UInt8) :
    String.utf8EncodeChar c ++ x < String.utf8EncodeChar d ++ y := by
  have hv : c.val.toNat < d.val.toNat := h
  have hd : d.val.toNat < 0x110000 := by
    have hvalid := d.valid
    omega
  have hsize : UInt8.size = 256 := rfl
  simp only [String.utf8EncodeChar]
  generalize c.val.toNat = m at *
  generalize d.val.toNat = n at *
  have h2 (k : Nat) : k / 4096 = k / 64 / 64 := by omega
  have h3 (k : Nat) : k / 262144 = k / 64 / 64 / 64 := by omega
  simp only [h2, h3]
  -- of two lengths the first byte decides, of one length the first group that differs
  split_ifs <;>
    simp (disch := omega) only [List.cons_append, List.nil_append, List.cons_lt_cons_iff,
      UInt8.ofNat_lt_iff_lt, ofNat_eq_ofNat_iff] <;>
    omega

theorem eq_of_encode_append_eq {c d : Char} {x y : List UInt8}
    (h : String.utf8EncodeChar c ++ x = String.utf8EncodeChar d ++ y) : c = d := by
  by_contra hne
  rcases lt_or_gt_of_ne hne with hlt | hlt
  · have hb := encode_append_lt hlt x y
    rw [h] at hb
    exact List.lt_irrefl _ hb
  · have hb := encode_append_lt hlt y x
    rw [h] at hb
    exact List.lt_irrefl _ hb

theorem bytes_cons (c : Char) (cs : List Char) :
    bytes (c :: cs) = String.utf8EncodeChar c ++ bytes cs :=
  List.flatMap_cons

theorem bytes_append (cs ds : List Char) : bytes (cs ++ ds) = bytes cs ++ bytes ds :=
  List.flatMap_append

theorem length_bytes_cons (c : Char) (cs : List Char) :
    (bytes (c :: cs)).length = c.utf8Size + (bytes cs).length := by
  rw [bytes_cons, List.length_append, String.length_utf8EncodeChar]

theorem bytes_cons_ne_nil (c : Char) (cs : List Char) : bytes (c :: cs) ≠ [] := by
  apply List.ne_nil_of_length_pos
  rw [length_bytes_cons]
  exact Nat.add_pos_left c.utf8Size_pos _

theorem bytes_eq_nil_iff (cs : List Char) : bytes cs = [] ↔ cs = [] := by
  cases cs with
  | nil => exact iff_of_true rfl rfl
  | cons c cs => exact iff_of_false (bytes_cons_ne_nil c cs) (List.cons_ne_nil c cs)

theorem bytes_prefix_iff (cs ds : List Char) : bytes cs <+: bytes ds ↔ cs <+: ds := by
  constructor
  · intro h
    induction cs generalizing ds with
    | nil => exact List.nil_prefix
    | cons c cs ih =>
      cases ds with
      | nil => exact absurd (List.prefix_nil.1 h) (bytes_cons_ne_nil c cs)
      | cons d ds =>
        rw [bytes_cons, bytes_cons] at h
        have hcd : c = d := by
          obtain ⟨t, ht⟩ := h
          rw [List.append_assoc] at ht
          exact eq_of_encode_append_eq ht
        subst hcd
        rw [List.prefix_append_right_inj] at h
        exact (List.prefix_cons_inj c).2 (ih ds h)
  · rintro ⟨t, rfl⟩
    exact ⟨bytes t, (bytes_append cs t).symm⟩

theorem bytes_lt_of_lt {cs ds : List Char} (h : cs < ds) : bytes cs < bytes ds := by
  induction cs generalizing ds with
  | nil =>
    cases ds with
    | nil => exact absurd h (List.lt_irrefl _)
    | cons d ds =>
      obtain ⟨b, bs, hb⟩ := List.exists_cons_of_ne_nil (bytes_cons_ne_nil d ds)
      rw [hb]
      exact List.nil_lt_cons b bs
  | cons c cs ih =>
    cases ds with
    | nil => exact absurd h (List.not_lt_nil _)
    | cons d ds =>
      rw [bytes_cons, bytes_cons]
      rcases List.cons_lt_cons_iff.1 h with hlt | ⟨rfl, hlt⟩
      · exact encode_append_lt hlt _ _
      · exact List.append_left_lt (ih hlt)

theorem bytes_lt_iff (s t : String) : bytes s.toList < bytes t.toList ↔ s < t := by
  refine ⟨?_, fun h => bytes_lt_of_lt (String.lt_iff.1 h)⟩
  intro h
  rcases lt_trichotomy s t with hst | rfl | hts
  · exact hst
  · exact absurd h (List.lt_irrefl _)
  · exact absurd (bytes_lt_of_lt (String.lt_iff.1 hts)) (List.lt_asymm h)

theorem length_bytes_fold (s : String) : (bytes (fold s)).length = (bytes s.toList).length := by
  rw [fold, bytes_map_toLower, List.length_map]

theorem bytesOpenWith_iff (s word : String) :
    bytesOpenWith s word = true ↔ fold word <+: fold s := by
  rw [← bytes_prefix_iff, List.prefix_iff_eq_take, length_bytes_fold, fold, fold,
    bytes_map_toLower, bytes_map_toLower, ← List.map_take]
  simp only [bytesOpenWith, Bool.and_eq_true, beq_iff_eq]
  constructor
  · exact fun h => h.2.symm
  · intro h
    have hl := congrArg List.length h
    rw [List.length_map, List.length_map] at hl
    exact ⟨hl.symm, h.symm⟩

/-- A cut gives the leading characters that fill the bytes asked for, and fails only if no
characters do. -/
theorem cutAt?_eq_some_iff (n : Nat) (cs head : List Char) :
    cutAt? n cs = some head ↔ head <+: cs ∧ (bytes head).length = n := by
  fun_induction cutAt? n cs generalizing head with
  | case1 cs =>
    rw [Option.some.injEq, List.length_eq_zero_iff, bytes_eq_nil_iff]
    constructor
    · rintro rfl
      exact ⟨List.nil_prefix, rfl⟩
    · exact fun h => h.2.symm
  | case2 n =>
    rw [List.prefix_nil]
    refine iff_of_false (fun h => by cases h) ?_
    rintro ⟨rfl, h⟩
    cases h
  | case3 n c cs hc ih =>
    rw [Option.map_eq_some_iff]
    constructor
    · rintro ⟨t, ht, rfl⟩
      obtain ⟨hp, hl⟩ := (ih t).1 ht
      refine ⟨(List.prefix_cons_inj c).2 hp, ?_⟩
      rw [length_bytes_cons]
      omega
    · rintro ⟨hp, hl⟩
      rcases List.prefix_cons_iff.1 hp with rfl | ⟨t, rfl, ht⟩
      · cases hl
      · rw [length_bytes_cons] at hl
        exact ⟨t, (ih t).2 ⟨ht, by omega⟩, rfl⟩
  | case4 n c cs hc =>
    refine iff_of_false (fun h => by cases h) ?_
    rintro ⟨hp, hl⟩
    rcases List.prefix_cons_iff.1 hp with rfl | ⟨t, rfl, ht⟩
    · cases hl
    · rw [length_bytes_cons] at hl
      omega

theorem exists_head_of_prefix {s word : String} (h : fold word <+: fold s) :
    ∃ head, head <+: s.toList ∧ head.map Char.toLower = fold word ∧
      (bytes head).length = (bytes word.toList).length := by
  obtain ⟨t, ht⟩ := h
  obtain ⟨head, tail, hs, hhead, -⟩ := List.map_eq_append_iff.1 ht.symm
  refine ⟨head, ⟨tail, hs.symm⟩, hhead, ?_⟩
  rw [← length_bytes_fold word, ← hhead, bytes_map_toLower, List.length_map]

theorem cutOpensWith_iff (s word : String) : cutOpensWith s word = true ↔ fold word <+: fold s := by
  unfold cutOpensWith
  constructor
  · intro h
    split at h
    · next head hc =>
      have hp := ((cutAt?_eq_some_iff _ _ head).1 hc).1
      have hw : head.map Char.toLower = fold word := beq_iff_eq.1 h
      rw [← hw]
      exact hp.map Char.toLower
    · cases h
  · intro h
    obtain ⟨head, hp, hw, hl⟩ := exists_head_of_prefix h
    rw [(cutAt?_eq_some_iff _ _ head).2 ⟨hp, hl⟩]
    exact beq_iff_eq.2 hw

/-- A character stands across the cut after `n` bytes, or the text ends before it. -/
def Straddled (n : Nat) (s : String) : Prop :=
  ∀ head, head <+: s.toList → (bytes head).length ≠ n

theorem not_prefix_of_straddled {s word : String} (h : Straddled (bytes word.toList).length s) :
    ¬ fold word <+: fold s := by
  intro hp
  obtain ⟨head, hs, -, hl⟩ := exists_head_of_prefix hp
  exact h head hs hl

theorem bytesOpenWith_of_straddled (s word : String)
    (h : Straddled (bytes word.toList).length s) : bytesOpenWith s word = false := by
  rw [← Bool.not_eq_true, bytesOpenWith_iff]
  exact not_prefix_of_straddled h

theorem cutOpensWith_of_straddled (s word : String)
    (h : Straddled (bytes word.toList).length s) : cutOpensWith s word = false := by
  rw [← Bool.not_eq_true, cutOpensWith_iff]
  exact not_prefix_of_straddled h

theorem fold_prefix_iff (s word : String) :
    fold word <+: fold s ↔ (s.toList.take (fold word).length).map Char.toLower = fold word := by
  rw [List.prefix_iff_eq_take, List.map_take]
  exact eq_comm

end ShaderLegalizer.Text

namespace ShaderLegalizer

theorem Value.hasSystemSemantic_eq {v : Value} {s : String} (h : v.semantic = some s) :
    v.hasSystemSemantic = Text.bytesOpenWith s "sv_" := by
  rw [hasSystemSemantic, h, Option.any_some]

/-- The byte tests on semantics and on resource names, for every text: each answers yes exactly if
the first characters of the text spell the word up to ASCII case, and no wherever a character
stands across the cut. -/
theorem byte_tests_read_characters (s : String) :
    (∀ v : Value, v.semantic = some s →
      (v.hasSystemSemantic = true ↔ (s.toList.take 3).map Char.toLower = ['s', 'v', '_']) ∧
      (Text.Straddled 3 s → v.hasSystemSemantic = false)) ∧
    (Text.cutOpensWith s "color" = true ↔
      (s.toList.take 5).map Char.toLower = ['c', 'o', 'l', 'o', 'r']) ∧
    (Text.Straddled 5 s → Text.cutOpensWith s "color" = false) := by
  refine ⟨?_, ?_, Text.cutOpensWith_of_straddled s "color"⟩
  · intro v hv
    rw [Value.hasSystemSemantic_eq hv]
    exact ⟨(Text.bytesOpenWith_iff s "sv_").trans (Text.fold_prefix_iff s "sv_"),
      Text.bytesOpenWith_of_straddled s "sv_"⟩
  · exact (Text.cutOpensWith_iff s "color").trans (Text.fold_prefix_iff s "color")

theorem byte_tests_read_characters_accented :
    ({ semantic := some "Sv_é" : Value }).hasSystemSemantic = true ∧
      Text.Straddled 5 "COLOé" ∧ Text.cutOpensWith "COLOé" "color" = false := by
  have h : Text.Straddled 5 "COLOé" := by
    intro head hp
    have hall : ∀ head ∈ "COLOé".toList.inits, (Text.bytes head).length ≠ 5 := by decide
    exact hall head (List.mem_inits head _ |>.2 hp)
  exact ⟨(((byte_tests_read_characters "Sv_é").1 _ rfl).1).2 (by decide), h,
    (byte_tests_read_characters "COLOé").2.2 h⟩

end ShaderLegalizer
