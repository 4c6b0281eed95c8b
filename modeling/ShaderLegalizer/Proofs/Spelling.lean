import Mathlib.Data.List.Basic
import ShaderLegalizer.Text.Fold
import ShaderLegalizer.Text.Utf8

set_option autoImplicit false

namespace ShaderLegalizer.Text

def folded (s : String) : String :=
  String.ofList (fold s)

theorem toList_folded (s : String) : (folded s).toList = s.toList.map Char.toLower := by
  rw [folded, String.toList_ofList]
  rfl

theorem toNat_toLower (c : Char) :
    c.toLower.toNat = if 65 ≤ c.toNat ∧ c.toNat ≤ 90 then c.toNat + 32 else c.toNat := by
  have hc : (c.val ≥ 'A'.val ∧ c.val ≤ 'Z'.val) ↔ 65 ≤ c.toNat ∧ c.toNat ≤ 90 := by
    rw [ge_iff_le, UInt32.le_iff_toNat_le, UInt32.le_iff_toNat_le]
    rfl
  unfold Char.toLower
  split
  · next h =>
    have hlt : c.toNat ≤ 90 := (hc.1 h).2
    rw [if_pos (hc.1 h)]
    change (c.val + ('a'.val - 'A'.val)).toNat = c.toNat + 32
    rw [UInt32.toNat_add]
    change (c.toNat + 32) % 2 ^ 32 = c.toNat + 32
    omega
  · next h => rw [if_neg fun h' => h (hc.2 h')]

theorem toLower_toLower (c : Char) : c.toLower.toLower = c.toLower := by
  rw [← Char.toNat_inj, toNat_toLower, toNat_toLower]
  split_ifs <;> omega

theorem map_toLower_map_toLower (cs : List Char) :
    (cs.map Char.toLower).map Char.toLower = cs.map Char.toLower := by
  rw [List.map_map]
  exact List.map_congr_left fun c _ => toLower_toLower c

theorem fold_folded (s : String) : fold (folded s) = fold s := by
  rw [fold, toList_folded, map_toLower_map_toLower]
  rfl

theorem folded_folded (s : String) : folded (folded s) = folded s := by
  rw [folded, fold_folded, folded]

theorem sameName_folded (s t : String) : sameName (folded s) t = sameName s t := by
  rw [sameName, sameName, fold_folded]

theorem mentions_folded (s word : String) : mentions (folded s) word = mentions s word :=
  mentions_congr _ _ word (fold_folded s)

theorem opensWith_folded (s word : String) : opensWith (folded s) word = opensWith s word := by
  rw [opensWith, opensWith, fold_folded]

/-- A character that is no letter is made neither from another nor into another. -/
theorem toLower_beq (c d : Char) (hu : ¬ (65 ≤ d.toNat ∧ d.toNat ≤ 90))
    (hl : ¬ (97 ≤ d.toNat ∧ d.toNat ≤ 122)) : (c.toLower == d) = (c == d) := by
  rw [Bool.eq_iff_iff, beq_iff_eq, beq_iff_eq, ← Char.toNat_inj, ← Char.toNat_inj, toNat_toLower]
  split <;> omega

theorem lowerByte_capital (n : Nat) (h : 65 ≤ n ∧ n ≤ 90) :
    lowerByte (UInt8.ofNat n) = UInt8.ofNat (n + 32) := by
  have hn : (UInt8.ofNat n).toNat = n := Nat.mod_eq_of_lt (by omega)
  rw [lowerByte, if_pos, UInt8.ofNat_add]
  · rfl
  · simpa [UInt8.le_iff_toNat_le, hn] using h

theorem lowerByte_other (n : Nat) (hn : n < 256) (h : ¬ (65 ≤ n ∧ n ≤ 90)) :
    lowerByte (UInt8.ofNat n) = UInt8.ofNat n := by
  have hv : (UInt8.ofNat n).toNat = n := Nat.mod_eq_of_lt hn
  rw [lowerByte, if_neg]
  simpa [UInt8.le_iff_toNat_le, hv] using h

theorem lowerByte_lowerByte (b : UInt8) : lowerByte (lowerByte b) = lowerByte b := by
  have hb : UInt8.ofNat b.toNat = b := UInt8.ofNat_toNat
  have hlt := b.toNat_lt
  rw [← hb]
  by_cases h : 65 ≤ b.toNat ∧ b.toNat ≤ 90
  · rw [lowerByte_capital _ h, lowerByte_other _ (by omega) (by omega)]
  · rw [lowerByte_other _ hlt h, lowerByte_other _ hlt h]

theorem encode_toLower (c : Char) :
    String.utf8EncodeChar c.toLower = (String.utf8EncodeChar c).map lowerByte := by
  have hl : c.toLower.val.toNat =
      if 65 ≤ c.val.toNat ∧ c.val.toNat ≤ 90 then c.val.toNat + 32 else c.val.toNat :=
    toNat_toLower c
  by_cases h : 65 ≤ c.val.toNat ∧ c.val.toNat ≤ 90
  · simp only [String.utf8EncodeChar, hl, if_pos h]
    rw [if_pos (by omega), if_pos (by omega), List.map_singleton, lowerByte_capital _ h]
  · simp only [String.utf8EncodeChar, hl, if_neg h]
    split_ifs <;> simp (disch := omega) only [List.map_cons, List.map_nil, lowerByte_other]

theorem utf8Size_toLower (c : Char) : c.toLower.utf8Size = c.utf8Size := by
  rw [← String.length_utf8EncodeChar, encode_toLower, List.length_map,
    String.length_utf8EncodeChar]

theorem bytes_map_toLower (cs : List Char) :
    bytes (cs.map Char.toLower) = (bytes cs).map lowerByte := by
  rw [bytes, bytes, List.flatMap_map, List.map_flatMap]
  exact List.flatMap_congr fun c _ => encode_toLower c

theorem bytesOpenWith_folded (s word : String) :
    bytesOpenWith (folded s) word = bytesOpenWith s word := by
  have hb : lowerByte ∘ lowerByte = lowerByte := funext lowerByte_lowerByte
  simp only [bytesOpenWith, toList_folded, bytes_map_toLower, ← List.map_take, List.length_map,
    List.map_map, hb]

theorem cutAt?_map_toLower (n : Nat) (cs : List Char) :
    cutAt? n (cs.map Char.toLower) = (cutAt? n cs).map (List.map Char.toLower) := by
  fun_induction cutAt? n cs with
  | case1 cs => rw [cutAt?, Option.map_some, List.map_nil]
  | case2 n => rfl
  | case3 n c cs h ih =>
    rw [List.map_cons, cutAt?, utf8Size_toLower, if_pos h, ih, Option.map_map, Option.map_map]
    rfl
  | case4 n c cs h =>
    rw [List.map_cons, cutAt?, utf8Size_toLower, if_neg h]
    rfl

theorem cutOpensWith_folded (s word : String) :
    cutOpensWith (folded s) word = cutOpensWith s word := by
  rw [cutOpensWith, cutOpensWith, toList_folded, cutAt?_map_toLower]
  cases cutAt? (bytes word.toList).length s.toList with
  | none => rfl
  | some head => simp only [Option.map_some, map_toLower_map_toLower]

end ShaderLegalizer.Text
