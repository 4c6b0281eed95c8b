import Mathlib.Data.List.TakeWhile
import ShaderLegalizer.Json.Token

set_option autoImplicit false

namespace ShaderLegalizer.Json

namespace Escape

def pieceOf (c : Char) : Piece :=
  if (letter? c).isNone ∧ c.toNat < 0x20 then .unit c.toNat else .char c

theorem hexValue?_hexDigit (n : Nat) (h : n < 16) : hexValue? (hexDigit n) = some n := by
  revert n
  decide

theorem unit?_control (n : Nat) (h : n < 0x20) :
    unit? '0' '0' (hexDigit (n / 16)) (hexDigit (n % 16)) = some (.unit n) := by
  have hz : hexValue? '0' = some 0 := by decide
  have hd := hexValue?_hexDigit (n / 16) (by omega)
  have hm := hexValue?_hexDigit (n % 16) (by omega)
  simp only [unit?, hz, hd, hm, Option.bind_eq_bind, Option.bind_some, Option.pure_def]
  congr 2
  omega

theorem ofLetter?_of_letter? {c l : Char} (h : letter? c = some l) :
    ofLetter? l = some c ∧ l ≠ 'u' := by
  unfold letter? at h
  split at h <;> cases h <;> decide

theorem pieces?_letter {c l : Char} (hl : ofLetter? l = some c) (hu : l ≠ 'u')
    (rest : List Char) : pieces? ('\\' :: l :: rest) = (pieces? rest).map (.char c :: ·) := by
  cases hp : pieces? rest <;> simp [pieces?, hl, hu, hp]

theorem pieces?_plain {c : Char} (hb : c ≠ '\\') (hc : ¬ c.toNat < 0x20) (rest : List Char) :
    pieces? (c :: rest) = (pieces? rest).map (.char c :: ·) := by
  rw [pieces?]
  · rw [if_neg (by simp [hb, hc])]
  · intro _ _ _ _ _ h
    exact absurd h hb
  · intro _ _ h
    exact absurd h hb

theorem pieces?_encodeChar (c : Char) (rest : List Char) :
    pieces? (encodeChar c ++ rest) = (pieces? rest).map (pieceOf c :: ·) := by
  unfold encodeChar pieceOf
  cases hl : letter? c with
  | some l =>
    obtain ⟨ho, hu⟩ := ofLetter?_of_letter? hl
    simpa using pieces?_letter ho hu rest
  | none =>
    by_cases hc : c.toNat < 0x20
    · cases hp : pieces? rest <;> simp [pieces?, hc, hp, unit?_control]
    · have hb : c ≠ '\\' := by
        rintro rfl
        simp [letter?] at hl
      simpa [hc] using pieces?_plain hb hc rest

theorem pieces?_encode (s : List Char) : pieces? (encode s) = some (s.map pieceOf) := by
  induction s with
  | nil => rfl
  | cons c s ih =>
    change pieces? (encodeChar c ++ encode s) = _
    rw [pieces?_encodeChar, ih]
    rfl

theorem join?_pieceOf (c : Char) (ps : List Piece) :
    join? (pieceOf c :: ps) = (join? ps).map (c :: ·) := by
  unfold pieceOf
  split
  · next h =>
    have hs : isHighSurrogate c.toNat = false ∧ isLowSurrogate c.toNat = false := by
      simp only [isHighSurrogate, isLowSurrogate, Bool.and_eq_false_iff, decide_eq_false_iff_not]
      omega
    cases ps with
    | nil => simp [join?, hs]
    | cons p ps =>
      cases p with
      | char d => simp [join?, hs]
      | unit n => simp [join?, hs]
  · rfl

theorem decode?_encode (s : List Char) : decode? (encode s) = some s := by
  unfold decode?
  rw [pieces?_encode]
  change join? (s.map pieceOf) = some s
  induction s with
  | nil => rfl
  | cons c s ih =>
    rw [List.map_cons, join?_pieceOf, ih]
    rfl

end Escape

theorem toDigits_head (n : Nat) (h : 0 < n) :
    ∃ c cs, Nat.toDigits 10 n = c :: cs ∧ c ≠ '0' := by
  induction n using Nat.strongRecOn with
  | ind n ih =>
    by_cases hn : n < 10
    · refine ⟨n.digitChar, [], Nat.toDigits_of_lt_base hn, ?_⟩
      rw [ne_eq, Nat.digitChar_eq_zero]
      omega
    · obtain ⟨c, cs, hc, hne⟩ := ih (n / 10) (by omega) (by omega)
      refine ⟨c, cs ++ [(n % 10).digitChar], ?_, hne⟩
      rw [Nat.toDigits_of_base_le (by decide) (by omega), hc]
      rfl

theorem isWhole_toDigits (n : Nat) : Literal.isWhole (Nat.toDigits 10 n) = true := by
  by_cases hn : n = 0
  · subst hn
    rfl
  · obtain ⟨c, cs, hc, hne⟩ := toDigits_head n (by omega)
    rw [hc]
    cases cs with
    | nil => simp [Literal.isWhole, hne]
    | cons d cs => simp [Literal.isWhole, hne]

theorem isDigit_of_mem_toDigits (n : Nat) (c : Char) (h : c ∈ Nat.toDigits 10 n) :
    c.isDigit = true :=
  Nat.isDigit_of_mem_toDigits (by decide) (by decide) h

theorem ofText?_digits (negative : Bool) (ds : List Char) (hw : Literal.isWhole ds = true)
    (hd : ∀ c ∈ ds, c.isDigit = true) :
    Literal.ofText? (if negative then '-' :: ds else ds) = some ⟨negative, ds, none, none⟩ := by
  have ht : ds.takeWhile Char.isDigit = ds := List.takeWhile_eq_self_iff.2 hd
  have hr : ds.dropWhile Char.isDigit = [] := List.dropWhile_eq_nil_iff.2 hd
  cases negative with
  | true => simp [Literal.ofText?, ht, hr, hw, Literal.takeFraction?, Literal.power?]
  | false =>
    cases ds with
    | nil => cases hw
    | cons c cs =>
      have hc : c ≠ '-' := by
        rintro rfl
        exact absurd (hd '-' List.mem_cons_self) (by decide)
      simp [Literal.ofText?, ht, hr, hw, hc, Literal.takeFraction?, Literal.power?]

/-- The integers that a literal can hold. -/
def Number.Readable : Number → Prop
  | .integer n => -0x8000000000000000 ≤ n ∧ n ≤ 0xFFFFFFFFFFFFFFFF
  | .real _ _ => False

theorem number_text_eq (n : Int) :
    (Number.integer n).text =
      if decide (n < 0) then '-' :: Nat.toDigits 10 n.natAbs else Nat.toDigits 10 n.natAbs := by
  simp only [Number.text, decide_eq_true_eq]

theorem ofText?_text (n : Number) (h : n.Readable) : Number.ofText? n.text = some n := by
  cases n with
  | real negative magnitude => exact h.elim
  | integer n =>
    have hl := ofText?_digits (decide (n < 0)) (Nat.toDigits 10 n.natAbs)
      (isWhole_toDigits n.natAbs) (isDigit_of_mem_toDigits n.natAbs)
    rw [← number_text_eq] at hl
    unfold Number.ofText?
    rw [hl]
    have hv : digitsValue (Nat.toDigits 10 n.natAbs) = n.natAbs := Nat.ofDigitChars_ten_toDigits
    change Literal.number? _ = _
    simp only [Number.Readable] at h
    by_cases hn : n < 0
    · have hi : Literal.integer? ⟨true, Nat.toDigits 10 n.natAbs, none, none⟩ = some n := by
        have hr : 0 < n.natAbs ∧ n.natAbs ≤ 0x8000000000000000 := by omega
        have hs : Int.negOfNat n.natAbs = n := by
          rw [Int.negOfNat_eq, Int.ofNat_eq_natCast]
          omega
        simp only [Literal.integer?, hv, if_pos hr, if_true, hs]
      simp [Literal.number?, hn, hi]
    · have hi : Literal.integer? ⟨false, Nat.toDigits 10 n.natAbs, none, none⟩ = some n := by
        have hr : n.natAbs ≤ 0xFFFFFFFFFFFFFFFF := by omega
        have hs : (n.natAbs : Int) = n := by omega
        simp only [Literal.integer?, hv, if_pos hr, Bool.false_eq_true, if_false, hs]
      simp [Literal.number?, hn, hi]

theorem text_word (n : Number) (h : n.Readable) :
    n.text ≠ [] ∧ ∀ c ∈ n.text, c.isDigit = true ∨ c = '-' := by
  cases n with
  | real negative magnitude => exact h.elim
  | integer n =>
    have hd := isDigit_of_mem_toDigits n.natAbs
    rw [number_text_eq]
    split
    · refine ⟨by simp, ?_⟩
      intro c hc
      rcases List.mem_cons.1 hc with hc | hc
      · exact .inr hc
      · exact .inl (hd c hc)
    · exact ⟨Nat.toDigits_ne_nil, fun c hc => .inl (hd c hc)⟩

theorem endsWord_eq_false {c : Char} (h : c.isDigit = true ∨ c = '-') :
    Token.endsWord c = false := by
  rcases h with h | rfl
  · have hn := Char.isDigit_iff_toNat.1 h
    have hne (d : Char) (hd : d.toNat < 48 ∨ 57 < d.toNat) : c ≠ d := by
      rintro rfl
      change 48 ≤ c.toNat ∧ c.toNat ≤ 57 at hn
      omega
    simp [Token.endsWord, Token.isSpace, Token.ofPunctuation?, hne ' ', hne '\t', hne '\n',
      hne '\r', hne '"', hne '\x7b', hne '\x7d', hne '[', hne ']', hne ':', hne ',']
  · decide

theorem ofWord?_text (n : Number) (h : n.Readable) : Token.ofWord? n.text = some (.num n) := by
  have hw := text_word n h
  have hne (word : List Char) (hword : ∃ c ∈ word, c.isDigit = false ∧ c ≠ '-') :
      n.text ≠ word := by
    rintro rfl
    obtain ⟨c, hc, hd, hm⟩ := hword
    rcases hw.2 c hc with hc | hc
    · rw [hd] at hc
      cases hc
    · exact hm hc
  rw [Token.ofWord?, if_neg (hne _ ⟨'n', by decide⟩), if_neg (hne _ ⟨'t', by decide⟩),
    if_neg (hne _ ⟨'f', by decide⟩), ofText?_text n h]
  rfl

end ShaderLegalizer.Json
