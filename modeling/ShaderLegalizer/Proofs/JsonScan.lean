import ShaderLegalizer.Json.Printer
import ShaderLegalizer.Proofs.JsonLeaf

set_option autoImplicit false

namespace ShaderLegalizer.Json

theorem foldlM_bind_eq {σ τ ρ : Type} (step : σ → τ → Option σ) (result : σ → Option ρ)
    (run : σ → List τ → Option ρ) (hnil : ∀ st, run st [] = result st)
    (hcons : ∀ st t ts, run st (t :: ts) = (step st t).bind fun next => run next ts)
    (ts : List τ) (st : σ) : (ts.foldlM step st).bind result = run st ts := by
  induction ts generalizing st with
  | nil => exact (hnil st).symm
  | cons t ts ih =>
    rw [List.foldlM_cons, hcons]
    cases step st t with
    | none => rfl
    | some next => exact ih next

namespace Scan

def run (st : Scan) : List Char → Option (List Token)
  | [] => st.finish?
  | c :: cs => (st.step c).bind fun next => next.run cs

theorem tokens?_eq_run (text : List Char) : tokens? text = start.run text :=
  foldlM_bind_eq step finish? run (fun _ => rfl) (fun _ _ _ => rfl) text start

/-- A word at the end of the text before would end here. -/
def Delimited (cs : List Char) : Prop :=
  ∀ c ∈ cs.head?, Token.endsWord c = true

theorem run_space (ts : List Token) (c : Char) (rest : List Char) (h : Token.isSpace c = true) :
    run ⟨ts, .between⟩ (c :: rest) = run ⟨ts, .between⟩ rest := by
  simp [run, step, fresh, h]

theorem run_newline (ts : List Token) (level : Nat) (rest : List Char) :
    run ⟨ts, .between⟩ (newline level ++ rest) = run ⟨ts, .between⟩ rest := by
  have h (n : Nat) : run ⟨ts, .between⟩ (List.replicate n ' ' ++ rest) =
      run ⟨ts, .between⟩ rest := by
    induction n with
    | zero => rfl
    | succ n ih =>
      rw [List.replicate_succ, List.cons_append, run_space _ _ _ (by decide), ih]
  rw [newline, List.cons_append, run_space _ _ _ (by decide), h]

theorem run_punctuation (ts : List Token) (c : Char) (t : Token) (rest : List Char)
    (h : Token.ofPunctuation? c = some t) :
    run ⟨ts, .between⟩ (c :: rest) = run ⟨t :: ts, .between⟩ rest := by
  have hc : Token.isSpace c = false ∧ c ≠ '"' := by
    unfold Token.ofPunctuation? at h
    split at h <;> cases h <;> decide
  simp [run, step, fresh, h, hc]

theorem run_inWord (ts : List Token) (read word rest : List Char)
    (hw : ∀ c ∈ word, Token.endsWord c = false) :
    run ⟨ts, .word read⟩ (word ++ rest) = run ⟨ts, .word (word.reverse ++ read)⟩ rest := by
  induction word generalizing read with
  | nil => rfl
  | cons c word ih =>
    have hc := hw c List.mem_cons_self
    rw [List.cons_append, run]
    simp only [step, hc, Bool.false_eq_true, if_false, Option.bind_some]
    rw [ih (c :: read) fun d hd => hw d (List.mem_cons_of_mem c hd)]
    simp

theorem run_word (ts : List Token) (word rest : List Char) (t : Token) (hne : word ≠ [])
    (hw : ∀ c ∈ word, Token.endsWord c = false) (ht : Token.ofWord? word = some t)
    (hr : Delimited rest) :
    run ⟨ts, .between⟩ (word ++ rest) = run ⟨t :: ts, .between⟩ rest := by
  cases word with
  | nil => exact absurd rfl hne
  | cons c word =>
    have hc := hw c List.mem_cons_self
    simp only [Token.endsWord, Bool.or_eq_false_iff, beq_eq_false_iff_ne, ne_eq,
      Option.isSome_eq_false_iff, Option.isNone_iff_eq_none] at hc
    have hfirst : step ⟨ts, .between⟩ c = some ⟨ts, .word [c]⟩ := by
      simp [step, fresh, hc]
    have hrev : (word.reverse ++ [c]).reverse = c :: word := by simp
    rw [List.cons_append, run, hfirst, Option.bind_some,
      run_inWord ts [c] word rest fun d hd => hw d (List.mem_cons_of_mem c hd)]
    cases rest with
    | nil => simp [run, finish?, hrev, ht]
    | cons d rest =>
      have hd : Token.endsWord d = true := hr d (by simp)
      simp only [run, step, hd, if_true, hrev, ht, Option.map_some]

theorem run_inString {c : Char} (hq : c ≠ '"') (hb : c ≠ '\\') (ts : List Token)
    (read rest : List Char) :
    run ⟨ts, .string read false⟩ (c :: rest) = run ⟨ts, .string (c :: read) false⟩ rest := by
  have he : (c == '\\') = false := beq_eq_false_iff_ne.2 hb
  simp [run, step, hq, he]

theorem run_backslash (ts : List Token) (l : Char) (read rest : List Char) :
    run ⟨ts, .string read false⟩ ('\\' :: l :: rest) =
      run ⟨ts, .string (l :: '\\' :: read) false⟩ rest := by
  simp [run, step]

theorem run_encodeChar (ts : List Token) (c : Char) (read rest : List Char) :
    run ⟨ts, .string read false⟩ (Escape.encodeChar c ++ rest) =
      run ⟨ts, .string ((Escape.encodeChar c).reverse ++ read) false⟩ rest := by
  unfold Escape.encodeChar
  cases hl : Escape.letter? c with
  | some l => exact run_backslash ts l read rest
  | none =>
    by_cases hc : c.toNat < 0x20
    · have hx (n : Nat) (hn : n < 16) :
          Escape.hexDigit n ≠ '"' ∧ Escape.hexDigit n ≠ '\\' := by
        revert n
        decide
      have hd := hx (c.toNat / 16) (by omega)
      have hm := hx (c.toNat % 16) (by omega)
      simp only [if_pos hc, List.cons_append, List.nil_append]
      rw [run_backslash, run_inString (by decide) (by decide),
        run_inString (by decide) (by decide), run_inString hd.1 hd.2, run_inString hm.1 hm.2]
      rfl
    · have hq : c ≠ '"' := by
        rintro rfl
        simp [Escape.letter?] at hl
      have hb : c ≠ '\\' := by
        rintro rfl
        simp [Escape.letter?] at hl
      simp only [if_neg hc]
      exact run_inString hq hb ts read rest

theorem run_encode (ts : List Token) (s read rest : List Char) :
    run ⟨ts, .string read false⟩ (Escape.encode s ++ rest) =
      run ⟨ts, .string ((Escape.encode s).reverse ++ read) false⟩ rest := by
  induction s generalizing read with
  | nil => rfl
  | cons c s ih =>
    change run _ (Escape.encodeChar c ++ Escape.encode s ++ rest) = _
    rw [List.append_assoc, run_encodeChar, ih]
    simp [Escape.encode]

theorem run_stringText (ts : List Token) (s : String) (rest : List Char) :
    run ⟨ts, .between⟩ (stringText s ++ rest) = run ⟨.str s :: ts, .between⟩ rest := by
  have hopen : step ⟨ts, .between⟩ '"' = some ⟨ts, .string [] false⟩ := rfl
  rw [stringText, List.cons_append, List.cons_append, run, hopen, Option.bind_some,
    List.append_assoc, run_encode, List.singleton_append, run]
  simp [step, Escape.decode?_encode]

end Scan

/-- The value has at most so many brackets inside each other, and its numbers can be read. -/
inductive Fits : Nat → Json → Prop where
  | null (n : Nat) : Fits n .null
  | bool (n : Nat) (b : Bool) : Fits n (.bool b)
  | num (n : Nat) {x : Number} (h : x.Readable) : Fits n (.num x)
  | str (n : Nat) (s : String) : Fits n (.str s)
  | arr {n : Nat} {items : List Json} (h : ∀ v ∈ items, Fits n v) : Fits (n + 1) (.arr items)
  | obj {n : Nat} {members : List (String × Json)} (h : ∀ m ∈ members, Fits n m.2) :
    Fits (n + 1) (.obj members)

mutual

def tokens : Json → List Token
  | .null => [.null]
  | .bool b => [.bool b]
  | .num n => [.num n]
  | .str s => [.str s]
  | .arr [] => [.openArray, .closeArray]
  | .arr (v :: vs) => .openArray :: tokens v ++ itemsTokens vs ++ [.closeArray]
  | .obj [] => [.openObject, .closeObject]
  | .obj ((k, v) :: ms) =>
    .openObject :: .str k :: .colon :: tokens v ++ membersTokens ms ++ [.closeObject]

def itemsTokens : List Json → List Token
  | [] => []
  | v :: vs => .comma :: tokens v ++ itemsTokens vs

def membersTokens : List (String × Json) → List Token
  | [] => []
  | (k, v) :: ms => .comma :: .str k :: .colon :: tokens v ++ membersTokens ms

end

namespace Scan

/-- The machine reads a text as these tokens, whatever it has seen before and sees after. -/
def ReadsAs (text : List Char) (tokens : List Token) : Prop :=
  ∀ ts rest, Delimited rest →
    run ⟨ts, .between⟩ (text ++ rest) = run ⟨tokens.reverse ++ ts, .between⟩ rest

theorem delimited_itemsText {level : Nat} {vs : List Json} {rest : List Char}
    (hr : Delimited rest) : Delimited (itemsText level vs ++ rest) := by
  cases vs with
  | nil => exact hr
  | cons v vs =>
    rintro c ⟨⟩
    decide

theorem delimited_membersText {level : Nat} {ms : List (String × Json)} {rest : List Char}
    (hr : Delimited rest) : Delimited (membersText level ms ++ rest) := by
  cases ms with
  | nil => exact hr
  | cons m ms =>
    rintro c ⟨⟩
    decide

theorem readsAs_itemsText (level : Nat) (vs : List Json)
    (h : ∀ v ∈ vs, ReadsAs (text level v) v.tokens) :
    ReadsAs (itemsText level vs) (itemsTokens vs) := by
  induction vs with
  | nil => exact fun _ _ _ => rfl
  | cons v vs ih =>
    intro ts rest hr
    have hv := h v List.mem_cons_self
    have hvs := ih fun u hu => h u (List.mem_cons_of_mem v hu)
    simp only [itemsText, itemsTokens, List.cons_append, List.append_assoc]
    rw [run_punctuation ts ',' .comma _ rfl, run_newline, hv _ _ (delimited_itemsText hr),
      hvs _ _ hr]
    simp

theorem run_key (ts : List Token) (k : String) (rest : List Char) :
    run ⟨ts, .between⟩ (stringText k ++ ':' :: ' ' :: rest) =
      run ⟨.colon :: .str k :: ts, .between⟩ rest := by
  rw [run_stringText, run_punctuation _ ':' .colon _ rfl, run_space _ _ _ (by decide)]

theorem readsAs_membersText (level : Nat) (ms : List (String × Json))
    (h : ∀ m ∈ ms, ReadsAs (text level m.2) m.2.tokens) :
    ReadsAs (membersText level ms) (membersTokens ms) := by
  induction ms with
  | nil => exact fun _ _ _ => rfl
  | cons m ms ih =>
    intro ts rest hr
    obtain ⟨k, v⟩ := m
    have hv : ReadsAs (text level v) v.tokens := h (k, v) List.mem_cons_self
    have hms := ih fun u hu => h u (List.mem_cons_of_mem _ hu)
    simp only [membersText, membersTokens, List.cons_append, List.append_assoc, List.nil_append]
    rw [run_punctuation ts ',' .comma _ rfl, run_newline, run_key,
      hv _ _ (delimited_membersText hr), hms _ _ hr]
    simp

theorem delimited_newline (level : Nat) (rest : List Char) :
    Delimited (newline level ++ rest) := by
  rintro c ⟨⟩
  decide

theorem readsAs_arr (level : Nat) (items : List Json)
    (h : ∀ v ∈ items, ReadsAs (text (level + 1) v) v.tokens) :
    ReadsAs (text level (.arr items)) (Json.arr items).tokens := by
  intro ts rest _
  cases items with
  | nil =>
    simp only [text, Json.tokens, List.cons_append, List.nil_append]
    rw [run_punctuation ts '[' .openArray _ rfl, run_punctuation _ ']' .closeArray _ rfl]
    rfl
  | cons v vs =>
    have hv := h v List.mem_cons_self
    have hvs := readsAs_itemsText (level + 1) vs fun u hu => h u (List.mem_cons_of_mem v hu)
    have hend := delimited_newline level (']' :: rest)
    simp only [text, Json.tokens, List.cons_append, List.append_assoc, List.nil_append]
    rw [run_punctuation ts '[' .openArray _ rfl, run_newline, hv _ _ (delimited_itemsText hend),
      hvs _ _ hend, run_newline, run_punctuation _ ']' .closeArray _ rfl]
    simp

theorem readsAs_obj (level : Nat) (ms : List (String × Json))
    (h : ∀ m ∈ ms, ReadsAs (text (level + 1) m.2) m.2.tokens) :
    ReadsAs (text level (.obj ms)) (Json.obj ms).tokens := by
  intro ts rest _
  cases ms with
  | nil =>
    simp only [text, Json.tokens, List.cons_append, List.nil_append]
    rw [run_punctuation ts '\x7b' .openObject _ rfl, run_punctuation _ '\x7d' .closeObject _ rfl]
    rfl
  | cons m ms =>
    obtain ⟨k, v⟩ := m
    have hv : ReadsAs (text (level + 1) v) v.tokens := h (k, v) List.mem_cons_self
    have hms := readsAs_membersText (level + 1) ms fun u hu => h u (List.mem_cons_of_mem _ hu)
    have hend := delimited_newline level ('\x7d' :: rest)
    simp only [text, Json.tokens, List.cons_append, List.append_assoc, List.nil_append]
    rw [run_punctuation ts '\x7b' .openObject _ rfl, run_newline, run_key,
      hv _ _ (delimited_membersText hend), hms _ _ hend, run_newline,
      run_punctuation _ '\x7d' .closeObject _ rfl]
    simp

theorem readsAs_word {word : List Char} {t : Token} (hne : word ≠ [])
    (hw : ∀ c ∈ word, Token.endsWord c = false) (ht : Token.ofWord? word = some t) :
    ReadsAs word [t] :=
  fun ts rest hr => run_word ts word rest t hne hw ht hr

theorem readsAs_keyword {word : List Char} {t : Token} (ht : Token.ofWord? word = some t)
    (hne : word.isEmpty = false) (hw : word.any Token.endsWord = false) : ReadsAs word [t] := by
  apply readsAs_word (List.isEmpty_eq_false_iff.1 hne) ?_ ht
  intro c hc
  exact eq_false_of_ne_true (List.any_eq_false.1 hw c hc)

theorem readsAs_text {n : Nat} {v : Json} (h : Fits n v) (level : Nat) :
    ReadsAs (text level v) v.tokens := by
  induction h generalizing level with
  | null n => exact readsAs_keyword rfl rfl rfl
  | bool n b =>
    cases b with
    | true => exact readsAs_keyword rfl rfl rfl
    | false => exact readsAs_keyword rfl rfl rfl
  | @num n x h =>
    have hw := text_word x h
    exact readsAs_word hw.1 (fun c hc => endsWord_eq_false (hw.2 c hc)) (ofWord?_text x h)
  | str n s => exact fun ts rest _ => run_stringText ts s rest
  | arr h ih => exact readsAs_arr level _ fun v hv => ih v hv (level + 1)
  | obj h ih => exact readsAs_obj level _ fun m hm => ih m hm (level + 1)

theorem tokens?_text {n : Nat} {v : Json} (h : Fits n v) : tokens? (text 0 v) = some v.tokens := by
  have hr : Delimited [] := by
    rintro c ⟨⟩
  have hv := readsAs_text h 0 [] [] hr
  rw [tokens?_eq_run]
  rw [List.append_nil, List.append_nil] at hv
  change run ⟨[], .between⟩ (text 0 v) = _
  rw [hv]
  simp [run, finish?]

end Scan

end ShaderLegalizer.Json
