import ShaderLegalizer.Proofs.JsonOrder
import ShaderLegalizer.Proofs.WireShape

set_option autoImplicit false

namespace ShaderLegalizer.Wire

open Json (Members)

inductive Step where
  | key (k : String)
  | index (i : Nat)

inductive Step.Before : Step → Step → Prop where
  | key {k l : String} (h : k < l) : Before (.key k) (.key l)
  | index {i j : Nat} (h : i < j) : Before (.index i) (.index j)

abbrev Path := List Step

/-- The order in which a depth-first reader is done with the places of a value. -/
inductive Path.Before : Path → Path → Prop where
  | inside (t : Step) (p : Path) : Before (t :: p) []
  | first {t u : Step} (h : t.Before u) (p q : Path) : Before (t :: p) (u :: q)
  | later (t : Step) {p q : Path} (h : Before p q) : Before (t :: p) (t :: q)

theorem Step.Before.asymm {t u : Step} (h : t.Before u) : ¬ u.Before t := by
  cases h with
  | key h =>
    rintro (h' | _)
    exact String.lt_asymm h h'
  | index h =>
    rintro (_ | h')
    exact Nat.lt_asymm h h'

theorem Path.Before.asymm {p q : Path} (h : Path.Before p q) : ¬ Path.Before q p := by
  induction h with
  | inside t p =>
    intro h
    cases h
  | first h p q =>
    intro h'
    cases h' with
    | first h' => exact h.asymm h'
    | later => exact h.asymm h
  | later t _ ih =>
    intro h'
    cases h' with
    | first h' => exact h'.asymm h'
    | later _ h' => exact ih h'

theorem Path.not_before_append (p q : Path) : ¬ Path.Before p (p ++ q) := by
  induction p with
  | nil =>
    intro h
    cases h
  | cons t p ih =>
    intro h
    cases h with
    | first h => exact h.asymm h
    | later _ h => exact ih h

/-- Whether the shape can be had by a value of that kind, whatever is in it. -/
def Shape.admits : Shape → Json → Bool
  | .u32, .num (.integer _) => true
  | .text, .str _ => true
  | .flag, .bool _ => true
  | .list _, .arr _ => true
  | .optional _, _ => true
  | .record _ _, .obj _ => true
  | .record _ _, .arr _ => true
  | _, _ => false

def Shape.want : Shape → Want
  | .u32 => .u32
  | .text => .text
  | .flag => .flag
  | .list _ => .sequence
  | .optional s => s.want
  | .record name _ => .record name

/-- What can be wrong with a value by itself, its parts aside. -/
inductive Offence : Shape → Json → Mismatch → Prop where
  | kind {s : Shape} {v : Json} (h : s.admits v = false) :
      Offence s v (.wrongType (.ofJson v) s.want)
  | range {n : Int} (h : ¬ (0 ≤ n ∧ n < 4294967296)) :
      Offence .u32 (.num (.integer n)) (.outOfRange n)
  | length {name : String} {fields : List (String × Shape)} {items : List Json}
      (h : fields.length < items.length) :
      Offence (.record name fields) (.arr items) (.tooLong items.length)

/-- The parts of a value that have shapes of their own, if the value has the first shape. -/
inductive Part : Shape → Json → Step → Shape → Json → Prop where
  | item {s : Shape} {items : List Json} {i : Nat} {v : Json} (h : items[i]? = some v) :
      Part (.list s) (.arr items) (.index i) s v
  | member {name : String} {fields : List (String × Shape)} {members : Members} {k : String}
      {s : Shape} {v : Json} (hf : (k, s) ∈ fields) (hm : (k, v) ∈ members) :
      Part (.record name fields) (.obj members) (.key k) s v
  | element {name : String} {fields : List (String × Shape)} {items : List Json} {i : Nat}
      {k : String} {s : Shape} {v : Json} (hf : fields[i]? = some (k, s))
      (hi : items[i]? = some v) : Part (.record name fields) (.arr items) (.index i) s v

/-- The value at the end of the path, and the shape it should have there. -/
inductive Visits : Shape → Json → Path → Shape → Json → Prop where
  | here (s : Shape) (v : Json) : Visits s v [] s v
  | value {s s' : Shape} {v w : Json} {p : Path} (hv : v.isNull = false) (h : Visits s v p s' w) :
      Visits (.optional s) v p s' w
  | part {s s' s'' : Shape} {v w u : Json} {t : Step} {p : Path} (h : Part s v t s' w)
      (hp : Visits s' w p s'' u) : Visits s v (t :: p) s'' u

def OffendsAt (s : Shape) (v : Json) (p : Path) (e : Mismatch) : Prop :=
  ∃ s' w, Visits s v p s' w ∧ Offence s' w e

/-- The offence at the place that comes before all others that offend. -/
def FirstOffence (s : Shape) (v : Json) (e : Mismatch) : Prop :=
  ∃ p, OffendsAt s v p e ∧
    ∀ q e', OffendsAt s v q e' → (q = p ∧ e' = e) ∨ Path.Before p q

theorem FirstOffence.unique {s : Shape} {v : Json} {e e' : Mismatch} (h : FirstOffence s v e)
    (h' : FirstOffence s v e') : e = e' := by
  obtain ⟨p, hp, hfirst⟩ := h
  obtain ⟨q, hq, hfirst'⟩ := h'
  rcases hfirst q e' hq with ⟨-, he⟩ | hpq
  · exact he.symm
  · rcases hfirst' p e hp with ⟨-, he⟩ | hqp
    · exact he
    · exact absurd hqp hpq.asymm

theorem Visits.trans {s s' s'' : Shape} {v w u : Json} {p q : Path} (h : Visits s v p s' w)
    (h' : Visits s' w q s'' u) : Visits s v (p ++ q) s'' u := by
  induction h with
  | here => exact h'
  | value hv _ ih => exact .value hv (ih h')
  | part hp _ ih => exact .part hp (ih h')

theorem Offence.unique {s : Shape} {v : Json} {e e' : Mismatch} (h : Offence s v e)
    (h' : Offence s v e') : e = e' := by
  cases h with
  | kind h =>
    cases h' with
    | kind => rfl
    | range => cases h
    | length => cases h
  | range h =>
    cases h' with
    | kind h' => cases h'
    | range => rfl
  | length h =>
    cases h' with
    | kind h' => cases h'
    | length => rfl

theorem Part.admits {s s' : Shape} {v w : Json} {t : Step} (h : Part s v t s' w) :
    s.admits v = true := by
  cases h <;> rfl

section Conforming

variable {s s' : Shape} {v w : Json}

theorem Conforms.admits (h : Conforms s v) : s.admits v = true := by
  cases h <;> rfl

theorem Conforms.not_offence (h : Conforms s v) (e : Mismatch) : ¬ Offence s v e := by
  intro ho
  cases ho with
  | kind hk =>
    rw [h.admits] at hk
    cases hk
  | range hr =>
    cases h with
    | u32 hn => exact hr hn
  | length hl =>
    cases h with
    | array hle =>
      omega

theorem Conforms.part {t : Step} (h : Conforms s v) (hp : Part s v t s' w) : Conforms s' w := by
  cases hp with
  | item hi =>
    cases h with
    | list h => exact h _ (List.mem_of_getElem? hi)
  | member hf hm =>
    cases h with
    | object h => exact h _ _ _ hf hm
  | element hf hi =>
    cases h with
    | array _ h => exact h _ _ _ _ hf hi

theorem Conforms.visits {p : Path} (h : Conforms s v) (hp : Visits s v p s' w) :
    Conforms s' w := by
  induction hp with
  | here => exact h
  | value hv _ ih =>
    cases h with
    | absent => cases hv
    | present h => exact ih h
  | part hp _ ih => exact ih (h.part hp)

theorem Conforms.not_offendsAt (h : Conforms s v) (p : Path) (e : Mismatch) :
    ¬ OffendsAt s v p e := by
  rintro ⟨s', w, hp, he⟩
  exact (h.visits hp).not_offence e he

theorem conforms_of_parts (hs : ∀ s', s ≠ .optional s') (hown : ∀ e, ¬ Offence s v e)
    (hparts : ∀ t s' w, Part s v t s' w → Conforms s' w) : Conforms s v := by
  have hk : s.admits v = true := by
    by_contra hk
    exact hown _ (.kind (eq_false_of_ne_true hk))
  cases s with
  | u32 =>
    cases v with
    | num n =>
      cases n with
      | integer n =>
        apply Conforms.u32
        by_contra hn
        exact hown _ (.range hn)
      | real => cases hk
    | _ => cases hk
  | text =>
    cases v with
    | str s => exact .text s
    | _ => cases hk
  | flag =>
    cases v with
    | bool b => exact .flag b
    | _ => cases hk
  | list s =>
    cases v with
    | arr items =>
      apply Conforms.list
      intro v hv
      obtain ⟨i, hi⟩ := List.mem_iff_getElem?.1 hv
      exact hparts _ _ _ (.item hi)
    | _ => cases hk
  | optional s => exact absurd rfl (hs s)
  | record name fields =>
    cases v with
    | obj members => exact .object fun k s v hf hm => hparts _ _ _ (.member hf hm)
    | arr items =>
      refine .array ?_ fun i k s v hf hi => hparts _ _ _ (.element hf hi)
      by_contra hl
      exact hown _ (.length (Nat.lt_of_not_le hl))
    | _ => cases hk

theorem conforms_of_not_offendsAt (v : Json)
    (ih : ∀ s t s' w, Part s v t s' w → (∀ p e, ¬ OffendsAt s' w p e) → Conforms s' w) :
    ∀ s : Shape, (∀ p e, ¬ OffendsAt s v p e) → Conforms s v
  | .optional s, h => by
    by_cases hv : v.isNull = true
    · cases v with
      | null => exact .absent s
      | _ => cases hv
    · have hs : ∀ p e, ¬ OffendsAt s v p e := by
        rintro p e ⟨s', w, hw, he⟩
        exact h p e ⟨s', w, .value (eq_false_of_ne_true hv) hw, he⟩
      exact .present (conforms_of_not_offendsAt v ih s hs)
  | .u32, h | .text, h | .flag, h | .list _, h | .record _ _, h => by
    apply conforms_of_parts
    · intro s' hs
      cases hs
    · intro e he
      exact h [] e ⟨_, _, .here _ _, he⟩
    · intro t s' w hp
      apply ih _ t s' w hp
      rintro p e ⟨s'', u, hu, he⟩
      exact h (t :: p) e ⟨s'', u, .part hp hu, he⟩

theorem conforms_iff_not_offendsAt (s : Shape) (v : Json) :
    Conforms s v ↔ ∀ p e, ¬ OffendsAt s v p e := by
  refine ⟨Conforms.not_offendsAt, ?_⟩
  induction v using Json.induction generalizing s with
  | arr items ih =>
    apply conforms_of_not_offendsAt
    intro s t s' w hp hw
    cases hp with
    | item h => exact ih w (List.mem_of_getElem? h) s' hw
    | element _ h => exact ih w (List.mem_of_getElem? h) s' hw
  | obj members ih =>
    apply conforms_of_not_offendsAt
    intro s t s' w hp hw
    cases hp with
    | member _ h => exact ih _ h s' hw
  | _ =>
    apply conforms_of_not_offendsAt
    intro s t s' w hp
    cases hp

end Conforming

section First

variable {s s' : Shape} {v w : Json} {e : Mismatch}

theorem FirstOffence.of_part {t : Step} (hp : Part s v t s' w) (h : FirstOffence s' w e)
    (hother : ∀ t' s'' u, Part s v t' s'' u →
      (t' = t ∧ s'' = s' ∧ u = w) ∨ t.Before t' ∨ Conforms s'' u) : FirstOffence s v e := by
  obtain ⟨p, ⟨s₁, w₁, hw₁, he⟩, hfirst⟩ := h
  refine ⟨t :: p, ⟨s₁, w₁, .part hp hw₁, he⟩, ?_⟩
  rintro q e' ⟨s₂, w₂, hw₂, he'⟩
  cases hw₂ with
  | here => exact .inr (.inside t p)
  | value => cases hp
  | @part _ s'' _ _ u _ t' q hp' hu =>
    rcases hother t' s'' u hp' with ⟨rfl, rfl, rfl⟩ | hlt | hc
    · rcases hfirst q e' ⟨s₂, w₂, hu, he'⟩ with ⟨rfl, rfl⟩ | hpq
      · exact .inl ⟨rfl, rfl⟩
      · exact .inr (.later t' hpq)
    · exact .inr (.first hlt p q)
    · exact absurd ⟨s₂, w₂, hu, he'⟩ (hc.not_offendsAt q e')

theorem FirstOffence.of_own (h : Offence s v e)
    (hparts : ∀ t s' w, Part s v t s' w → Conforms s' w) : FirstOffence s v e := by
  refine ⟨[], ⟨s, v, .here s v, h⟩, ?_⟩
  rintro q e' ⟨s', w, hw, he'⟩
  cases hw with
  | here => exact .inl ⟨rfl, he'.unique h⟩
  | value =>
    cases h with
    | kind h => cases h
  | part hp hw => exact absurd ⟨s', w, hw, he'⟩ ((hparts _ _ _ hp).not_offendsAt _ e')

theorem FirstOffence.of_kind (h : s.admits v = false) :
    FirstOffence s v (.wrongType (.ofJson v) s.want) := by
  apply FirstOffence.of_own (.kind h)
  intro t s' w hp
  rw [hp.admits] at h
  cases h

theorem FirstOffence.optional (hv : v.isNull = false) (h : FirstOffence s v e) :
    FirstOffence (.optional s) v e := by
  obtain ⟨p, ⟨s₁, w₁, hw₁, he⟩, hfirst⟩ := h
  refine ⟨p, ⟨s₁, w₁, .value hv hw₁, he⟩, ?_⟩
  rintro q e' ⟨s₂, w₂, hw₂, he'⟩
  cases hw₂ with
  | here =>
    cases he' with
    | kind h => cases h
  | value _ hw₂ => exact hfirst q e' ⟨s₂, w₂, hw₂, he'⟩
  | part hp => cases hp

end First

theorem FirstOffence.tooLong {s : Shape} {v : Json} {n : Nat} (h : FirstOffence s v (.tooLong n)) :
    ∃ p name fields items, Visits s v p (.record name fields) (.arr items) ∧ n = items.length ∧
      fields.length < n ∧ ∀ (i : Nat) k s' w, fields[i]? = some (k, s') → items[i]? = some w →
        Conforms s' w := by
  obtain ⟨p, ⟨s₁, w₁, hw₁, he⟩, hfirst⟩ := h
  cases he with
  | @length name fields items hl =>
    refine ⟨p, name, fields, items, hw₁, rfl, hl, ?_⟩
    intro i k s' w hs hw
    rw [conforms_iff_not_offendsAt]
    rintro q e ⟨s₂, w₂, hw₂, he⟩
    have hq : Visits s v (p ++ .index i :: q) s₂ w₂ := hw₁.trans (.part (.element hs hw) hw₂)
    rcases hfirst _ e ⟨s₂, w₂, hq, he⟩ with ⟨hp, -⟩ | hp
    · exact absurd (List.append_right_eq_self.1 hp) (List.cons_ne_nil _ _)
    · exact Path.not_before_append _ _ hp

end ShaderLegalizer.Wire
