import ShaderLegalizer.Decimal.Binary64

set_option autoImplicit false

namespace ShaderLegalizer.Decimal

structure Digits where
  digits : Nat
  exponent : Int
deriving DecidableEq, Repr

/-- Exact comparison of `a * 10 ^ i` with `n * 2 ^ j`. -/
def compareScaled (a : Nat) (i : Int) (n : Nat) (j : Int) : Ordering :=
  compare ((a * Nat.pow 10 i.toNat) <<< (-j).toNat) ((n * Nat.pow 10 (-i).toNat) <<< j.toNat)

/-- Whether a decimal lies among the reals that round to the number. The interval ends halfway to
the neighbours, and its ends belong to it exactly when the mantissa is even; below a power of two
the neighbour is only half as far away. -/
def Binary64.readsBack (x : Binary64) (d : Digits) : Bool :=
  let narrow := x.mantissa == 1 <<< 52 && x.exponent != minExponent
  let low := compareScaled d.digits d.exponent
    (4 * x.mantissa - (if narrow then 1 else 2)) (x.exponent - 2)
  let high := compareScaled d.digits d.exponent (4 * x.mantissa + 2) (x.exponent - 2)
  let even := x.mantissa % 2 == 0
  (low == .gt || (even && low == .eq)) && (high == .lt || (even && high == .eq))

def Binary64.decimalScale (x : Binary64) : Int :=
  if x.den ≤ x.num then (Nat.toDigits 10 (x.num / x.den)).length
  else
    -- the number of zeros behind the point
    let zeros := (List.range 400).find? fun z => x.den ≤ x.num * Nat.pow 10 (z + 1)
    Int.negOfNat (zeros.getD 0)

/-- The neighbour of the number on the grid `10 ^ e` that reads back, the nearer if both do, the
even one on a tie. -/
def Binary64.onGrid? (x : Binary64) (e : Int) : Option Digits :=
  let scaled := x.num * Nat.pow 10 (-e).toNat
  let unit := x.den * Nat.pow 10 e.toNat
  let below := scaled / unit
  let down : Digits := ⟨below, e⟩
  let up : Digits := ⟨below + 1, e⟩
  match x.readsBack down, x.readsBack up with
  | true, true =>
    match compare (2 * (scaled % unit)) unit with
    | .lt => some down
    | .gt => some up
    | .eq => some (if below % 2 = 0 then down else up)
  | true, false => some down
  | false, true => some up
  | false, false => none

/-- The fewest digits that read back. Seventeen always suffice, so the search ends in a hit. -/
def Binary64.shortest (x : Binary64) : Digits :=
  let k := x.decimalScale
  let hit := (List.range 17).findSome? fun n : Nat => x.onGrid? (k - (n + 1 : Nat))
  hit.getD ⟨x.num / x.den, 0⟩

end ShaderLegalizer.Decimal
