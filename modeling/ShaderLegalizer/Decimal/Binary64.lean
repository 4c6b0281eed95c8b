set_option autoImplicit false

namespace ShaderLegalizer.Decimal

/-- A finite non-negative number, `mantissa * 2 ^ exponent`. -/
structure Binary64 where
  mantissa : Nat
  exponent : Int
deriving DecidableEq, Repr

def roundDiv (num den : Nat) : Nat :=
  let q := num / den
  let r := num % den
  if 2 * r < den then q
  else if den < 2 * r then q + 1
  else q + q % 2

namespace Binary64

def minExponent : Int := -1074

def maxExponent : Int := 971

def zero : Binary64 := ⟨0, minExponent⟩

/-- The exponent at which `num / den` has a mantissa of 53 bits, or the least one. -/
def fitExponent (num den : Nat) : Int :=
  let top : Int := num.log2 - den.log2
  let e := if num <<< (-top).toNat < den <<< top.toNat then top - 53 else top - 52
  max e minExponent

def ofRatio? (num den : Nat) : Option Binary64 :=
  if num = 0 then some zero
  else
    let e := fitExponent num den
    let m := roundDiv (num <<< (-e).toNat) (den <<< e.toNat)
    let x : Binary64 := if m = 1 <<< 53 then ⟨1 <<< 52, e + 1⟩ else ⟨m, e⟩
    if x.exponent ≤ maxExponent then some x else none

def num (x : Binary64) : Nat := x.mantissa <<< x.exponent.toNat

def den (x : Binary64) : Nat := 1 <<< (-x.exponent).toNat

def mul? (x y : Binary64) : Option Binary64 :=
  ofRatio? (x.num * y.num) (x.den * y.den)

def div? (x y : Binary64) : Option Binary64 :=
  ofRatio? (x.num * y.den) (x.den * y.num)

def tenPow (k : Nat) : Binary64 :=
  (ofRatio? (Nat.pow 10 k) 1).getD zero

/-- The number times `10 ^ e`, by one rounded product or quotient with a power of ten up to
`10 ^ 308`. Below that the number is first divided by `10 ^ 308`, as often as needed or until it
has vanished. There is no result above the largest finite number. -/
def scale? (x : Binary64) (e : Int) : Option Binary64 :=
  if x.mantissa = 0 then some x
  else if 308 < e then none
  else if 0 ≤ e then x.mul? (tenPow e.toNat)
  else if -308 ≤ e then x.div? (tenPow (-e).toNat)
  else ((x.div? (tenPow 308)).bind fun y => y.scale? (e + 308))
termination_by (-e).toNat
decreasing_by omega

end Binary64

end ShaderLegalizer.Decimal
