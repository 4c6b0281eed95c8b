import ShaderLegalizer.Decimal.Layout

/-!
Numbers of JSON text. A literal written without fraction and exponent is an integer as long as it
fits 64 bits, signed if negative; every other literal, and a negative zero, is a real number. A
literal too large for a real number is refused.
-/

set_option autoImplicit false

namespace ShaderLegalizer.Json

open Decimal (Binary64)

inductive Number where
  | integer (n : Int)
  | real (negative : Bool) (magnitude : Binary64)
deriving DecidableEq, Repr

structure Literal where
  negative : Bool
  whole : List Char
  fraction : Option (List Char)
  power : Option (Bool × List Char)
deriving DecidableEq, Repr

def digitsValue (cs : List Char) : Nat :=
  Nat.ofDigitChars 10 cs 0

namespace Literal

def isWhole (cs : List Char) : Bool :=
  match cs with
  | [] => false
  | ['0'] => true
  | c :: _ => c != '0'

def takeFraction? (cs : List Char) : Option (Option (List Char) × List Char) :=
  match cs with
  | '.' :: rest =>
    let digits := rest.takeWhile Char.isDigit
    if digits.isEmpty then none else some (some digits, rest.dropWhile Char.isDigit)
  | _ => some (none, cs)

/-- Reads the exponent, which ends the literal: a mark, an optional sign, at least one digit. -/
def power? (cs : List Char) : Option (Option (Bool × List Char)) :=
  match cs with
  | [] => some none
  | mark :: rest =>
    let (negative, digits) := match rest with
      | '-' :: digits => (true, digits)
      | '+' :: digits => (false, digits)
      | digits => (false, digits)
    if (mark == 'e' || mark == 'E') && !digits.isEmpty && digits.all Char.isDigit then
      some (some (negative, digits))
    else none

def ofText? (cs : List Char) : Option Literal :=
  let (negative, body) := match cs with
    | '-' :: body => (true, body)
    | body => (false, body)
  let whole := body.takeWhile Char.isDigit
  if isWhole whole then do
    let (fraction, rest) ← takeFraction? (body.dropWhile Char.isDigit)
    let power ← power? rest
    return ⟨negative, whole, fraction, power⟩
  else none

def maxSignificand : Nat := 0xFFFFFFFFFFFFFFFF

/-- Appends digits to a significand as long as it stays within `maxSignificand`; gives the result
and the digits left over. -/
def extend (significand : Nat) : List Char → Nat × List Char
  | [] => (significand, [])
  | c :: cs =>
    let next := 10 * significand + (c.toNat - '0'.toNat)
    if next ≤ maxSignificand then extend next cs else (significand, c :: cs)

/-- The value of the literal as a real number: a significand of at most 64 bits, scaled by a power
of ten. Digits before the point that no longer fit raise the exponent, those behind it are
dropped. -/
def magnitude? (lit : Literal) : Option Binary64 := do
  let (head, left) := extend 0 lit.whole
  let behind := lit.fraction.getD []
  let (significand, dropped) := extend head behind
  let shift : Int := (left.length : Int) - ((behind.length - dropped.length : Nat) : Int)
  let power : Int := match lit.power with
    | none => 0
    | some (true, digits) => Int.negOfNat (digitsValue digits)
    | some (false, digits) => (digitsValue digits : Nat)
  let x ← Binary64.ofRatio? significand 1
  x.scale? (shift + power)

def integer? (lit : Literal) : Option Int :=
  let n := digitsValue lit.whole
  match lit.fraction, lit.power with
  | none, none =>
    if lit.negative then
      if 0 < n ∧ n ≤ 0x8000000000000000 then some (Int.negOfNat n) else none
    else if n ≤ 0xFFFFFFFFFFFFFFFF then some n
    else none
  | _, _ => none

def number? (lit : Literal) : Option Number :=
  match lit.integer? with
  | some n => some (.integer n)
  | none => lit.magnitude?.map (.real lit.negative)

end Literal

/-- Real numbers are written with the fewest digits that read back, positionally from `10 ^ -5` to
below `10 ^ 16`, otherwise with a signed exponent. -/
def realLayout : Decimal.Layout where
  plainFrom := -5
  plainBelow := 16

def Number.text : Number → List Char
  | .integer n =>
    if n < 0 then '-' :: Nat.toDigits 10 n.natAbs else Nat.toDigits 10 n.natAbs
  | .real negative magnitude => (realLayout.render negative magnitude).toList

def Number.ofText? (cs : List Char) : Option Number := do
  let lit ← Literal.ofText? cs
  lit.number?

end ShaderLegalizer.Json
