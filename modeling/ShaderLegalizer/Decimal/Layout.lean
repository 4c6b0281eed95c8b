import ShaderLegalizer.Decimal.Shortest

set_option autoImplicit false

namespace ShaderLegalizer.Decimal

structure Layout where
  plainFrom : Int
  plainBelow : Int

namespace Layout

def leading (d : Digits) : List Char × Int :=
  let cs := Nat.toDigits 10 d.digits
  let kept := (cs.reverse.dropWhile (· == '0')).reverse
  (kept, d.exponent + cs.length - 1)

/-- The digits with a point behind the digit of exponent zero, `.0` when nothing follows it. -/
def plain (cs : List Char) (e : Int) : List Char :=
  if e < 0 then '0' :: '.' :: List.replicate (-e - 1).toNat '0' ++ cs
  else
    let whole := e.toNat + 1
    if cs.length ≤ whole then cs ++ List.replicate (whole - cs.length) '0' ++ ['.', '0']
    else cs.take whole ++ '.' :: cs.drop whole

def scientific (cs : List Char) (e : Int) : List Char :=
  let mantissa := match cs with
    | [] => []
    | [c] => [c]
    | c :: rest => c :: '.' :: rest
  mantissa ++ 'e' :: (if e < 0 then '-' else '+') :: Nat.toDigits 10 e.natAbs

def render (layout : Layout) (negative : Bool) (x : Binary64) : String :=
  let sign := if negative then ['-'] else []
  let body :=
    if x.mantissa = 0 then ['0', '.', '0']
    else
      let (cs, e) := leading x.shortest
      if layout.plainFrom ≤ e ∧ e < layout.plainBelow then plain cs e
      else scientific cs e
  String.ofList (sign ++ body)

end Layout

end ShaderLegalizer.Decimal
