import Mathlib.Data.Int.Log
import Mathlib.Data.Rat.Floor

/-!
# Rounding

Rational numbers in binary formats, on the floats of the core library: the number
of a format that is nearest to a rational, what a float stands for, and how it
is printed with a given number of digits.
-/

namespace BeeGadz
namespace Foundation
namespace Rounding

open Float.Model

def signOf (negative : Bool) : UnpackedFloat.Sign :=
  if negative then .negative else .positive

/-- The number of a format that is nearest to a magnitude, with a sign, and of
two the even one. -/
def nearest (spec : Format) (negative : Bool) (x : Rat) : UnpackedFloat :=
  if h : x.num.natAbs = 0 then .zero (signOf negative)
  else
    UnpackedFloat.div spec
      (.finite (signOf negative) x.num.natAbs 0 (Nat.pos_of_ne_zero h))
      (.finite .positive x.den 0 x.den_pos)

def cast (spec : Format) : UnpackedFloat -> UnpackedFloat
  | .finite sign m e _ => UnpackedFloat.round spec sign m e
  | x => x

def signed (sign : UnpackedFloat.Sign) (x : Rat) : Rat :=
  match sign with
  | .negative => -x
  | .positive => x

def power (e : Int) : Rat :=
  if 0 ≤ e then (2 ^ e.toNat : Nat) else 1 / (2 ^ (-e).toNat : Nat)

def limit (spec : Format) : Rat :=
  (2 ^ 2 ^ (spec.exponentBits - 1) : Nat)

/-- What a float stands for.  An infinity stands for the power of two that no
number reaches, and so does what is not a number, below zero. -/
def valueOf (spec : Format) : UnpackedFloat -> Rat
  | .zero _ => 0
  | .finite sign m e _ => signed sign (m * power e)
  | .infinity sign => signed sign (limit spec)
  | .notANumber => -limit spec

def held (spec : Format) (x : UnpackedFloat) : Rat :=
  valueOf spec (.unpack spec (UnpackedFloat.pack spec x))

/-!
## Printing
-/

def toNat (x : Rat) : Nat :=
  (UnpackedFloat.accuracyOfFraction (x.num.natAbs % x.den) x.den)
    |>.roundToNearestEven (x.num.natAbs / x.den)

/-- The digits of a number, with `n` of them behind the point. -/
def point (n : Nat) (digits : Nat) : String :=
  let text := (Nat.toDigits 10 digits).leftpad (n + 1) '0'
  let whole := text.take (text.length - n)
  if n = 0 then String.ofList whole
  else String.ofList (whole ++ '.' :: text.drop (text.length - n))

def strip (text : String) : String :=
  if text.toList.contains '.' then
    let kept := text.toList.reverse.dropWhile fun c => c == '0'
    String.ofList (if kept.head? = some '.' then kept.tail else kept).reverse
  else text

/-- `"%.nf"`. -/
def fixed (n : Nat) (x : Rat) : String :=
  (if x < 0 then "-" else "") ++ point n (toNat (|x| * 10 ^ n))

/-- `"%.ng"`, for `n` digits of which the first is not zero. -/
def general (n : Nat) (x : Rat) : String :=
  if x = 0 then "0"
  else
    let first := Int.log 10 |x|
    let digits := toNat (|x| * (10 : Rat) ^ ((n : Int) - 1 - first))
    -- rounding may add a digit
    let e := if digits = 10 ^ n then first + 1 else first
    let digits := if digits = 10 ^ n then 10 ^ (n - 1) else digits
    (if x < 0 then "-" else "") ++
      if -4 ≤ e ∧ e < n then
        if 0 ≤ e then strip (point ((n : Int) - 1 - e).toNat digits)
        else strip (point (n - 1 + (-e).toNat) digits)
      else
        strip (point (n - 1) digits) ++ (if e < 0 then "e-" else "e+") ++
          point 0 (e.natAbs / 10) ++ point 0 (e.natAbs % 10)

end Rounding
end Foundation
end BeeGadz
