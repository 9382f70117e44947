import Mathlib.Data.Char
import Mathlib.Data.List.Lex
import Mathlib.Data.List.TakeWhile
import BeeGadz.Foundation.Json
import BeeGadz.Foundation.Rounding
import BeeGadz.Foundation.Sorted
import BeeGadz.World

/-!
# JSON values

`Json::Value` as the configuration uses it.  Comments and offsets, which nothing
reads, are left out.

A `char` is the character with its number, a text a list of them.  Texts are
kept as C strings: what is behind a zero is lost.
-/

namespace BeeGadz
namespace JsonCpp

open Foundation

abbrev Text : Type :=
  List Char

/-- The text that `c_str()` points at. -/
def cString (text : Text) : Text :=
  text.takeWhile fun c => c != '\x00'

theorem cString_cString (text : Text) :
    cString (cString text) = cString text := by
  apply List.takeWhile_eq_self_iff.mpr
  exact fun _ hc => List.mem_takeWhile_imp (p := fun c => c != '\x00') hc

/-- `double`. -/
abbrev Double : Type :=
  Float.Model

/-- The `double` that is nearest to a magnitude, with a sign. -/
def Double.nearest (negative : Bool) (x : Rat) : Double :=
  .pack (Rounding.nearest .binary64 negative x)

/-- `Json::Value`, without the kind that has no value of its own: `Value()` is
`null`. -/
inductive Value where
  | null
  | int (n : Int)
  | uint (n : Nat)
  | real (x : Double)
  | string (s : Text)
  | bool (b : Bool)
  | array (elements : List Value)
  | object (members : List (Text × Value))

/-- `std::map<CZString, Value>`, ordered by `strcmp`. -/
abbrev Members : Type :=
  List (Text × Value)

/-!
## Numbers and texts
-/

/-- `valueToString` of an integer. -/
def valueToString (n : Int) : Text :=
  Json.sign (n < 0) ++ Nat.toDigits 10 n.natAbs

/-- `codePointToUTF8`. -/
def codePointToUTF8 (cp : Nat) : Text :=
  if cp ≤ 0x7f then [Char.ofNat cp]
  else if cp ≤ 0x7FF then
    [Char.ofNat (0xC0 ||| (0x1f &&& (cp >>> 6))),
      Char.ofNat (0x80 ||| (0x3f &&& cp))]
  else if cp ≤ 0xFFFF then
    [Char.ofNat (0xE0 ||| (0xf &&& (cp >>> 12))),
      Char.ofNat (0x80 ||| (0x3f &&& (cp >>> 6))),
      Char.ofNat (0x80 ||| (0x3f &&& cp))]
  else if cp ≤ 0x10FFFF then
    [Char.ofNat (0xF0 ||| (0x7 &&& (cp >>> 18))),
      Char.ofNat (0x80 ||| (0x3f &&& (cp >>> 12))),
      Char.ofNat (0x80 ||| (0x3f &&& (cp >>> 6))),
      Char.ofNat (0x80 ||| (0x3f &&& cp))]
  else []

namespace Value

/-!
## Reading a value

What is asked of a value of the wrong kind throws `std::runtime_error`.
-/

/-- `asString`: `real` is `snprintf` with `"%.16g"`. -/
def asString (real : Double -> Text) : Value -> Except Exn Text
  | .null => .ok []
  | .string s => .ok s
  | .bool b => .ok (if b then "true".toList else "false".toList)
  | .int n => .ok (valueToString n)
  | .uint n => .ok (valueToString n)
  | .real x => .ok (real x)
  | .array _ => .error .exception
  | .object _ => .error .exception

/-- `static_cast<float>` of an integer. -/
def floatOfInt (n : Int) : Rat :=
  Rounding.held .binary32 (Rounding.nearest .binary32 (n < 0) n.natAbs)

/-- `static_cast<float>` of a `double`, which becomes infinite when it is too
large. -/
def floatOfDouble (x : Double) : Rat :=
  Rounding.held .binary32 (Rounding.cast .binary32 x.unpack)

/-- `asFloat`, as the number that the `float` stands for. -/
def asFloat : Value -> Except Exn Rat
  | .int n => .ok (floatOfInt n)
  | .uint n => .ok (floatOfInt n)
  | .real x => .ok (floatOfDouble x)
  | .null => .ok 0
  | .bool b => .ok (if b then 1 else 0)
  | .string _ => .error .exception
  | .array _ => .error .exception
  | .object _ => .error .exception

def asMembers : Value -> Except Exn Members
  | .object members => .ok members
  | .null => .ok []
  | _ => .error .exception

/-- `get`. -/
def get (v : Value) (key : Text) (defaultValue : Value) : Except Exn Value := do
  let members ← v.asMembers
  pure ((Sorted.find (cString key) members).getD defaultValue)

def getMemberNames (v : Value) : Except Exn (List Text) := do
  let members ← v.asMembers
  pure (members.map Prod.fst)

def values : Value -> List Value
  | .array elements => elements
  | .object members => members.map Prod.snd
  | _ => []

end Value

end JsonCpp
end BeeGadz
