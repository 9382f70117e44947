import Mathlib.Data.Rat.Init
import BeeGadz.Foundation.Rounding
import BeeGadz.Foundation.Vec
import BeeGadz.World

/-!
# Configuration and amounts

The configuration a run reads, and how amounts are stored, computed and printed.
What four cells hold as a `float` is a parameter, together with the two ways of
printing one.  Every sum and product of the program is rounded to what the cells
can hold.
-/

namespace BeeGadz

open Foundation

structure Config where
  /-- `m_consos`: names and prices -/
  consos : List (String × Rat)
  /-- `m_config["pianss"]` -/
  pianss : String
  /-- `m_config["ticket"]`, written by `std::to_string` and read by
  `std::stoi` -/
  ticket : Int
  keys : Vec UInt8
  key : Vec UInt8

namespace Config

/-- The entry `"ticket"` that the constructor computes from the name the file
gives: the position of the first conso of that name, -1 if there is none. -/
def ticketEntry (consos : List (String × Rat)) (value : String) : Int :=
  match consos.findIdx? fun i => i.1 == value with
  | some i => i
  | none => -1

/-- `std::stoi` of the text of a number, which throws when it is no `int`. -/
def stoi (n : Int) : Except Exn Int :=
  if -2147483648 ≤ n ∧ n ≤ 2147483647 then .ok n else .error .exception

def getConso (cfg : Config) (nb : Nat) : Except Exn (String × Rat) :=
  match cfg.consos[nb]? with
  | some conso => .ok conso
  | none => .error .exception

def getNbConso (cfg : Config) : Nat :=
  cfg.consos.length

def getKeys (cfg : Config) (isCaisse : Bool) : Vec UInt8 :=
  if isCaisse then cfg.keys else cfg.key

def PricesNonneg (cfg : Config) : Prop :=
  forall conso, conso ∈ cfg.consos -> 0 ≤ conso.2

theorem getConso_ok {cfg : Config} {nb : Nat} (h : nb < cfg.getNbConso) :
    exists conso, cfg.getConso nb = .ok conso ∧
      cfg.consos[nb]? = some conso := by
  have hnb : nb < cfg.consos.length := h
  refine ⟨cfg.consos[nb], ?_, List.getElem?_eq_getElem hnb⟩
  rw [getConso, List.getElem?_eq_getElem hnb]

theorem getConso_eq_ok {cfg : Config} {nb : Nat} {conso : String × Rat} :
    cfg.getConso nb = .ok conso <-> cfg.consos[nb]? = some conso := by
  unfold getConso
  cases cfg.consos[nb]? with
  | none => simp
  | some other => simp

theorem getConso_error {cfg : Config} {nb : Nat} {e : Exn}
    (h : cfg.getConso nb = .error e) : e = .exception := by
  unfold getConso at h
  cases hget : cfg.consos[nb]? with
  | none =>
      rw [hget] at h
      cases h
      rfl
  | some conso =>
      rw [hget] at h
      cases h

end Config

/-!
## Amounts in cells
-/

/-- Cells in which amounts are stored: what four of them hold as a `float`, and
the text of an amount by `operator<<` and by `std::to_string`. -/
class FloatCell (β : Type) extends Cell β where
  encode : Rat -> Bytes β 4
  decode : Bytes β 4 -> Rat
  stream (β) : Rat -> String
  fixed (β) : Rat -> String

namespace FloatCell

/-- The `float` that is kept of a result: what four cells give back of it. -/
def round (β : Type) [FloatCell β] (q : Rat) : Rat :=
  decode (encode q : Bytes β 4)

/-- `float * size_t`: the number becomes a `float`, and so does the product. -/
def times (β : Type) [FloatCell β] (price : Rat) (n : Nat) : Rat :=
  round β (price * round β n)

end FloatCell

/-- The idealisation of amounts: nothing is lost by rounding, and 0 is stored as
zeros. -/
class ExactFloat (β : Type) [FloatCell β] : Prop where
  decode_encode : forall q : Rat,
    FloatCell.decode (FloatCell.encode q : Bytes β 4) = q
  encode_zero :
    (FloatCell.encode 0 : Bytes β 4) = fun _ => Cell.ofByte 0

attribute [simp] ExactFloat.decode_encode

@[simp]
theorem FloatCell.round_eq (β : Type) [FloatCell β] [ExactFloat β] (q : Rat) :
    FloatCell.round β q = q :=
  ExactFloat.decode_encode q

@[simp]
theorem FloatCell.times_eq (β : Type) [FloatCell β] [ExactFloat β]
    (price : Rat) (n : Nat) : FloatCell.times β price n = price * n := by
  simp [FloatCell.times]

def amountText (print : Rat -> String) (q : Rat) : String :=
  if |q| < Rounding.limit .binary32 then print q
  else if q < 0 then "-inf"
  else "inf"

/-- Bytes, which hold a `float` in binary32 with its lowest byte first. -/
instance : FloatCell UInt8 where
  encode q := fun i => UInt8.ofNat
    ((Float.Model.UnpackedFloat.pack .binary32
      (Rounding.nearest .binary32 (q < 0) |q|)).toNat >>> (8 * i.val))
  decode b := Rounding.valueOf .binary32
    (Float.Model.UnpackedFloat.unpack .binary32 (BitVec.ofNat 32
      ((b 0).toNat + 2 ^ 8 * (b 1).toNat + 2 ^ 16 * (b 2).toNat +
        2 ^ 24 * (b 3).toNat)))
  stream := amountText (Rounding.general 6)
  fixed := amountText (Rounding.fixed 6)

/-- The sum of 5.1 and 20.2 is not stored as 25.3. -/
example :
    FloatCell.round UInt8
      (FloatCell.round UInt8 (51 / 10) + FloatCell.round UInt8 (101 / 5)) ≠
        FloatCell.round UInt8 (253 / 10) := by
  decide +kernel

/-- Cells that hold a rational each: a byte is its value, an amount is stored in
the first of four cells. -/
instance : FloatCell Rat where
  ofByte b := b.toNat
  toByte q := UInt8.ofNat q.num.toNat
  toByte_ofByte b := by simp
  encode q := fun i => if i = 0 then q else 0
  decode b := b 0
  stream := toString
  fixed := toString

instance : ExactFloat Rat where
  decode_encode q := by simp [FloatCell.encode, FloatCell.decode]
  encode_zero := by
    funext i
    by_cases hi : i = 0
    · simp [FloatCell.encode, Cell.ofByte, hi]
    · simp [FloatCell.encode, Cell.ofByte, hi]

end BeeGadz
