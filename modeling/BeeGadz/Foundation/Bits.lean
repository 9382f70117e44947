import Mathlib.Data.BitVec

/-!
# The bits of a byte

Reading one bit of a byte and writing one, and what a byte keeps of a number.
-/

namespace BeeGadz
namespace Foundation

def bit (x : UInt8) (i : Nat) : Bool :=
  x.toBitVec.getLsbD i

/-- The byte with bit `i` set to `v`.  Bits from the eighth on do not exist. -/
def setBit (x : UInt8) (i : Nat) (v : Bool) : UInt8 :=
  UInt8.ofBitVec
    (if v then x.toBitVec ||| BitVec.twoPow 8 i
    else x.toBitVec &&& ~~~BitVec.twoPow 8 i)

theorem bit_setBit (x : UInt8) {i : Nat} (v : Bool) (j : Nat) (hi : i < 8) :
    bit (setBit x i v) j = if j = i then v else bit x j := by
  have hmask : (BitVec.twoPow 8 i).getLsbD j = decide (i = j) := by
    rw [BitVec.getLsbD_twoPow]
    simp [hi]
  by_cases hj : j = i
  · subst hj
    cases v with
    | true => simp [bit, setBit, hmask]
    | false => simp [bit, setBit, hmask]
  · have hne : ¬ i = j := fun h => hj h.symm
    cases v with
    | true => simp [bit, setBit, hmask, hj, hne]
    | false =>
        by_cases hin : j < 8
        · simp [bit, setBit, hj, hin]
        · simp [bit, setBit, hj, BitVec.getLsbD_of_ge _ _ (Nat.not_lt.mp hin)]

theorem bit_setBit_setBit (x : UInt8) {i k : Nat} (v w : Bool) (j : Nat)
    (hi : i < 8) (hk : k < 8) (hne : i ≠ k) :
    bit (setBit (setBit x i v) k w) j =
      if j = i then v else if j = k then w else bit x j := by
  rw [bit_setBit _ w j hk, bit_setBit x v j hi]
  by_cases hji : j = i
  · simp [hji, hne]
  · simp [hji]

theorem toNat_ofInt (x : Int) : ((UInt8.ofInt x).toNat : Int) = x % 256 := by
  have hvalue : (UInt8.ofInt x).toNat = (x % 256).toNat % 256 := by
    rw [UInt8.ofInt, UInt8.toNat_ofNat']
    rfl
  omega

theorem toNat_ofInt_eq_iff {x : Int} :
    ((UInt8.ofInt x).toNat : Int) = x <-> 0 ≤ x ∧ x < 256 := by
  rw [toNat_ofInt]
  omega

end Foundation
end BeeGadz
