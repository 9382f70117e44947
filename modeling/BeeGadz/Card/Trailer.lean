import Mathlib.Data.Fin.VecNotation
import Mathlib.Data.List.FinRange
import BeeGadz.Card.Sector
import BeeGadz.Foundation.Bits
import BeeGadz.Foundation.Simulation

/-!
# The sector trailer

The last block of a sector holds its two keys and, in three bytes between them,
the access bits of its four groups of blocks.
-/

namespace BeeGadz

open Foundation

/-- `Sector::Flag`, an enumeration whose values are combined as bits. -/
abbrev Flag : Type :=
  UInt32

namespace Flag

-- the rights on a trailer
def A_W_A : Flag := (1 : Flag) <<< 9
def B_W_A : Flag := (1 : Flag) <<< 8
def A_R_C : Flag := (1 : Flag) <<< 7
def B_R_C : Flag := (1 : Flag) <<< 6
def A_W_C : Flag := (1 : Flag) <<< 5
def B_W_C : Flag := (1 : Flag) <<< 4
def A_R_B : Flag := (1 : Flag) <<< 3
def A_W_B : Flag := (1 : Flag) <<< 1
def B_W_B : Flag := (1 : Flag) <<< 0

-- the rights on any other block, by the same bits
def A_R : Flag := (1 : Flag) <<< 7
def B_R : Flag := (1 : Flag) <<< 6
def A_W : Flag := (1 : Flag) <<< 5
def B_W : Flag := (1 : Flag) <<< 4
def A_I : Flag := (1 : Flag) <<< 3
def B_I : Flag := (1 : Flag) <<< 2
def A_D : Flag := (1 : Flag) <<< 1
def B_D : Flag := (1 : Flag) <<< 0

end Flag

open BeeGadz.Flag in
/-- `Sector::m_accessTrailer`. -/
def accessTrailer : Fin 8 -> UInt16 :=
  ![(A_W_A ||| A_R_C ||| A_R_B ||| A_W_B).toUInt16,
    (A_W_A ||| A_R_C ||| A_W_C ||| A_R_B ||| A_W_B).toUInt16,
    (A_R_C ||| A_R_B).toUInt16,
    (B_W_A ||| A_R_C ||| B_R_C ||| B_W_C ||| B_W_B).toUInt16,
    (B_W_A ||| A_R_C ||| B_R_C ||| B_W_B).toUInt16,
    (A_R_C ||| B_R_C ||| B_W_C).toUInt16,
    (A_R_C ||| B_R_C).toUInt16,
    (A_R_C ||| B_R_C).toUInt16]

open BeeGadz.Flag in
/-- `Sector::m_accessBlock`. -/
def accessBlock : Fin 8 -> UInt8 :=
  ![(A_R ||| B_R ||| A_W ||| B_W ||| A_I ||| B_I ||| A_D ||| B_D).toUInt8,
    (A_R ||| B_R ||| A_D ||| B_D).toUInt8,
    (A_R ||| B_R).toUInt8,
    (B_R ||| B_W).toUInt8,
    (A_R ||| B_R ||| B_W).toUInt8,
    B_R.toUInt8,
    (A_R ||| B_R ||| B_W ||| B_I ||| A_D ||| B_D).toUInt8,
    0]

/-- The bits `C1`, `C2` and `C3` of a group of blocks. -/
structure Access where
  c1 : Bool
  c2 : Bool
  c3 : Bool
deriving DecidableEq

namespace Access

/-- `std::bitset<3> bits(row)` with `bits[2]`, `bits[1]` and `bits[0]`. -/
def ofRow (row : Fin 8) : Access where
  c1 := row.val.testBit 2
  c2 := row.val.testBit 1
  c3 := row.val.testBit 0

def row (bits : Access) : Fin 8 :=
  match bits with
  | ⟨false, false, false⟩ => 0
  | ⟨false, false, true⟩ => 1
  | ⟨false, true, false⟩ => 2
  | ⟨false, true, true⟩ => 3
  | ⟨true, false, false⟩ => 4
  | ⟨true, false, true⟩ => 5
  | ⟨true, true, false⟩ => 6
  | ⟨true, true, true⟩ => 7

@[simp] theorem row_ofRow (row : Fin 8) : (ofRow row).row = row := by
  revert row
  decide

@[simp] theorem ofRow_row (bits : Access) : ofRow bits.row = bits := by
  rcases bits with ⟨c1, c2, c3⟩
  revert c1 c2 c3
  decide

end Access

namespace Block

variable {β : Type} [Cell β]

def byte (b : Block β) (i : Fin 16) : UInt8 :=
  Cell.toByte (b.data i)

def setByte (b : Block β) (i : Fin 16) (x : UInt8) : Block β :=
  { b with data := Function.update b.data i (Cell.ofByte x) }

/-- One case of the loop over the access bytes: `uchar[block]` and
`uchar[block + 4]` of the byte `i` are assigned.  The bits of the
`std::bitset<8>` are in a word of 64, and the index is not checked. -/
def setBits (b : Block β) (i : Fin 16) (block : Nat) (low high : Bool) :
    Block β :=
  b.setByte i
    (setBit (setBit (b.byte i) (block % 64) low) ((block + 4) % 64) high)

def setAccess (b : Block β) (block : Nat) (bits : Access) : Block β :=
  let b := b.setBits 6 block (!bits.c1) (!bits.c2)
  let b := b.setBits 7 block (!bits.c3) bits.c1
  b.setBits 8 block bits.c2 bits.c3

end Block

/-- The group a block of a sector of `size` blocks shares its access bits
with. -/
def accessGroup (size block : Nat) : Nat :=
  if 4 < size then
    if block < 5 then 0
    else if block < 10 then 1
    else if block < 15 then 2
    else 3
  else block

def accessTable (size block : Nat) (row : Fin 8) : Flag :=
  if block = size - 1 then (accessTrailer row).toUInt32
  else (accessBlock row).toUInt32

/-- `tab`: the rows that stand for exactly these rights. -/
def accessRows (size block : Nat) (permissions : Flag) : List (Fin 8) :=
  (List.finRange 8).filter fun row =>
    accessTable size block row == permissions

namespace Sector

variable {β : Type} [Cell β]

def trailer (s : Sector β) : Block β :=
  s.data.get (s.size - 1)

def setKeyA (s : Sector β) (keyA : Bytes UInt8 6) : Sector β :=
  let tmp := s.trailer
  let tmp := { tmp with
    data := Bytes.copy tmp.data 0 fun i => Cell.ofByte (keyA i) }
  let s := s.setBlock (s.size - 1) tmp
  if s.keyB then s else s.setAuthentificationKey keyA

def setKeyB (s : Sector β) (keyB : Bytes UInt8 6) : Sector β :=
  let tmp := s.trailer
  let tmp := { tmp with
    data := Bytes.copy tmp.data 10 fun i => Cell.ofByte (keyB i) }
  let s := s.setBlock (s.size - 1) tmp
  if s.keyB then s.setAuthentificationKey keyB else s

/-- The assignments to the trailer both `setPermissions` end with. -/
def setAccess (s : Sector β) (block : Nat) (bits : Access) : Sector β :=
  s.setBlock (s.size - 1)
    (s.trailer.setAccess (accessGroup s.size block) bits)

/-- `setPermissions(block, C1, C2, C3)`. -/
def setPermissions (s : Sector β) (block : Nat) (bits : Access) :
    Bool × Sector β :=
  (true, s.setAccess block bits)

/-- `setPermissions(block, permissions)`. -/
def setPermissionFlags (s : Sector β) (block : Nat) (permissions : Flag) :
    Bool × Sector β :=
  if block = s.size - 1 ∧ permissions &&& Flag.B_I ≠ 0 then (false, s)
  else if block ≠ s.size - 1 ∧
      (permissions &&& Flag.A_W_A ≠ 0 ∨ permissions &&& Flag.B_W_A ≠ 0) then
    (false, s)
  else if s.size ≤ block then (false, s)
  else
    match accessRows s.size block permissions with
    | [row] => (true, s.setAccess block (Access.ofRow row))
    | _ => (false, s)

end Sector

end BeeGadz
