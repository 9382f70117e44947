import Mathlib.Algebra.GroupWithZero.Nat
import Mathlib.Data.Fin.Basic

/-!
# Blocks

A block is sixteen cells and a cache state.  The cells are `uint8_t` in the
source.  They are a type variable here because a credit is stored in four of
them and no codec of exact amounts into four `UInt8` is invertible: results
about amounts range over cells that can hold one, all others hold in particular
for `UInt8`.
-/

namespace BeeGadz

/-- A storage cell: it can hold a byte and be read as one. -/
class Cell (β : Type) where
  ofByte : UInt8 -> β
  toByte : β -> UInt8
  toByte_ofByte : forall b, toByte (ofByte b) = b

attribute [simp] Cell.toByte_ofByte

instance : Cell UInt8 where
  ofByte := id
  toByte := id
  toByte_ofByte := fun _ => rfl

abbrev Bytes (β : Type) (n : Nat) : Type :=
  Fin n -> β

instance neZeroBytes : NeZero 16 :=
  ⟨by decide⟩

namespace Bytes

variable {β : Type}

/-- `memcpy(&dst[off], src, n)`. -/
def copy {m n : Nat} (dst : Bytes β m) (off : Nat) (src : Bytes β n) :
    Bytes β m :=
  fun i =>
    if h : off ≤ i.val ∧ i.val - off < n then src ⟨i.val - off, h.right⟩
    else dst i

/-- The four cells `memcpy(&credit, data, 4)` reads. -/
def first4 (src : Bytes β 16) : Bytes β 4 :=
  fun i => src ⟨i.val, by omega⟩

@[simp] theorem first4_copy (dst : Bytes β 16) (src : Bytes β 4) :
    first4 (copy dst 0 src) = src := by
  funext i
  simp [first4, copy]

theorem copy_full (dst src : Bytes β 16) : copy dst 0 src = src := by
  funext i
  simp [copy]

end Bytes

/-- `Block::State`. -/
inductive BlockState where
  | clean
  | dirty
  | modified
deriving DecidableEq

theorem BlockState.unmodified_iff {state : BlockState} :
    state = .clean ∨ state = .dirty <-> state ≠ .modified := by
  cases state <;> simp

/-- The bytes of the enumerator as the little-endian `m_state` member that
follows `m_data` in memory. -/
def BlockState.image : BlockState -> List UInt8
  | .clean => [0, 0, 0, 0]
  | .dirty => [1, 0, 0, 0]
  | .modified => [2, 0, 0, 0]

@[ext]
structure Block (β : Type) where
  data : Bytes β 16
  state : BlockState

namespace Block

variable {β : Type} [Cell β]

/-- `Block::Block(nullptr)`. -/
def zero : Block β where
  data := fun _ => Cell.ofByte 0
  state := .dirty

def image (b : Block β) : List UInt8 :=
  (List.ofFn fun i => Cell.toByte (b.data i)) ++ b.state.image

/-- `std::string(reinterpret_cast<char*>(b.data()))`: the scan for the
terminator is not stopped by the end of `m_data`. -/
def cString (b : Block β) : List UInt8 :=
  b.image.takeWhile (fun x => x ≠ 0)

@[simp] theorem zero_data : (zero : Block β).data = fun _ => Cell.ofByte 0 :=
  rfl

end Block

end BeeGadz
