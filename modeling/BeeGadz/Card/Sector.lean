import BeeGadz.Card.Block
import BeeGadz.Foundation.Vec

/-!
# Sectors

A sector is a vector of blocks with the key last used to authenticate it.
-/

namespace BeeGadz

open Foundation

structure Sector (β : Type) where
  data : Vec (Block β)
  key : Bytes UInt8 6
  isTrailer : Bool
  keyB : Bool

namespace Sector

variable {β : Type}

/-- `Sector::Sector(isTrailer, nbBlock, keyB)`. -/
def new [Cell β] (isTrailer : Bool) (nbBlock : Nat) (keyB : Bool) :
    Sector β where
  data := Vec.replicate nbBlock Block.zero
  key := fun _ => 0xff
  isTrailer := isTrailer
  keyB := keyB

def size (s : Sector β) : Nat :=
  s.data.size

def setTrailer (s : Sector β) (isTrailer : Bool) : Sector β :=
  { s with isTrailer := isTrailer }

def useKeyB (s : Sector β) (keyB : Bool) : Sector β :=
  { s with keyB := keyB }

def setAuthentificationKey (s : Sector β) (key : Bytes UInt8 6) : Sector β :=
  { s with key := key }

/-- The assignment through `operator[]`. -/
def setBlock (s : Sector β) (k : Nat) (b : Block β) : Sector β :=
  { s with data := s.data.set k b }

@[simp] theorem new_size [Cell β] (isTrailer : Bool) (nbBlock : Nat)
    (keyB : Bool) : (new isTrailer nbBlock keyB : Sector β).size = nbBlock :=
  rfl

@[simp] theorem new_data [Cell β] (isTrailer : Bool) (nbBlock : Nat)
    (keyB : Bool) :
    (new isTrailer nbBlock keyB : Sector β).data =
      Vec.replicate nbBlock Block.zero := rfl

@[simp] theorem setTrailer_size (s : Sector β) (isTrailer : Bool) :
    (s.setTrailer isTrailer).size = s.size := rfl

@[simp] theorem setTrailer_data (s : Sector β) (isTrailer : Bool) :
    (s.setTrailer isTrailer).data = s.data := rfl

@[simp] theorem useKeyB_size (s : Sector β) (keyB : Bool) :
    (s.useKeyB keyB).size = s.size := rfl

@[simp] theorem setAuthentificationKey_size (s : Sector β)
    (key : Bytes UInt8 6) :
    (s.setAuthentificationKey key).size = s.size := rfl

@[simp] theorem setAuthentificationKey_data (s : Sector β)
    (key : Bytes UInt8 6) :
    (s.setAuthentificationKey key).data = s.data := rfl

@[simp] theorem setAuthentificationKey_keyB (s : Sector β)
    (key : Bytes UInt8 6) :
    (s.setAuthentificationKey key).keyB = s.keyB := rfl

@[simp] theorem setAuthentificationKey_key (s : Sector β)
    (key : Bytes UInt8 6) :
    (s.setAuthentificationKey key).key = key := rfl

@[simp] theorem setBlock_size (s : Sector β) (k : Nat) (b : Block β) :
    (s.setBlock k b).size = s.size := rfl

@[simp] theorem setBlock_keyB (s : Sector β) (k : Nat) (b : Block β) :
    (s.setBlock k b).keyB = s.keyB := rfl

@[simp] theorem setBlock_data (s : Sector β) (k : Nat) (b : Block β) :
    (s.setBlock k b).data = s.data.set k b := rfl

end Sector

end BeeGadz
