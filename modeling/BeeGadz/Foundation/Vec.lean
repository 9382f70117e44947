import Mathlib.Logic.Function.Basic

/-!
# Vectors with an unchecked index

A C++ vector is a size together with the memory its buffer starts at.  Reading
past the size is not an error of the language: it yields whatever the memory
behind the buffer holds, so `get` is total and only `size` says which entries
belong to the vector.
-/

namespace BeeGadz
namespace Foundation

/-- The number of values of `size_t`, in which sizes and counts wrap. -/
def sizeValues : Nat :=
  0x10000000000000000

/-- The number of values of `int`. -/
def intValues : Nat :=
  0x100000000

/-- The first number that is no `int`. -/
def intLimit : Nat :=
  0x80000000

/-- The conversion to `int`. -/
def toInt (n : Int) : Int :=
  n.bmod intValues

/-- The conversion of an `int` to `size_t`. -/
def toSize (n : Int) : Nat :=
  (n % sizeValues).toNat

theorem toInt_of_small {n : Nat} (h : n < intLimit) : toInt n = n :=
  Int.bmod_eq_of_le (by simp only [intValues]; omega)
    (by simp only [intValues, intLimit] at *; omega)

theorem intLimit_lt_sizeValues : intLimit < sizeValues := by
  decide

theorem toSize_of_small {n : Nat} (h : n < sizeValues) :
    toSize n = n := by
  have hmod : (n : Int) % (sizeValues : Int) = n :=
    Int.emod_eq_of_lt (Int.natCast_nonneg n) (Int.ofNat_lt.mpr h)
  rw [toSize, hmod, Int.toNat_natCast]

structure Vec (α : Type) where
  size : Nat
  get : Nat -> α

namespace Vec

variable {α : Type}

def replicate (n : Nat) (a : α) : Vec α where
  size := n
  get := fun _ => a

def set (v : Vec α) (i : Nat) (a : α) : Vec α where
  size := v.size
  get := Function.update v.get i a

def copied (copy : α -> α) (behind : Nat -> α) (v : Vec α) : Vec α where
  size := v.size
  get := fun i => if i < v.size then copy (v.get i) else behind i

/-- `resize(n, a)`: the entries stay, and missing ones become `a`. -/
def resize (n : Nat) (a : α) (behind : Nat -> α) (v : Vec α) : Vec α where
  size := n
  get := fun i =>
    if i < n then (if i < v.size then v.get i else a) else behind i

def modify (v : Vec α) (i : Nat) (f : α -> α) : Vec α :=
  v.set i (f (v.get i))

@[simp] theorem replicate_size (n : Nat) (a : α) :
    (replicate n a).size = n := rfl

@[simp] theorem replicate_get (n : Nat) (a : α) (i : Nat) :
    (replicate n a).get i = a := rfl

@[simp] theorem set_size (v : Vec α) (i : Nat) (a : α) :
    (v.set i a).size = v.size := rfl

@[simp] theorem set_get_self (v : Vec α) (i : Nat) (a : α) :
    (v.set i a).get i = a := by
  simp [set]

theorem set_get_of_ne (v : Vec α) {i j : Nat} (a : α) (h : j ≠ i) :
    (v.set i a).get j = v.get j := by
  simp [set, h]

theorem set_get (v : Vec α) (i j : Nat) (a : α) :
    (v.set i a).get j = if j = i then a else v.get j := by
  simp [set, Function.update_apply]

@[simp] theorem copied_size (copy : α -> α) (behind : Nat -> α)
    (v : Vec α) : (copied copy behind v).size = v.size := rfl

theorem copied_get (copy : α -> α) (behind : Nat -> α) (v : Vec α) {i : Nat}
    (h : i < v.size) : (copied copy behind v).get i = copy (v.get i) :=
  if_pos h

@[simp] theorem resize_size (n : Nat) (a : α) (behind : Nat -> α)
    (v : Vec α) : (resize n a behind v).size = n := rfl

theorem resize_get (a : α) (behind : Nat -> α) (v : Vec α) {i : Nat}
    (h : i < v.size) : (resize v.size a behind v).get i = v.get i := by
  simp [resize, h]

@[simp] theorem modify_size (v : Vec α) (i : Nat) (f : α -> α) :
    (v.modify i f).size = v.size := rfl

@[simp] theorem modify_get_self (v : Vec α) (i : Nat) (f : α -> α) :
    (v.modify i f).get i = f (v.get i) := by
  simp [modify]

theorem modify_get_of_ne (v : Vec α) {i j : Nat} (f : α -> α) (h : j ≠ i) :
    (v.modify i f).get j = v.get j := by
  simp [modify, set_get_of_ne v _ h]

theorem modify_get (v : Vec α) (i j : Nat) (f : α -> α) :
    (v.modify i f).get j = if j = i then f (v.get i) else v.get j := by
  simp [modify, set_get]

end Vec

end Foundation
end BeeGadz
