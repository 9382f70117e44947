import BeeGadz.Config

/-!
# The record of a card

The contents of the first three blocks of sector 1: a role name, a credit or a
conso number, and a ticket.  A name is compared as a C string, which ends at the
first zero cell; only a name of sixteen cells or more would reach into what
follows the block.
-/

namespace BeeGadz

open Foundation

def ascii (name : String) : List UInt8 :=
  name.toList.map fun ch => UInt8.ofNat ch.toNat

namespace Bytes

variable {β : Type} [Cell β]

def values (data : Bytes β 16) : List UInt8 :=
  List.ofFn fun i => Cell.toByte (data i)

def text (data : Bytes β 16) : List UInt8 :=
  data.values.takeWhile fun x => x ≠ 0

def putName (data : Bytes β 16) (name : List UInt8) : Bytes β 16 :=
  fun i =>
    match (name ++ [0])[i.val]? with
    | some x => Cell.ofByte x
    | none => data i

theorem values_length (data : Bytes β 16) : data.values.length = 16 :=
  List.length_ofFn

theorem values_getElem? (data : Bytes β 16) (i : Fin 16) :
    data.values[i.val]? = some (Cell.toByte (data i)) := by
  unfold values
  rw [List.getElem?_ofFn, dif_pos i.isLt]

theorem values_putName (data : Bytes β 16) {name : List UInt8}
    (hname : name.length < 16) :
    (data.putName name).values =
      name ++ 0 :: data.values.drop (name.length + 1) := by
  have hsplit : name ++ 0 :: data.values.drop (name.length + 1) =
      (name ++ [0]) ++ data.values.drop (name.length + 1) := by
    simp
  have hlength : (name ++ [0]).length = name.length + 1 := by
    simp
  rw [hsplit]
  apply List.ext_getElem?
  intro i
  by_cases hi : i < 16
  · rw [values_getElem? _ ⟨i, hi⟩, putName]
    by_cases hlt : i < name.length + 1
    · have hmem : i < (name ++ [0]).length := by
        omega
      rw [List.getElem?_append_left hmem, List.getElem?_eq_getElem hmem]
      simp
    · have hnone : (name ++ [0])[i]? = none := by
        rw [List.getElem?_eq_none_iff]
        omega
      have hoffset : name.length + 1 + (i - (name.length + 1)) = i := by
        omega
      have hright : (name ++ [0] ++
          data.values.drop (name.length + 1))[i]? = data.values[i]? := by
        rw [List.getElem?_append_right (by omega), hlength,
          List.getElem?_drop, hoffset]
      rw [hright, hnone, values_getElem? _ ⟨i, hi⟩]
  · have hend : forall xs : List UInt8, xs.length = 16 -> xs[i]? = none := by
      intro xs hxs
      rw [List.getElem?_eq_none_iff]
      omega
    rw [hend _ (values_length _), hend]
    rw [List.length_append, List.length_drop, values_length]
    omega

theorem text_putName (data : Bytes β 16) {name : List UInt8}
    (hname : name.length < 16) (hzero : forall x, x ∈ name -> x ≠ 0) :
    text (data.putName name) = name := by
  rw [text, values_putName data hname, List.takeWhile_append_of_pos]
  · simp
  · simpa using hzero

end Bytes

theorem takeWhile_append_eq_iff {p : UInt8 -> Bool} {xs ys l : List UInt8}
    (hl : l.length < xs.length) :
    (xs ++ ys).takeWhile p = l <-> xs.takeWhile p = l := by
  rw [List.takeWhile_append]
  by_cases hall : (xs.takeWhile p).length = xs.length
  · rw [if_pos hall]
    constructor
    · intro h
      rw [← h, List.length_append] at hl
      omega
    · intro h
      rw [← h] at hl
      omega
  · rw [if_neg hall]

theorem Block.cString_eq_iff {β : Type} [Cell β] (b : Block β)
    {name : List UInt8} (hname : name.length < 16) :
    b.cString = name <-> b.data.text = name := by
  unfold Block.cString Block.image
  apply takeWhile_append_eq_iff
  rw [List.length_ofFn]
  exact hname

/-!
## Roles
-/

inductive Role where
  | admin
  | sos
  | debit
  | conso
deriving DecidableEq

def Role.name : Role -> String
  | .admin => "ADMIN"
  | .sos => "SOS"
  | .debit => "DEBIT"
  | .conso => "CONSO"

theorem Role.ascii_length (r : Role) : (ascii r.name).length < 16 := by
  cases r <;> decide

theorem Role.ascii_ne_zero (r : Role) :
    forall x, x ∈ ascii r.name -> x ≠ 0 := by
  have hall : ((ascii r.name).all fun x => x != 0) = true := by
    cases r <;> decide
  intro x hx
  simpa using List.all_eq_true.mp hall x hx

theorem Role.ascii_injective {a b : Role}
    (h : ascii a.name = ascii b.name) : a = b := by
  cases a <;> cases b <;> first | rfl | exact absurd h (by decide)

namespace Bytes

variable {β : Type} [Cell β]

def Says (data : Bytes β 16) (r : Role) : Prop :=
  data.text = ascii r.name

instance (data : Bytes β 16) (r : Role) : Decidable (data.Says r) :=
  inferInstanceAs (Decidable (data.text = ascii r.name))

theorem Says.unique {data : Bytes β 16} {a b : Role} (ha : data.Says a)
    (hb : data.Says b) : a = b :=
  Role.ascii_injective (ha.symm.trans hb)

theorem says_putName (data : Bytes β 16) (r : Role) :
    (data.putName (ascii r.name)).Says r :=
  text_putName data r.ascii_length r.ascii_ne_zero

def first (data : Bytes β 16) : UInt8 :=
  Cell.toByte (data 0)

def second (data : Bytes β 16) : UInt8 :=
  Cell.toByte (data 1)

def putFirst (data : Bytes β 16) (x : UInt8) : Bytes β 16 :=
  Function.update data 0 (Cell.ofByte x)

def putSecond (data : Bytes β 16) (x : UInt8) : Bytes β 16 :=
  Function.update data 1 (Cell.ofByte x)

@[simp] theorem first_putFirst (data : Bytes β 16) (x : UInt8) :
    (data.putFirst x).first = x := by
  simp [first, putFirst]

@[simp] theorem second_putFirst (data : Bytes β 16) (x : UInt8) :
    (data.putFirst x).second = data.second := by
  simp [second, putFirst]

@[simp] theorem first_putSecond (data : Bytes β 16) (x : UInt8) :
    (data.putSecond x).first = data.first := by
  simp [first, putSecond]

@[simp] theorem second_putSecond (data : Bytes β 16) (x : UInt8) :
    (data.putSecond x).second = x := by
  simp [second, putSecond]

theorem not_says_zero (r : Role) :
    ¬ Says (fun _ => Cell.ofByte 0 : Bytes β 16) r := by
  intro h
  have htext : text (fun _ => Cell.ofByte 0 : Bytes β 16) = [] := by
    simp [text, values]
  rw [Says, htext] at h
  cases r <;> exact absurd h (by decide)

section Amounts

variable {β : Type} [FloatCell β]

def credit (data : Bytes β 16) : Rat :=
  FloatCell.decode data.first4

def putCredit (data : Bytes β 16) (q : Rat) : Bytes β 16 :=
  data.copy 0 (FloatCell.encode q)

variable [ExactFloat β]

@[simp] theorem credit_putCredit (data : Bytes β 16) (q : Rat) :
    (data.putCredit q).credit = q := by
  simp [credit, putCredit]

theorem credit_zero : credit (fun _ => Cell.ofByte 0 : Bytes β 16) = 0 := by
  have hzero : first4 (fun _ => Cell.ofByte 0 : Bytes β 16) =
      FloatCell.encode 0 := by
    rw [ExactFloat.encode_zero]
    rfl
  rw [credit, hzero, ExactFloat.decode_encode]

end Amounts

end Bytes

end BeeGadz
