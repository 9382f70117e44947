import Mathlib.Data.List.Nodup
import BeeGadz.Card.Trailer

/-!
# The trailer as a record

What the setters of a sector do to its trailer: each of them writes one field of
it, a key or the access bits of one group, and leaves all others as they are.
-/

namespace BeeGadz

open Foundation

namespace Access

def all : List Access :=
  (List.finRange 8).map ofRow

theorem mem_all (bits : Access) : bits ∈ all :=
  List.mem_map.mpr ⟨bits.row, List.mem_finRange _, ofRow_row bits⟩

theorem nodup_all : all.Nodup :=
  (List.nodup_finRange 8).map (Function.LeftInverse.injective row_ofRow)

def invert (bits : Access) : Access where
  c1 := !bits.c1
  c2 := !bits.c2
  c3 := !bits.c3

end Access

/-- The triple grants exactly these rights to that kind of block. -/
def Grants (size block : Nat) (bits : Access) (permissions : Flag) : Prop :=
  accessTable size block bits.row = permissions

instance (size block : Nat) (bits : Access) (permissions : Flag) :
    Decidable (Grants size block bits permissions) :=
  inferInstanceAs (Decidable (_ = _))

def soleAccess (size block : Nat) (permissions : Flag) : Option Access :=
  match Access.all.filter fun bits => Grants size block bits permissions with
  | [bits] => some bits
  | _ => none

private theorem filter_eq_singleton {α : Type} {l : List α} {p : α -> Bool}
    {a : α} (hnodup : l.Nodup) (hall : forall x, x ∈ l) :
    l.filter p = [a] <-> p a = true ∧ forall x, p x = true -> x = a := by
  constructor
  · intro h
    have hmem : forall x, x ∈ l.filter p <-> x = a := by
      intro x
      rw [h, List.mem_singleton]
    constructor
    · exact (List.mem_filter.mp ((hmem a).mpr rfl)).right
    · intro x hx
      exact (hmem x).mp (List.mem_filter.mpr ⟨hall x, hx⟩)
  · intro hgiven
    rcases hgiven with ⟨ha, honly⟩
    apply List.perm_singleton.mp
    apply (List.perm_ext_iff_of_nodup (hnodup.filter p)
      (List.nodup_singleton a)).mpr
    intro x
    rw [List.mem_filter, List.mem_singleton]
    constructor
    · intro hx
      exact honly x hx.right
    · intro hx
      subst hx
      exact ⟨hall x, ha⟩

theorem soleAccess_eq_some {size block : Nat} {permissions : Flag}
    {bits : Access} :
    soleAccess size block permissions = some bits <->
      Grants size block bits permissions ∧
        forall other, Grants size block other permissions -> other = bits := by
  have hfilter := filter_eq_singleton (a := bits)
    (p := fun bits => decide (Grants size block bits permissions))
    Access.nodup_all Access.mem_all
  simp only [decide_eq_true_eq] at hfilter
  rw [← hfilter, soleAccess]
  split
  · rename_i only heq
    rw [heq]
    simp
  · rename_i hnot
    constructor
    · intro h
      cases h
    · intro h
      exact absurd h (hnot bits)

theorem accessRows_eq_singleton {size block : Nat} {permissions : Flag}
    {row : Fin 8} :
    accessRows size block permissions = [row] <->
      soleAccess size block permissions = some (Access.ofRow row) := by
  rw [accessRows, filter_eq_singleton (List.nodup_finRange 8) List.mem_finRange,
    soleAccess_eq_some]
  simp only [beq_iff_eq, Grants, Access.row_ofRow]
  constructor
  · intro hall
    rcases hall with ⟨hrow, honly⟩
    refine ⟨hrow, fun other hother => ?_⟩
    rw [← honly other.row hother, Access.ofRow_row]
  · intro hall
    rcases hall with ⟨hrow, honly⟩
    refine ⟨hrow, fun other hother => ?_⟩
    have hsame := honly (Access.ofRow other) (by rwa [Access.row_ofRow])
    rw [← Access.row_ofRow other, hsame, Access.row_ofRow]

-- The guards only refuse rights no row of the table stands for.

theorem accessTrailer_guard (row : Fin 8) :
    (accessTrailer row).toUInt32 &&& Flag.B_I = 0 := by
  revert row
  decide

theorem accessBlock_guard (row : Fin 8) :
    (accessBlock row).toUInt32 &&& Flag.A_W_A = 0 ∧
      (accessBlock row).toUInt32 &&& Flag.B_W_A = 0 := by
  revert row
  decide

namespace Sector

variable {β : Type} [Cell β]

theorem setPermissionFlags_outside (s : Sector β) {block : Nat}
    (permissions : Flag) (h : s.size ≤ block) :
    s.setPermissionFlags block permissions = (false, s) := by
  simp only [setPermissionFlags, if_pos h, ite_self]

theorem setPermissionFlags_of_none (s : Sector β) {block : Nat}
    {permissions : Flag}
    (h : soleAccess s.size block permissions = none) :
    s.setPermissionFlags block permissions = (false, s) := by
  have hrows : forall row, accessRows s.size block permissions ≠ [row] := by
    intro row hrow
    rw [accessRows_eq_singleton.mp hrow] at h
    cases h
  unfold setPermissionFlags
  split
  · rfl
  · split
    · rfl
    · split
      · rfl
      · split
        · rename_i row hrow
          exact absurd hrow (hrows row)
        · rfl

theorem setPermissionFlags_of_some (s : Sector β) {block : Nat}
    {permissions : Flag} {bits : Access} (hblock : block < s.size)
    (h : soleAccess s.size block permissions = some bits) :
    s.setPermissionFlags block permissions =
      (true, s.setAccess block bits) := by
  have hgrants := (soleAccess_eq_some.mp h).left
  have hrows : accessRows s.size block permissions = [bits.row] := by
    rw [accessRows_eq_singleton, Access.ofRow_row, h]
  have htrailer : ¬ (block = s.size - 1 ∧
      permissions &&& Flag.B_I ≠ 0) := by
    intro hall
    rcases hall with ⟨hlast, hbit⟩
    rw [Grants, accessTable, if_pos hlast] at hgrants
    exact hbit (hgrants ▸ accessTrailer_guard bits.row)
  have hother : ¬ (block ≠ s.size - 1 ∧
      (permissions &&& Flag.A_W_A ≠ 0 ∨ permissions &&& Flag.B_W_A ≠ 0)) := by
    intro hall
    rcases hall with ⟨hlast, hbits⟩
    rw [Grants, accessTable, if_neg hlast] at hgrants
    have hguard := accessBlock_guard bits.row
    rw [hgrants] at hguard
    cases hbits with
    | inl hbit => exact hbit hguard.left
    | inr hbit => exact hbit hguard.right
  rw [setPermissionFlags, if_neg htrailer, if_neg hother,
    if_neg (Nat.not_le.mpr hblock), hrows]
  simp only [Access.ofRow_row]

theorem setPermissionFlags_ok_iff (s : Sector β) {block : Nat}
    {permissions : Flag} :
    (s.setPermissionFlags block permissions).fst = true <->
      block < s.size ∧
        exists bits, soleAccess s.size block permissions = some bits := by
  cases Nat.lt_or_ge block s.size with
  | inr hout =>
      rw [setPermissionFlags_outside s permissions hout]
      simp [Nat.not_lt.mpr hout]
  | inl hblock =>
      cases hsole : soleAccess s.size block permissions with
      | none => simp [setPermissionFlags_of_none s hsole]
      | some bits => simp [setPermissionFlags_of_some s hblock hsole, hblock]

/-- The flags are written as the one triple that grants them, and refused if
there is none or more than one. -/
theorem permissions_agree (s : Sector β) (block : Nat) (permissions : Flag) :
    ((s.setPermissionFlags block permissions).fst = true <->
      block < s.size ∧
        exists bits, Grants s.size block bits permissions ∧
          forall other, Grants s.size block other permissions ->
            other = bits) ∧
    ((s.setPermissionFlags block permissions).fst = true ->
      exists bits, Grants s.size block bits permissions ∧
        (s.setPermissionFlags block permissions).snd =
          (s.setPermissions block bits).snd) ∧
    ((s.setPermissionFlags block permissions).fst = false ->
      (s.setPermissionFlags block permissions).snd = s) := by
  refine ⟨?_, ?_, ?_⟩
  · rw [setPermissionFlags_ok_iff]
    simp only [soleAccess_eq_some]
  · intro hok
    rcases s.setPermissionFlags_ok_iff.mp hok with ⟨hblock, bits, hsole⟩
    refine ⟨bits, (soleAccess_eq_some.mp hsole).left, ?_⟩
    rw [setPermissionFlags_of_some s hblock hsole]
    rfl
  · intro hfail
    cases Nat.lt_or_ge block s.size with
    | inr hout => rw [setPermissionFlags_outside s permissions hout]
    | inl hblock =>
        cases hsole : soleAccess s.size block permissions with
        | none => rw [setPermissionFlags_of_none s hsole]
        | some bits =>
            rw [setPermissionFlags_of_some s hblock hsole] at hfail
            cases hfail

/-- The last two rows of the table for trailers are the same, so the rights they
stand for cannot be set. -/
theorem shared_rights_refused :
    let s : Sector UInt8 := new false 4 false
    let permissions := Flag.A_R_C ||| Flag.B_R_C
    3 < s.size ∧ (exists bits, Grants s.size 3 bits permissions) ∧
      (s.setPermissionFlags 3 permissions).fst = false := by
  refine ⟨by decide, ⟨⟨true, true, false⟩, by decide⟩, ?_⟩
  decide

end Sector

/-- The six bits of a group of blocks: each access bit and its inverted copy. -/
structure AccessBits where
  bits : Access
  inverted : Access
deriving DecidableEq

namespace AccessBits

def decode (b : AccessBits) : Option Access :=
  if b.inverted = b.bits.invert then some b.bits else none

def encode (bits : Access) : AccessBits where
  bits := bits
  inverted := bits.invert

@[simp] theorem decode_encode (bits : Access) :
    (encode bits).decode = some bits := by
  simp [decode, encode]

end AccessBits

namespace Block

variable {β : Type} [Cell β]

def keyA (b : Block β) : Bytes β 6 :=
  fun i => b.data ⟨i.val, by omega⟩

def keyB (b : Block β) : Bytes β 6 :=
  fun i => b.data ⟨i.val + 10, by omega⟩

/-- The access bits of a group: `C1` and the inverted `C3` are in byte 7, `C2`
and `C3` in byte 8, the inverted `C1` and `C2` in byte 6. -/
def accessBits (b : Block β) (group : Nat) : AccessBits where
  bits := ⟨bit (b.byte 7) (group + 4), bit (b.byte 8) group,
    bit (b.byte 8) (group + 4)⟩
  inverted := ⟨bit (b.byte 6) group, bit (b.byte 6) (group + 4),
    bit (b.byte 7) group⟩

def AccessValid (b : Block β) : Prop :=
  forall group, group < 4 -> (b.accessBits group).decode.isSome = true

theorem byte_setBits (b : Block β) (i j : Fin 16) {block : Nat}
    (low high : Bool) (hblock : block < 4) :
    (b.setBits i block low high).byte j =
      if j = i then setBit (setBit (b.byte i) block low) (block + 4) high
      else b.byte j := by
  have hlow : block % 64 = block := Nat.mod_eq_of_lt (by omega)
  have hhigh : (block + 4) % 64 = block + 4 := Nat.mod_eq_of_lt (by omega)
  rw [setBits, hlow, hhigh]
  by_cases hj : j = i
  · subst hj
    simp [byte, setByte]
  · simp [byte, setByte, hj]

theorem bit_group (x : UInt8) {block group : Nat} (low high : Bool)
    (hblock : block < 4) (hgroup : group < 4) :
    bit (setBit (setBit x block low) (block + 4) high) group =
        (if group = block then low else bit x group) ∧
      bit (setBit (setBit x block low) (block + 4) high) (group + 4) =
        (if group = block then high else bit x (group + 4)) := by
  have hwrite := fun j =>
    bit_setBit_setBit x low high j (by omega : block < 8)
      (by omega : block + 4 < 8) (by omega)
  constructor
  · rw [hwrite, if_neg (by omega : ¬ group = block + 4)]
  · rw [hwrite, if_neg (by omega : ¬ group + 4 = block)]
    simp only [Nat.add_right_cancel_iff]

theorem accessBits_setAccess (b : Block β) {block group : Nat}
    (bits : Access) (hblock : block < 4) (hgroup : group < 4) :
    (b.setAccess block bits).accessBits group =
      if group = block then AccessBits.encode bits
      else b.accessBits group := by
  have hlow := fun x low high => (bit_group x low high hblock hgroup).left
  have hhigh := fun x low high => (bit_group x low high hblock hgroup).right
  by_cases hsame : group = block
  · subst hsame
    simp only [if_true] at hlow hhigh
    simp [accessBits, setAccess, byte_setBits _ _ _ _ _ hblock, hlow, hhigh,
      AccessBits.encode, Access.invert]
  · simp only [if_neg hsame] at hlow hhigh
    simp [accessBits, setAccess, byte_setBits _ _ _ _ _ hblock, hlow, hhigh,
      hsame]

theorem data_setBits (b : Block β) {i j : Fin 16} (block : Nat)
    (low high : Bool) (h : j ≠ i) :
    (b.setBits i block low high).data j = b.data j := by
  simp [setBits, setByte, h]

theorem data_setAccess (b : Block β) (block : Nat) (bits : Access)
    {j : Fin 16} (h : j.val < 6 ∨ 8 < j.val) :
    (b.setAccess block bits).data j = b.data j := by
  have hne : j ≠ 6 ∧ j ≠ 7 ∧ j ≠ 8 := by
    refine ⟨?_, ?_, ?_⟩ <;> intro heq <;> subst heq <;> simp at h
  rcases hne with ⟨h6, h7, h8⟩
  rw [setAccess, data_setBits _ block _ _ h8, data_setBits _ block _ _ h7,
    data_setBits _ block _ _ h6]

end Block

inductive TrailerEdit where
  | keyA (key : Bytes UInt8 6)
  | keyB (key : Bytes UInt8 6)
  | permissions (block : Nat) (bits : Access)
  | permissionFlags (block : Nat) (flags : Flag)

namespace TrailerEdit

variable {β : Type} [Cell β]

def apply (e : TrailerEdit) (s : Sector β) : Sector β :=
  match e with
  | .keyA key => s.setKeyA key
  | .keyB key => s.setKeyB key
  | .permissions block bits => (s.setPermissions block bits).snd
  | .permissionFlags block flags => (s.setPermissionFlags block flags).snd

def Inside (size : Nat) (e : TrailerEdit) : Prop :=
  match e with
  | .permissions block _ => block < size
  | .permissionFlags block _ => block < size
  | _ => True

def newKeyA (e : TrailerEdit) : Option (Bytes β 6) :=
  match e with
  | .keyA key => some fun i => Cell.ofByte (key i)
  | _ => none

def newKeyB (e : TrailerEdit) : Option (Bytes β 6) :=
  match e with
  | .keyB key => some fun i => Cell.ofByte (key i)
  | _ => none

def newAccess (size : Nat) (e : TrailerEdit) : Option (Nat × Access) :=
  match e with
  | .permissions block bits => some (block, bits)
  | .permissionFlags block flags =>
      (soleAccess size block flags).map fun bits => (block, bits)
  | _ => none

def newGroupAccess (size group : Nat) (e : TrailerEdit) : Option Access :=
  match e.newAccess size with
  | some (block, bits) =>
      if accessGroup size block = group then some bits else none
  | none => none

def edited (size : Nat) (e : TrailerEdit) (b : Block β) : Block β :=
  match e with
  | .keyA key => { b with
      data := Bytes.copy b.data 0 fun i => Cell.ofByte (key i) }
  | .keyB key => { b with
      data := Bytes.copy b.data 10 fun i => Cell.ofByte (key i) }
  | e =>
      match e.newAccess size with
      | some (block, bits) => b.setAccess (accessGroup size block) bits
      | none => b

theorem keyA_edited (size : Nat) (e : TrailerEdit) (b : Block β) :
    (e.edited size b).keyA = e.newKeyA.getD b.keyA := by
  have haccess : forall block bits, (b.setAccess block bits).keyA = b.keyA := by
    intro block bits
    funext i
    exact b.data_setAccess block bits (Or.inl i.isLt)
  cases e with
  | keyA key =>
      funext i
      simp [edited, newKeyA, Block.keyA, Bytes.copy]
  | keyB key =>
      funext i
      have hout : ¬ 10 ≤ i.val := by omega
      simp [edited, newKeyA, Block.keyA, Bytes.copy, hout]
  | permissions block bits => exact haccess _ bits
  | permissionFlags block flags =>
      cases hsole : soleAccess size block flags with
      | none => simp [edited, newAccess, newKeyA, hsole]
      | some bits => simp [edited, newAccess, newKeyA, hsole, haccess]

theorem keyB_edited (size : Nat) (e : TrailerEdit) (b : Block β) :
    (e.edited size b).keyB = e.newKeyB.getD b.keyB := by
  have haccess : forall block bits, (b.setAccess block bits).keyB = b.keyB := by
    intro block bits
    funext i
    exact b.data_setAccess block bits (Or.inr (by simp))
  cases e with
  | keyA key =>
      funext i
      simp [edited, newKeyB, Block.keyB, Bytes.copy]
  | keyB key =>
      funext i
      simp [edited, newKeyB, Block.keyB, Bytes.copy]
  | permissions block bits => exact haccess _ bits
  | permissionFlags block flags =>
      cases hsole : soleAccess size block flags with
      | none => simp [edited, newAccess, newKeyB, hsole]
      | some bits => simp [edited, newAccess, newKeyB, hsole, haccess]

/-- The byte between the access bits and the second key has no setter. -/
theorem data_edited (size : Nat) (e : TrailerEdit) (b : Block β) :
    (e.edited size b).data 9 = b.data 9 := by
  have haccess : forall block bits,
      (b.setAccess block bits).data 9 = b.data 9 := by
    intro block bits
    exact b.data_setAccess block bits (Or.inr (by decide))
  cases e with
  | keyA key => simp [edited, Bytes.copy]
  | keyB key => simp [edited, Bytes.copy]
  | permissions block bits => exact haccess _ bits
  | permissionFlags block flags =>
      cases hsole : soleAccess size block flags with
      | none => simp [edited, newAccess, hsole]
      | some bits => simp [edited, newAccess, hsole, haccess]

theorem accessGroup_lt {size block : Nat} (hblock : block < size) :
    accessGroup size block < 4 := by
  unfold accessGroup
  split
  · split
    · omega
    · split
      · omega
      · split <;> omega
  · omega

theorem accessBits_edited {size group : Nat} (hgroup : group < 4)
    {e : TrailerEdit} (hin : e.Inside size)
    (b : Block β) :
    (e.edited size b).accessBits group =
      ((e.newGroupAccess size group).map AccessBits.encode).getD
        (b.accessBits group) := by
  have haccess : forall block bits, block < size ->
      (b.setAccess (accessGroup size block) bits).accessBits group =
        ((if accessGroup size block = group then some bits else none).map
          AccessBits.encode).getD (b.accessBits group) := by
    intro block bits hblock
    rw [b.accessBits_setAccess bits (accessGroup_lt hblock) hgroup]
    by_cases hsame : accessGroup size block = group
    · simp [hsame]
    · have hne : ¬ group = accessGroup size block := fun h => hsame h.symm
      simp [hsame, hne]
  cases e with
  | keyA key =>
      simp [edited, newGroupAccess, newAccess, Block.accessBits, Block.byte,
        Bytes.copy]
  | keyB key =>
      simp [edited, newGroupAccess, newAccess, Block.accessBits, Block.byte,
        Bytes.copy]
  | permissions block bits => exact haccess block bits hin
  | permissionFlags block flags =>
      cases hsole : soleAccess size block flags with
      | none => simp [edited, newGroupAccess, newAccess, hsole]
      | some bits =>
          simp only [edited, newGroupAccess, newAccess, hsole,
            Option.map_some]
          exact haccess block bits hin

/-- A call changes the trailer of its sector and nothing else. -/
structure Edits (e : TrailerEdit) (s t : Sector β) : Prop where
  size : t.size = s.size
  trailer : t.trailer = e.edited s.size s.trailer
  others : forall k, k ≠ s.size - 1 -> t.data.get k = s.data.get k

theorem edits_setBlock {e : TrailerEdit} {s : Sector β} {b : Block β}
    (hb : b = e.edited s.size s.trailer) :
    e.Edits s (s.setBlock (s.size - 1) b) where
  size := rfl
  trailer := by
    rw [← hb]
    exact Vec.set_get_self _ _ b
  others := fun _ hk => Vec.set_get_of_ne _ b hk

theorem Edits.withKey {e : TrailerEdit} {s t : Sector β} (h : e.Edits s t)
    (key : Bytes UInt8 6) : e.Edits s (t.setAuthentificationKey key) where
  size := h.size
  trailer := h.trailer
  others := h.others

theorem apply_edits {e : TrailerEdit} {s : Sector β}
    (hin : e.Inside s.size) : e.Edits s (e.apply s) := by
  cases e with
  | keyA key =>
      rw [apply, Sector.setKeyA]
      split
      · exact edits_setBlock rfl
      · exact (edits_setBlock rfl).withKey key
  | keyB key =>
      rw [apply, Sector.setKeyB]
      split
      · exact (edits_setBlock rfl).withKey key
      · exact edits_setBlock rfl
  | permissions block bits => exact edits_setBlock rfl
  | permissionFlags block flags =>
      rw [apply]
      cases hsole : soleAccess s.size block flags with
      | none =>
          rw [Sector.setPermissionFlags_of_none s hsole]
          refine ⟨rfl, ?_, fun _ _ => rfl⟩
          simp [edited, newAccess, hsole]
      | some bits =>
          rw [Sector.setPermissionFlags_of_some s hin hsole]
          apply edits_setBlock
          simp [edited, newAccess, hsole]

theorem applyAll_field {α : Type} (field : Sector β -> α)
    (value : TrailerEdit -> Option α) {edits : List TrailerEdit}
    {s : Sector β} (hin : forall e, e ∈ edits -> e.Inside s.size)
    (hfield : forall (e : TrailerEdit) (t u : Sector β), t.size = s.size ->
      e.Inside s.size -> e.Edits t u ->
      field u = (value e).getD (field t)) :
    field (applyAll apply edits s) =
      (edits.filterMap value).getLast?.getD (field s) := by
  have hedits : forall (e : TrailerEdit) (t : Sector β), t.size = s.size ->
      e.Inside s.size -> e.Edits t (e.apply t) := by
    intro e t ht he
    apply apply_edits
    rwa [ht]
  apply applyAll_last (fun t => t.size = s.size) field value ?_ ?_ rfl
    (permitted_of_forall hin s)
  · intro e t ht he
    exact (hedits e t ht he).size.trans ht
  · intro e t ht he
    exact hfield e t _ ht he (hedits e t ht he)

theorem applyAll_unchanged {α : Type} (field : Sector β -> α)
    {edits : List TrailerEdit} {s : Sector β}
    (hin : forall e, e ∈ edits -> e.Inside s.size)
    (hfield : forall (e : TrailerEdit) (t u : Sector β), t.size = s.size ->
      e.Edits t u -> field u = field t) :
    field (applyAll apply edits s) = field s := by
  have h := applyAll_field field (fun _ => none) hin
    (fun e t u ht _ hu => hfield e t u ht hu)
  rw [h, List.filterMap_none]
  rfl

theorem applyAll_accessBits {edits : List TrailerEdit} {s : Sector β}
    (hin : forall e, e ∈ edits -> e.Inside s.size) {group : Nat}
    (hgroup : group < 4) :
    (applyAll apply edits s).trailer.accessBits group =
      ((edits.filterMap (newGroupAccess s.size group)).getLast?.map
        AccessBits.encode).getD (s.trailer.accessBits group) := by
  rw [← List.getLast?_map, List.map_filterMap]
  apply applyAll_field (fun t => t.trailer.accessBits group) _ hin
  intro e t u ht he h
  rw [h.trailer, ht, accessBits_edited hgroup he]

/-- Whatever is called in which order, each field of the trailer holds the value
it was last given, and no other block changes. -/
theorem trailer_fields {edits : List TrailerEdit} {s : Sector β}
    (hin : forall e, e ∈ edits -> e.Inside s.size) :
    let after := applyAll apply edits s
    after.size = s.size ∧
      after.trailer.keyA =
        (edits.filterMap newKeyA).getLast?.getD s.trailer.keyA ∧
      after.trailer.keyB =
        (edits.filterMap newKeyB).getLast?.getD s.trailer.keyB ∧
      after.trailer.data 9 = s.trailer.data 9 ∧
      (forall group, group < 4 ->
        let given := edits.filterMap (newGroupAccess s.size group)
        (forall bits, given.getLast? = some bits ->
          (after.trailer.accessBits group).decode = some bits) ∧
        (given = [] ->
          after.trailer.accessBits group = s.trailer.accessBits group)) ∧
      (forall k, k ≠ s.size - 1 -> after.data.get k = s.data.get k) ∧
      ((forall group, group < 4 ->
          exists e, e ∈ edits ∧
            exists bits, e.newGroupAccess s.size group = some bits) ->
        after.trailer.AccessValid) := by
  intro after
  refine ⟨?_, ?_, ?_, ?_, ?_, ?_, ?_⟩
  · apply applyAll_unchanged Sector.size hin
    intro e t u _ h
    exact h.size
  · apply applyAll_field (fun t => t.trailer.keyA) _ hin
    intro e t u _ _ h
    rw [h.trailer, keyA_edited]
  · apply applyAll_field (fun t => t.trailer.keyB) _ hin
    intro e t u _ _ h
    rw [h.trailer, keyB_edited]
  · apply applyAll_unchanged (fun t => t.trailer.data 9) hin
    intro e t u _ h
    rw [h.trailer, data_edited]
  · intro group hgroup given
    have hbits := applyAll_accessBits hin hgroup
    constructor
    · intro bits hlast
      rw [hbits, hlast]
      exact AccessBits.decode_encode bits
    · intro hnone
      have hempty : edits.filterMap (newGroupAccess s.size group) = [] := hnone
      rw [hbits, hempty]
      rfl
  · intro k hk
    apply applyAll_unchanged (fun t => t.data.get k) hin
    intro e t u ht h
    exact h.others k (ht ▸ hk)
  · intro hall group hgroup
    rcases hall group hgroup with ⟨e, he, bits, hbits⟩
    have hgiven : bits ∈ edits.filterMap (newGroupAccess s.size group) :=
      List.mem_filterMap.mpr ⟨e, he, hbits⟩
    rw [applyAll_accessBits hin hgroup,
      List.getLast?_eq_some_getLast (List.ne_nil_of_mem hgiven),
      Option.map_some, Option.getD_some, AccessBits.decode_encode]
    rfl

/-- All four groups of a sector of four blocks are set, the last two through
their flags. -/
theorem trailer_fields_all_groups :
    let s : Sector UInt8 := Sector.new false 4 false
    let edits := [permissions 1 ⟨true, false, true⟩,
      keyA fun _ => 0xa5, permissions 0 ⟨false, true, true⟩,
      permissionFlags 2 Flag.B_R,
      permissionFlags 3 (Flag.A_R_C ||| Flag.A_R_B)]
    (applyAll apply edits s).trailer.AccessValid := by
  intro s edits
  have hin : forall e, e ∈ edits -> e.Inside s.size := by
    simp [edits, s, Inside]
  rcases trailer_fields hin with ⟨-, -, -, -, -, -, hvalid⟩
  apply hvalid
  intro group hgroup
  have hcases : group = 0 ∨ group = 1 ∨ group = 2 ∨ group = 3 := by omega
  rcases hcases with rfl | rfl | rfl | rfl
  · exact ⟨permissions 0 ⟨false, true, true⟩, by simp [edits], _, rfl⟩
  · exact ⟨permissions 1 ⟨true, false, true⟩, by simp [edits], _, rfl⟩
  · exact ⟨permissionFlags 2 Flag.B_R, by simp [edits],
      ⟨true, false, true⟩, by decide⟩
  · exact ⟨permissionFlags 3 (Flag.A_R_C ||| Flag.A_R_B), by simp [edits],
      ⟨false, true, false⟩, by decide⟩

end TrailerEdit

end BeeGadz
