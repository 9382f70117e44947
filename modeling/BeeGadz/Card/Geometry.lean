import BeeGadz.Card.Card
import BeeGadz.Foundation.Segments

/-!
# Block addresses

The addresses of a card of any geometry.  `calculateSector` finds the sector
that a block address lies in when the sectors are laid out one after the other.
`calculateBlock` adds up the sizes of the sectors after the first one, which
gives the end of a sector only when it is as large as the first.
-/

namespace BeeGadz

open Foundation

namespace Card

variable {β : Type}

def sectorSize (c : Card β) (s : Nat) : Nat :=
  (c.data.get s).size

def start (c : Card β) (s : Nat) : Nat :=
  segmentStart c.sectorSize s

def blocks (c : Card β) : Nat :=
  c.start c.data.size

theorem sectorLoop_at {c : Card β} {s k i b fuel : Nat} (hi : i ≤ s)
    (hpos : forall j, j < s -> 0 < c.sectorSize j)
    (hk : k < c.sectorSize s) (hsize : c.sectorSize s < intLimit)
    (hsmall : c.start s + k < intLimit) (hb : c.start i + b = c.start s + k)
    (hfuel : b < fuel) :
    sectorLoop c.data fuel i (b : Int) = (s, (k : Int)) := by
  induction fuel generalizing i b with
  | zero => exact absurd hfuel (Nat.not_lt_zero b)
  | succ fuel ih =>
      change (if 0 ≤ (b : Int) - toInt (c.sectorSize i) then
          sectorLoop c.data fuel (i + 1) (toInt ((b : Int) - c.sectorSize i))
        else (i, (b : Int))) = _
      by_cases his : i = s
      · subst his
        have hbk : b = k := by omega
        have hstop : ¬ (0 : Int) ≤ (b : Int) - c.sectorSize i := by omega
        rw [toInt_of_small hsize, if_neg hstop, hbk]
      · have hnext : c.start (i + 1) = c.start i + c.sectorSize i :=
          segmentStart_succ i
        have hle : c.start (i + 1) ≤ c.start s :=
          segmentStart_mono (by omega)
        have hposi : 0 < c.sectorSize i := hpos i (by omega)
        have hb' : c.sectorSize i ≤ b := by omega
        have hsizei : c.sectorSize i < intLimit := by omega
        have hgo : (0 : Int) ≤ (b : Int) - c.sectorSize i := by omega
        have hrest : b - c.sectorSize i < intLimit := by omega
        rw [toInt_of_small hsizei, if_pos hgo, ← Int.ofNat_sub hb',
          toInt_of_small hrest]
        exact ih (by omega) (by omega) (by omega)

theorem calculateSector_at {c : Card β} {s k : Nat}
    (hpos : forall j, j < s -> 0 < c.sectorSize j)
    (hk : k < c.sectorSize s) (hsize : c.sectorSize s < intLimit)
    (hsmall : c.start s + k < intLimit) :
    c.calculateSector (c.start s + k) = (s, k) := by
  have hloop : sectorLoop c.data (c.start s + k + 1) 0
      ((c.start s + k : Nat) : Int) = (s, (k : Int)) :=
    sectorLoop_at (Nat.zero_le s) hpos hk hsize hsmall
      (by simp [start]) (Nat.lt_succ_self _)
  have hsizes : k < sizeValues := by
    have := intLimit_lt_sizeValues
    omega
  rw [calculateSector, toInt_of_small hsmall, hloop, toSize_of_small hsizes]

theorem blockLoop_eq (c : Card β) (s : Nat) :
    blockLoop c.data s = segmentStart (fun i => c.sectorSize (i + 1)) s := by
  induction s with
  | zero => rfl
  | succ s ih => rw [blockLoop, segmentStart_succ, ih]; rfl

theorem blockLoop_add (c : Card β) (s : Nat) :
    blockLoop c.data s + c.sectorSize 0 = c.start s + c.sectorSize s := by
  rw [blockLoop_eq]
  exact segmentStart_tail s

theorem firstBlock_eq {c : Card β} {s : Nat} (hpos : 0 < c.sectorSize s) :
    c.firstBlock s = blockLoop c.data s % sizeValues := by
  have hsum : blockLoop c.data s + c.sectorSize s - 1 + sizeValues -
      c.sectorSize s + 1 = blockLoop c.data s + sizeValues := by
    rw [sizeValues]
    omega
  change (blockLoop c.data s + c.sectorSize s - 1 + sizeValues -
    c.sectorSize s + 1) % sizeValues = _
  rw [hsum, Nat.add_mod_right]

end Card

end BeeGadz
