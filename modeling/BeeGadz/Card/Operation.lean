import BeeGadz.Card.Coherence
import BeeGadz.Card.Permissions

/-!
# Operations of a card

All that can be done with a card object: its calls, the private operations on
single blocks, and the setters of its sectors.  None of them changes its
identity, its keys or its geometry.
-/

namespace BeeGadz

open Foundation

namespace Card

variable {β : Type}

/-- The identity, keys and geometry of two cards are the same. -/
structure SameShape (c c' : Card β) : Prop where
  keys : c'.keys = c.keys
  target : c'.target = c.target
  count : c'.data.size = c.data.size
  size : forall s, (c'.data.get s).size = (c.data.get s).size

theorem SameShape.refl (c : Card β) : SameShape c c where
  keys := rfl
  target := rfl
  count := rfl
  size := fun _ => rfl

theorem SameShape.trans {a b c : Card β} (hab : SameShape a b)
    (hbc : SameShape b c) : SameShape a c where
  keys := hbc.keys.trans hab.keys
  target := hbc.target.trans hab.target
  count := hbc.count.trans hab.count
  size := fun s => (hbc.size s).trans (hab.size s)

theorem SameFrame.shape {c c' : Card β} (h : SameFrame c c') :
    SameShape c c' where
  keys := h.keys
  target := h.target
  count := h.count
  size := h.size

theorem Classic.of_sameShape {c c' : Card β} (hc : Classic c)
    (h : SameShape c c') : Classic c' where
  count := h.count.trans hc.count
  size := fun s hs => (h.size s).trans (hc.size s hs)

/-- A card that was just built, with the UID `u u u u`. -/
def untouched (u : UInt8) : Card UInt8 :=
  fresh ⟨fun _ => u, 0x4⟩ (Vec.replicate 6 0xff)

theorem classic_untouched (u : UInt8) : Classic (untouched u) :=
  classic_fresh _ _

/-- A call on `card[s]`. -/
def onSector (c : Card β) (s : Nat) (f : Sector β -> Sector β) : Card β :=
  { c with data := c.data.modify s f }

theorem sameShape_onSector (c : Card β) (s : Nat)
    {f : Sector β -> Sector β}
    (hf : forall sector, (f sector).size = sector.size) :
    SameShape c (c.onSector s f) where
  keys := rfl
  target := rfl
  count := rfl
  size := by
    intro i
    rw [onSector, Vec.modify_get]
    split
    · rename_i h
      rw [h, hf]
    · rfl

end Card

theorem TrailerEdit.apply_size {β : Type} [Cell β] (e : TrailerEdit)
    (s : Sector β) : (e.apply s).size = s.size := by
  cases e with
  | keyA key =>
      rw [apply, Sector.setKeyA]
      split <;> rfl
  | keyB key =>
      rw [apply, Sector.setKeyB]
      split <;> rfl
  | permissions block bits => rfl
  | permissionFlags block flags =>
      rw [apply, Sector.setPermissionFlags]
      split
      · rfl
      · split
        · rfl
        · split
          · rfl
          · split <;> rfl

theorem Session.writeData_idle {β : Type} (ans : Answers β) {block : Nat}
    {c : Card β} {i k : Nat} (hsector : c.calculateSector block = (i, k))
    (h : (c.block i k).state ≠ .modified) (w : World β) :
    Session.writeData ans block ⟨c, w⟩ = (.ok true, ⟨c, w⟩) := by
  rw [Session.writeData, Prog.bind_of_ok _ (Session.getCard_apply c w),
    hsector]
  dsimp only
  rw [if_pos (BlockState.unmodified_iff.mpr h)]
  rfl

inductive Operation (β : Type) where
  | call (whole : Call β)
  | authenticate (ans : Answers β) (block : Fin 64)
  | readData (ans : Answers β) (block : Fin 64)
  | writeData (ans : Answers β) (block : Fin 64)
  | useKeyB (s : Fin 16) (keyB : Bool)
  | setTrailer (s : Fin 16) (isTrailer : Bool)
  | setKey (s : Fin 16) (key : Bytes UInt8 6)
  | trailer (s : Fin 16) (e : TrailerEdit)

namespace Operation

variable {β : Type} [Cell β]

def run : Operation β -> SessionM β Bool
  | .call whole => whole.run
  | .authenticate ans block => Session.authenticate ans block
  | .readData ans block => Session.readData ans block
  | .writeData ans block => Session.writeData ans block
  | .useKeyB s keyB => do
      Session.modifyCard fun c => c.onSector s fun sector =>
        sector.useKeyB keyB
      pure true
  | .setTrailer s isTrailer => do
      Session.modifyCard fun c => c.onSector s fun sector =>
        sector.setTrailer isTrailer
      pure true
  | .setKey s key => do
      Session.modifyCard fun c => c.onSector s fun sector =>
        sector.setAuthentificationKey key
      pure true
  | .trailer s e => do
      Session.modifyCard fun c => c.onSector s e.apply
      pure true

def after (op : Operation β) (s : Session β) : Session β :=
  (op.run s).2

def afterAll (ops : List (Operation β)) (s : Session β) : Session β :=
  applyAll after ops s

theorem sameShape_after (op : Operation β) {c : Card β} (hc : c.Classic)
    (w : World β) : Card.SameShape c (op.after ⟨c, w⟩).card := by
  cases op with
  | call whole => exact (Session.sameFrame_after whole hc w).shape
  | authenticate ans block =>
      rcases Session.authenticate_run ans block c w with ⟨c', hframe, _, hrun⟩
      simp only [after, run, hrun]
      exact hframe.shape
  | readData ans block =>
      rcases Session.readData_run ans block
          (hc.calculateSector block.isLt) w with
        ⟨c', hframe, _, hrun⟩
      simp only [after, run, hrun]
      split
      · exact hframe.shape
      · split <;> exact hframe.shape
  | writeData ans block =>
      by_cases hmodified :
          (c.block (block / 4) (block % 4)).state = .modified
      · rcases Session.writeData_run ans block
            (hc.calculateSector block.isLt) hmodified w with
          ⟨c', hframe, _, hrun⟩
        simp only [after, run, hrun]
        split
        · exact hframe.shape
        · split <;> exact hframe.shape
      · have hskip := Session.writeData_idle ans
          (hc.calculateSector block.isLt) hmodified w
        simp only [after, run, hskip]
        exact Card.SameShape.refl c
  | useKeyB s keyB =>
      exact c.sameShape_onSector s fun sector =>
        sector.useKeyB_size keyB
  | setTrailer s isTrailer =>
      exact c.sameShape_onSector s fun sector =>
        sector.setTrailer_size isTrailer
  | setKey s key =>
      exact c.sameShape_onSector s fun sector =>
        sector.setAuthentificationKey_size key
  | trailer s e =>
      exact c.sameShape_onSector s e.apply_size

theorem sameShape_afterAll (ops : List (Operation β)) {s : Session β}
    (hc : s.card.Classic) : Card.SameShape s.card (afterAll ops s).card := by
  induction ops generalizing s with
  | nil => exact Card.SameShape.refl s.card
  | cons op ops ih =>
      have hstep := op.sameShape_after hc s.world
      exact hstep.trans (ih (hc.of_sameShape hstep))

end Operation

end BeeGadz
