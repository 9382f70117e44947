import BeeGadz.Card.Operation

/-!
# What a flush leaves out

`writeMifareClassic` looks at the states of the cached blocks only.  The setters
of the trailer do not mark it, and a block that was written stays marked.
-/

namespace BeeGadz

open Foundation

/-!
## The setters and the states
-/

theorem Sector.setTrailer_state {β : Type} (s : Sector β) {b : Block β}
    (h : b.state = s.trailer.state) (k : Nat) :
    ((s.setBlock (s.size - 1) b).data.get k).state =
      (s.data.get k).state := by
  rw [Sector.setBlock_data, Vec.set_get]
  split
  · rename_i hk
    rw [hk, h, Sector.trailer]
  · rfl

namespace TrailerEdit

variable {β : Type} [Cell β]

theorem apply_state (e : TrailerEdit) (s : Sector β) (k : Nat) :
    ((e.apply s).data.get k).state = (s.data.get k).state := by
  have haccess : forall block bits,
      ((s.setAccess block bits).data.get k).state = (s.data.get k).state :=
    fun block bits => s.setTrailer_state
      (b := s.trailer.setAccess (accessGroup s.size block) bits) rfl k
  cases e with
  | keyA key =>
      have hkey := s.setTrailer_state
        (b := { s.trailer with
          data := Bytes.copy s.trailer.data 0 fun i => Cell.ofByte (key i) })
        rfl k
      rw [apply, Sector.setKeyA]
      split <;> exact hkey
  | keyB key =>
      have hkey := s.setTrailer_state
        (b := { s.trailer with
          data := Bytes.copy s.trailer.data 10 fun i => Cell.ofByte (key i) })
        rfl k
      rw [apply, Sector.setKeyB]
      split <;> exact hkey
  | permissions block bits => exact haccess block bits
  | permissionFlags block flags =>
      rw [apply, Sector.setPermissionFlags]
      split
      · rfl
      · split
        · rfl
        · split
          · rfl
          · split
            · exact haccess block _
            · rfl

theorem applyAll_state (edits : List TrailerEdit) (s : Sector β) (k : Nat) :
    ((applyAll apply edits s).data.get k).state = (s.data.get k).state := by
  induction edits generalizing s with
  | nil => rfl
  | cons e edits ih => exact (ih (e.apply s)).trans (e.apply_state s k)

theorem applyAll_size (edits : List TrailerEdit) (s : Sector β) :
    (applyAll apply edits s).size = s.size := by
  induction edits generalizing s with
  | nil => rfl
  | cons e edits ih => exact (ih (e.apply s)).trans (e.apply_size s)

end TrailerEdit

namespace Card

variable {β : Type}

/-- All blocks of the sector have been read and are as they were read. -/
def CleanSector (c : Card β) (s : Nat) : Prop :=
  forall k, k < (c.data.get s).size -> (c.block s k).state = .clean

theorem onSector_get (c : Card β) (s : Nat) (f : Sector β -> Sector β) :
    (c.onSector s f).data.get s = f (c.data.get s) :=
  Vec.modify_get_self c.data s f

end Card

namespace Session

variable {β : Type} [Cell β]

/-- Blocks that are not modified are passed over, whatever the geometry. -/
theorem writeBlocks_idle (pass : Pass β) {s n k : Nat} (block : Nat)
    {c : Card β}
    (h : forall j, k ≤ j -> j < k + n -> (c.block s j).state ≠ .modified)
    (w : World β) :
    writeBlocks pass s n k block ⟨c, w⟩ = (.ok (), ⟨c, w⟩) := by
  induction n generalizing k block with
  | zero => rfl
  | succ n ih =>
      rw [writeBlocks_succ, if_neg (h k (Nat.le_refl k) (by omega))]
      apply ih
      intro j hj hlt
      exact h j (by omega) (by omega)

theorem writeSector_idle (pass : Pass β) {s : Nat} {c : Card β}
    (h : forall k, k < (c.data.get s).size ->
      (c.block s k).state ≠ .modified)
    (w : World β) : writeSector pass s ⟨c, w⟩ = (.ok true, ⟨c, w⟩) := by
  have hblocks := writeBlocks_idle pass (c.firstBlock s) (k := 0)
    (n := (c.data.get s).size) (fun j _ hlt => h j (by omega)) w
  rw [writeSector, writeMifareClassic,
    Prog.bind_of_ok _ (getCard_apply c w), Prog.bind_of_ok _ hblocks]
  rfl

/-!
## Edits of the trailer
-/

/-- The edits of a trailer reach the card: the trailer is marked, and the flush
from `before` to `after` sends its bytes and leaves them in the physical
block. -/
structure TrailerFlushed (s : Nat) (before after : Session β) : Prop where
  marked : (before.card.data.get s).trailer.state = .modified
  sent : .frame before.card.uid
    (Card.writeFrame (before.card.calculateBlock s)
      (before.card.data.get s).trailer.data) true ∈ before.since after
  stored : after.world.mem before.card.uid (before.card.calculateBlock s) =
    (before.card.data.get s).trailer.data

omit [Cell β] in
theorem since_self (s : Session β) : s.since s = [] :=
  List.drop_eq_nil_of_le (Nat.le_refl _)

theorem writeSector_trailer_edits {c : Card β} {s : Nat}
    (hclean : c.CleanSector s) (edits : List TrailerEdit) (pass : Pass β)
    (w : World β) :
    writeSector pass s
        ⟨c.onSector s (applyAll TrailerEdit.apply edits), w⟩ =
      (.ok true, ⟨c.onSector s (applyAll TrailerEdit.apply edits), w⟩) := by
  apply writeSector_idle
  intro k hk
  rw [Card.onSector_get, TrailerEdit.applyAll_size] at hk
  rw [Card.block, Card.onSector_get, TrailerEdit.applyAll_state]
  have hstate := hclean k hk
  rw [Card.block] at hstate
  rw [hstate]
  simp

theorem not_trailerFlushed {c : Card β} {s : Nat} (hclean : c.CleanSector s)
    (edits : List TrailerEdit) (pass : Pass β) (w : World β) :
    let edited : Session β :=
      ⟨c.onSector s (applyAll TrailerEdit.apply edits), w⟩
    ¬ TrailerFlushed s edited (writeSector pass s edited).2 := by
  intro edited hflushed
  have hsent := hflushed.sent
  rw [writeSector_trailer_edits hclean edits pass w, since_self] at hsent
  cases hsent

/-- Whatever is called on a clean sector, no block of it is marked: a flush by a
reader that accepts every command sends nothing, the trailer of the card stays
as it was, and the edits never reach it. -/
theorem trailer_edits_never_flushed {c : Card β} {s : Nat}
    (hclean : c.CleanSector s) (edits : List TrailerEdit) (w : World β) :
    let edited : Session β :=
      ⟨c.onSector s (applyAll TrailerEdit.apply edits), w⟩
    let after := (writeSector accepts s edited).2
    ¬ TrailerFlushed s edited after ∧
      (forall k, (edited.card.block s k).state = (c.block s k).state) ∧
      edited.since after = [] ∧ after.world.mem = w.mem := by
  intro edited after
  have hidle : after = edited := by
    show (writeSector accepts s edited).2 = edited
    rw [writeSector_trailer_edits hclean edits accepts w]
  refine ⟨not_trailerFlushed hclean edits accepts w, ?_, ?_, ?_⟩
  · intro k
    rw [Card.block, Card.onSector_get, TrailerEdit.applyAll_state]
    rfl
  · rw [hidle]
    exact since_self edited
  · rw [hidle]

theorem readSector_accepts {c : Card β} (hc : c.Classic) {s : Nat}
    (hs : s < 16) (w : World β) :
    (readSector accepts s ⟨c, w⟩).2.card.CleanSector s ∧
      (readSector accepts s ⟨c, w⟩).2.world.mem = w.mem := by
  rcases readSector_run accepts hs hc w with ⟨c', hframe, hrefreshed, hrun⟩
  rw [hrun]
  refine ⟨?_, rfl⟩
  intro k hk
  have hk4 : k < 4 := by
    rwa [(hc.of_sameFrame hframe).size s hs] at hk
  have hloaded := hrefreshed.loaded s k hk4
    ((c.loads_accepts _ _ _).mpr (by omega))
  dsimp only
  rw [hloaded]

/-- A new key A of a clean sector of an empty tag is in the cached trailer, but
nothing is sent and the tag still holds zeros. -/
theorem keyA_not_sent {read : Session UInt8}
    (hclean : read.card.CleanSector 1)
    (hmem : read.world.mem = fun _ _ _ => 0) :
    let edited : Session UInt8 :=
      ⟨read.card.onSector 1 fun sector => sector.setKeyA fun _ => 7,
        read.world⟩
    let after := (writeSector accepts 1 edited).2
    (edited.card.data.get 1).trailer.data 0 = 7 ∧
      edited.since after = [] ∧
      (forall a, after.world.mem edited.card.uid a 0 = 0) ∧
      ¬ TrailerFlushed 1 edited after := by
  intro edited after
  have hidle : writeSector accepts 1 edited = (.ok true, edited) :=
    writeSector_trailer_edits hclean [.keyA fun _ => 7] accepts read.world
  have hafter : after = edited := by
    show (writeSector accepts 1 edited).2 = edited
    rw [hidle]
  refine ⟨?_, ?_, ?_, ?_⟩
  · have hedits := (TrailerEdit.apply_edits (e := .keyA fun _ => 7)
      (s := read.card.data.get 1) trivial).trailer
    have hsector : edited.card.data.get 1 =
        TrailerEdit.apply (.keyA fun _ => 7) (read.card.data.get 1) :=
      Card.onSector_get ..
    rw [hsector, hedits]
    rfl
  · rw [hafter]
    exact since_self edited
  · intro a
    rw [hafter]
    show read.world.mem _ a 0 = 0
    rw [hmem]
  · exact not_trailerFlushed hclean [.keyA fun _ => 7] accepts read.world

def readOnce : Session UInt8 :=
  (readSector accepts 1
    ⟨Card.untouched 1, World.start (fun _ _ _ => 0) .bar⟩).2

theorem readOnce_clean :
    readOnce.card.CleanSector 1 ∧ readOnce.world.mem = fun _ _ _ => 0 := by
  have hread := readSector_accepts (Card.classic_untouched 1)
    (s := 1) (by decide) (World.start (fun _ _ _ => 0) .bar)
  rw [readOnce]
  exact ⟨hread.left, hread.right.trans rfl⟩

theorem trailer_edits_never_flushed_readOnce :
    ¬ TrailerFlushed 1
      ⟨readOnce.card.onSector 1
        (applyAll TrailerEdit.apply [.keyA fun _ => 7]), readOnce.world⟩
      (writeSector accepts 1
        ⟨readOnce.card.onSector 1
          (applyAll TrailerEdit.apply [.keyA fun _ => 7]),
          readOnce.world⟩).2 :=
  (trailer_edits_never_flushed readOnce_clean.left [.keyA fun _ => 7]
    readOnce.world).left

theorem keyA_lost :
    readOnce.card.CleanSector 1 ∧
      let edited : Session UInt8 :=
        ⟨readOnce.card.onSector 1 fun sector => sector.setKeyA fun _ => 7,
          readOnce.world⟩
      let after := (writeSector accepts 1 edited).2
      (edited.card.data.get 1).trailer.data 0 = 7 ∧
        edited.since after = [] ∧
        (forall a, after.world.mem edited.card.uid a 0 = 0) ∧
        ¬ TrailerFlushed 1 edited after :=
  ⟨readOnce_clean.left, keyA_not_sent readOnce_clean.left readOnce_clean.right⟩

end Session

end BeeGadz
