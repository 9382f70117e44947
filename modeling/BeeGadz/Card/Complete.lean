import BeeGadz.Card.Coherence

/-!
# What the results of a pass say

`readMifareClassic` and `writeMifareClassic` go on after a block that failed and
return true at their end.  So a true result means that the tag was not lost; that
every block was exchanged is a matter of the answers.
-/

namespace BeeGadz

open Foundation

namespace Card

variable {β : Type}

/-- Every block from address `start` to before `stop` is clean and holds bytes
that were received for it. -/
def ReadCompletely (c : Card β) (events : List (Event β))
    (start stop : Nat) : Prop :=
  forall a, start ≤ a -> a < stop ->
    exists data, .received c.uid a data ∈ events ∧
      c.blockAt a = { data := data, state := .clean }

/-- Every modified block from address `start` to before `stop` was accepted by
the reader with its bytes. -/
def WrittenCompletely (c : Card β) (events : List (Event β))
    (start stop : Nat) : Prop :=
  forall a, start ≤ a -> a < stop -> (c.blockAt a).state = .modified ->
    .frame c.uid (writeFrame a (c.blockAt a).data) true ∈ events

/-- The tag is lost in the pass, or each of its blocks is authenticated and
read. -/
def ReadAnswered (c : Card β) (pass : Pass β) (n start : Nat) : Prop :=
  c.readLost pass n start = true ∨
    forall a, start ≤ a -> a < start + n ->
      c.readResult (pass a) = .loaded

/-- The tag is lost in the pass, or each of its modified blocks is authenticated
and written. -/
def WriteAnswered (c : Card β) (pass : Pass β) (n start : Nat) : Prop :=
  c.writeLost pass n start = true ∨
    forall a, start ≤ a -> a < start + n ->
      (c.blockAt a).state = .modified -> c.Stores (pass a)

theorem readReaches_of_not_lost {c : Card β} {pass : Pass β}
    {n start a : Nat} (h : ¬ c.readLost pass n start = true)
    (ha : a < start + n) : c.ReadReaches pass start a := by
  intro b hb hba hlost
  exact h ((c.readLost_iff pass n start).mpr ⟨b, hb, by omega, hlost⟩)

variable [Cell β]

theorem readCompletely_iff {c c' : Card β} {pass : Pass β}
    {mem : Nat -> Bytes β 16} (n start : Nat) (hn : start + n ≤ 64)
    (huid : c'.uid = c.uid)
    (h : Refreshed c c' pass mem start (start + n))
    (hlost : ¬ c.readLost pass n start = true) :
    c'.ReadCompletely (c.readEvents pass mem n start) start (start + n) <->
      forall a, start ≤ a -> a < start + n ->
        c.readResult (pass a) = .loaded := by
  constructor
  · intro hcomplete a hle hlt
    rcases hcomplete a hle hlt with ⟨data, hreceived, _⟩
    rcases (received_mem_readEvents (by omega)).mp hreceived with
      ⟨_, _, hloads⟩
    exact hloads.right.right.right
  · intro hall a hle hlt
    have hloads : c.Loads pass start (start + n) a :=
      ⟨hle, hlt, readReaches_of_not_lost hlost hlt, hall a hle hlt⟩
    have haddress : 4 * (a / 4) + a % 4 = a := Nat.div_add_mod a 4
    have hloaded := h.loaded (a / 4) (a % 4) (by omega)
      (haddress.symm ▸ hloads)
    rw [haddress] at hloaded
    refine ⟨mem a, ?_, hloaded⟩
    rw [huid]
    exact (received_mem_readEvents (by omega)).mpr ⟨rfl, rfl, hloads⟩

theorem writtenCompletely_iff {c : Card β} {pass : Pass β} (n start : Nat)
    (hn : start + n ≤ 64) (hlost : ¬ c.writeLost pass n start = true) :
    c.WrittenCompletely (c.writeEvents pass n start) start (start + n) <->
      forall a, start ≤ a -> a < start + n ->
        (c.blockAt a).state = .modified -> c.Stores (pass a) := by
  have hkept : c.writeLost pass n start = false := by
    simpa using hlost
  constructor
  · intro hcomplete a hle hlt hstate
    have hmem := hcomplete a hle hlt hstate
    exact ((stored_mem_writeEvents (by omega) (by omega)).mp hmem).right
  · intro hall a hle hlt hstate
    refine (stored_mem_writeEvents (by omega) (by omega)).mpr
      ⟨⟨hle, hlt, hstate, ?_⟩, hall a hle hlt hstate⟩
    intro b hb hba
    exact writeReaches_of_not_lost hkept b hb (by omega)

end Card

namespace Session

variable {β : Type} [Cell β]

/-- If reading the sector returns true, the read is complete. -/
def ReadSectorComplete (pass : Pass β) (i : Nat) (s : Session β) : Prop :=
  forall s', readSector pass i s = (.ok true, s') ->
    s'.card.ReadCompletely (s.since s') (4 * i) (4 * i + 4)

/-- If reading the whole card returns true, the read is complete. -/
def ReadAllCardComplete (pass : Pass β) (s : Session β) : Prop :=
  forall s', readAllCard pass s = (.ok true, s') ->
    s'.card.ReadCompletely (s.since s') 0 64

/-- If writing the sector returns true, the write is complete. -/
def WriteSectorComplete (pass : Pass β) (i : Nat) (s : Session β) : Prop :=
  forall s', writeSector pass i s = (.ok true, s') ->
    s.card.WrittenCompletely (s.since s') (4 * i) (4 * i + 4)

/-- If writing the whole card returns true, the write is complete. -/
def WriteAllCardComplete (pass : Pass β) (s : Session β) : Prop :=
  forall s', writeAllCard pass s = (.ok true, s') ->
    s.card.WrittenCompletely (s.since s') 0 64

theorem readSectorComplete_iff (pass : Pass β) {i : Nat} (hi : i < 16)
    {c : Card β} (hc : c.Classic) (w : World β) :
    ReadSectorComplete pass i ⟨c, w⟩ <-> c.ReadAnswered pass 4 (4 * i) := by
  rcases readSector_run pass hi hc w with ⟨c', hframe, hrefreshed, hrun⟩
  rw [ReadSectorComplete, hrun, Card.ReadAnswered]
  by_cases hlost : c.readLost pass 4 (4 * i) = true
  · simp [hlost]
  · have hiff := Card.readCompletely_iff 4 (4 * i) (by omega) hframe.uid
      hrefreshed hlost
    simp only [hlost, if_false, false_or, Prod.mk.injEq, true_and, forall_eq',
      Bool.false_eq_true]
    rw [← hiff, since, World.since_addLog w w _ rfl]

theorem readAllCardComplete_iff (pass : Pass β) {c : Card β}
    (hc : c.Classic) (w : World β) :
    ReadAllCardComplete pass ⟨c, w⟩ <-> c.ReadAnswered pass 64 0 := by
  rcases readAllCard_run pass hc w with ⟨c', hframe, hrefreshed, hrun⟩
  rw [ReadAllCardComplete, hrun, Card.ReadAnswered]
  by_cases hlost : c.readLost pass 64 0 = true
  · simp [hlost]
  · have hiff := Card.readCompletely_iff 64 0 (by omega) hframe.uid hrefreshed
      hlost
    simp only [hlost, if_false, false_or, Prod.mk.injEq, true_and, forall_eq',
      Bool.false_eq_true]
    rw [← hiff, since, World.since_addLog w w _ rfl]

/-- The result of reading a sector or the whole card can be trusted exactly when
the answers say so: the tag was lost, which throws, or no block failed. -/
theorem read_complete_iff_answered (pass : Pass β) {c : Card β}
    (hc : c.Classic) (w : World β) :
    (forall i, i < 16 ->
      (ReadSectorComplete pass i ⟨c, w⟩ <->
        c.ReadAnswered pass 4 (4 * i))) ∧
      (ReadAllCardComplete pass ⟨c, w⟩ <-> c.ReadAnswered pass 64 0) :=
  ⟨fun _ hi => readSectorComplete_iff pass hi hc w,
    readAllCardComplete_iff pass hc w⟩

theorem read_complete_of_accepts :
    ReadSectorComplete accepts 1
        ⟨(Card.fresh ⟨fun _ => 1, 0x4⟩ (Vec.replicate 6 0xff) : Card UInt8),
          World.start (fun _ _ _ => 0) .bar⟩ ∧
      ReadAllCardComplete accepts
        ⟨(Card.fresh ⟨fun _ => 1, 0x4⟩ (Vec.replicate 6 0xff) : Card UInt8),
          World.start (fun _ _ _ => 0) .bar⟩ := by
  have hiff := read_complete_iff_answered (accepts : Pass UInt8)
    (Card.classic_fresh ⟨fun _ => 1, 0x4⟩ (Vec.replicate 6 0xff))
    (World.start (fun _ _ _ => 0) .bar)
  constructor
  · apply (hiff.left 1 (by decide)).mpr
    exact Or.inr fun a _ _ => Card.readResult_accepting _
  · apply hiff.right.mpr
    exact Or.inr fun a _ _ => Card.readResult_accepting _

/-- A reader that rejects every command makes `readSector` and `readAllCard`
return true with nothing read. -/
theorem read_true_incomplete :
    ¬ ReadSectorComplete (fun _ => Answers.rejecting) 1
        ⟨(Card.fresh ⟨fun _ => 1, 0x4⟩ (Vec.replicate 6 0xff) : Card UInt8),
          World.start (fun _ _ _ => 0) .bar⟩ ∧
      ¬ ReadAllCardComplete (fun _ => Answers.rejecting)
        ⟨(Card.fresh ⟨fun _ => 1, 0x4⟩ (Vec.replicate 6 0xff) : Card UInt8),
          World.start (fun _ _ _ => 0) .bar⟩ := by
  have hc := Card.classic_fresh (β := UInt8) ⟨fun _ => 1, 0x4⟩
    (Vec.replicate 6 0xff)
  rw [readSectorComplete_iff _ (by decide) hc, readAllCardComplete_iff _ hc]
  constructor
  · intro hcase
    rcases hcase with hlost | hall
    · exact absurd hlost (by decide)
    · exact absurd (hall 4 (by decide) (by decide)) (by decide)
  · intro hcase
    rcases hcase with hlost | hall
    · exact absurd hlost (by decide)
    · exact absurd (hall 4 (by decide) (by decide)) (by decide)

theorem writeSectorComplete_iff (pass : Pass β) {i : Nat} (hi : i < 16)
    {c : Card β} (hc : c.Classic) (w : World β) :
    WriteSectorComplete pass i ⟨c, w⟩ <->
      c.WriteAnswered pass 4 (4 * i) := by
  rcases writeSector_run pass hi hc w with ⟨c', mem', _, _, _, hrun⟩
  rw [WriteSectorComplete, hrun, Card.WriteAnswered]
  by_cases hlost : c.writeLost pass 4 (4 * i) = true
  · simp [hlost]
  · have hiff := Card.writtenCompletely_iff 4 (4 * i) (by omega) hlost
    simp only [hlost, if_false, false_or, Prod.mk.injEq, true_and, forall_eq',
      Bool.false_eq_true]
    rw [← hiff, since, World.since_addLog w (w.withMem mem') _ rfl]

theorem writeAllCardComplete_iff (pass : Pass β) {c : Card β}
    (hc : c.Classic) (w : World β) :
    WriteAllCardComplete pass ⟨c, w⟩ <-> c.WriteAnswered pass 64 0 := by
  rcases writeAllCard_run pass hc w with ⟨c', mem', _, _, _, hrun⟩
  rw [WriteAllCardComplete, hrun, Card.WriteAnswered]
  by_cases hlost : c.writeLost pass 64 0 = true
  · simp [hlost]
  · have hiff := Card.writtenCompletely_iff 64 0 (by omega) hlost
    simp only [hlost, if_false, false_or, Prod.mk.injEq, true_and, forall_eq',
      Bool.false_eq_true]
    rw [← hiff, since, World.since_addLog w (w.withMem mem') _ rfl]

/-- The same for writing: a true result says that every modified block was
accepted exactly when the answers do. -/
theorem write_complete_iff_answered (pass : Pass β) {c : Card β}
    (hc : c.Classic) (w : World β) :
    (forall i, i < 16 ->
      (WriteSectorComplete pass i ⟨c, w⟩ <->
        c.WriteAnswered pass 4 (4 * i))) ∧
      (WriteAllCardComplete pass ⟨c, w⟩ <-> c.WriteAnswered pass 64 0) :=
  ⟨fun _ hi => writeSectorComplete_iff pass hi hc w,
    writeAllCardComplete_iff pass hc w⟩

theorem write_complete_of_accepts :
    let c : Card UInt8 :=
      (Card.fresh ⟨fun _ => 1, 0x4⟩ (Vec.replicate 6 0xff)).setBlock 1 1
        ⟨fun _ => 7, .modified⟩
    WriteSectorComplete accepts 1
        ⟨c, World.start (fun _ _ _ => 0) .bar⟩ ∧
      WriteAllCardComplete accepts
        ⟨c, World.start (fun _ _ _ => 0) .bar⟩ := by
  intro c
  have hc : c.Classic :=
    (Card.classic_fresh _ _).of_sameFrame (Card.sameFrame_setBlock _ _ _ _)
  have hiff := write_complete_iff_answered accepts hc
    (World.start (fun _ _ _ => 0) .bar)
  constructor
  · apply (hiff.left 1 (by decide)).mpr
    exact Or.inr fun a _ _ _ => Card.stores_accepting _
  · apply hiff.right.mpr
    exact Or.inr fun a _ _ _ => Card.stores_accepting _

/-- A reader that rejects every command makes `writeSector` and `writeAllCard`
return true with a modified block that never reached the card. -/
theorem write_true_incomplete :
    let c : Card UInt8 :=
      (Card.fresh ⟨fun _ => 1, 0x4⟩ (Vec.replicate 6 0xff)).setBlock 1 1
        ⟨fun _ => 7, .modified⟩
    ¬ WriteSectorComplete (fun _ => Answers.rejecting) 1
        ⟨c, World.start (fun _ _ _ => 0) .bar⟩ ∧
      ¬ WriteAllCardComplete (fun _ => Answers.rejecting)
        ⟨c, World.start (fun _ _ _ => 0) .bar⟩ := by
  intro c
  have hc : c.Classic :=
    (Card.classic_fresh _ _).of_sameFrame (Card.sameFrame_setBlock _ _ _ _)
  have hauth : c.authResult Answers.rejecting = .refused := rfl
  have hstate : (c.blockAt 5).state = .modified := by
    simp [c, Card.blockAt, Card.setBlock_block]
  have hstores : ¬ c.Stores Answers.rejecting := by
    simp [Card.Stores, hauth]
  have hkept : forall n start,
      c.writeLost (fun _ => Answers.rejecting) n start ≠ true := by
    intro n start hlost
    rcases (c.writeLost_iff _ _ _).mp hlost with ⟨b, _, _, _, hb⟩
    simp [Card.storeLost, hauth] at hb
  rw [writeSectorComplete_iff _ (by decide) hc, writeAllCardComplete_iff _ hc]
  constructor
  · intro hcase
    rcases hcase with hlost | hall
    · exact hkept _ _ hlost
    · exact hstores (hall 5 (by decide) (by decide) hstate)
  · intro hcase
    rcases hcase with hlost | hall
    · exact hkept _ _ hlost
    · exact hstores (hall 5 (by decide) (by decide) hstate)

end Session

end BeeGadz
