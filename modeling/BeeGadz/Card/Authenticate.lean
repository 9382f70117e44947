import BeeGadz.Card.Card

/-!
# Authentication

What one call of `authenticate` does: which key is the last one tried depends on
the answers alone, the cached blocks stay as they are, and the log grows by one
authentication frame a round.
-/

namespace BeeGadz

open Foundation

/-!
## Cards that differ only in their blocks
-/

namespace Card

variable {β : Type}

/-- The identity, keys, geometry and key choice of two cards are the same. -/
structure SameFrame (c c' : Card β) : Prop where
  keys : c'.keys = c.keys
  target : c'.target = c.target
  count : c'.data.size = c.data.size
  size : forall s, (c'.data.get s).size = (c.data.get s).size
  keyB : forall s, (c'.data.get s).keyB = (c.data.get s).keyB

theorem SameFrame.refl (c : Card β) : SameFrame c c where
  keys := rfl
  target := rfl
  count := rfl
  size := fun _ => rfl
  keyB := fun _ => rfl

theorem SameFrame.trans {a b c : Card β} (hab : SameFrame a b)
    (hbc : SameFrame b c) : SameFrame a c where
  keys := hbc.keys.trans hab.keys
  target := hbc.target.trans hab.target
  count := hbc.count.trans hab.count
  size := fun s => (hbc.size s).trans (hab.size s)
  keyB := fun s => (hbc.keyB s).trans (hab.keyB s)

theorem SameFrame.symm {a b : Card β} (h : SameFrame a b) :
    SameFrame b a where
  keys := h.keys.symm
  target := h.target.symm
  count := h.count.symm
  size := fun s => (h.size s).symm
  keyB := fun s => (h.keyB s).symm

theorem SameFrame.uid {c c' : Card β} (h : SameFrame c c') :
    c'.uid = c.uid := by
  simp [Card.uid, h.target]

theorem SameFrame.keyAt {c c' : Card β} (h : SameFrame c c') (i : Nat) :
    c'.keyAt i = c.keyAt i := by
  funext k
  simp [Card.keyAt, h.keys]

theorem sectorLoop_congr {data data' : Vec (Sector β)}
    (h : forall s, (data'.get s).size = (data.get s).size)
    (fuel sector : Nat) (b : Int) :
    sectorLoop data' fuel sector b = sectorLoop data fuel sector b := by
  induction fuel generalizing sector b with
  | zero => rfl
  | succ fuel ih =>
      simp only [sectorLoop, h, ih]

theorem SameFrame.calculateSector {c c' : Card β} (h : SameFrame c c')
    (block : Nat) : c'.calculateSector block = c.calculateSector block := by
  simp only [Card.calculateSector, sectorLoop_congr h.size]

def SameBlocks (c c' : Card β) : Prop :=
  forall s k, c'.block s k = c.block s k

theorem SameBlocks.trans {a b c : Card β} (hab : SameBlocks a b)
    (hbc : SameBlocks b c) : SameBlocks a c :=
  fun s k => (hbc s k).trans (hab s k)

theorem sameFrame_setBlock (c : Card β) (s k : Nat) (b : Block β) :
    SameFrame c (c.setBlock s k b) where
  keys := rfl
  target := rfl
  count := rfl
  size := by
    intro i
    simp only [setBlock, Vec.modify_get]
    split
    · rename_i h
      rw [h, Sector.setBlock_size]
    · rfl
  keyB := by
    intro i
    simp only [setBlock, Vec.modify_get]
    split
    · rename_i h
      rw [h, Sector.setBlock_keyB]
    · rfl

theorem setBlock_block (c : Card β) (s k i j : Nat) (b : Block β) :
    (c.setBlock s k b).block i j =
      if i = s ∧ j = k then b else c.block i j := by
  by_cases hi : i = s
  · subst hi
    simp [setBlock, block, Vec.set_get]
  · simp [setBlock, block, Vec.modify_get_of_ne, hi]

theorem sameFrame_loadData (c : Card β) (data : Bytes β 16) :
    SameFrame c (c.loadData data) where
  keys := rfl
  target := rfl
  count := rfl
  size := fun _ => rfl
  keyB := fun _ => rfl

theorem sameBlocks_loadData (c : Card β) (data : Bytes β 16) :
    SameBlocks c (c.loadData data) :=
  fun _ _ => rfl

variable [Cell β]

theorem sameFrame_loadUid (c : Card β) : SameFrame c c.loadUid where
  keys := rfl
  target := rfl
  count := rfl
  size := fun _ => rfl
  keyB := fun _ => rfl

theorem sameBlocks_loadUid (c : Card β) : SameBlocks c c.loadUid :=
  fun _ _ => rfl

theorem sameFrame_loadKey (c : Card β) (sector i : Nat) :
    SameFrame c (c.loadKey sector i) where
  keys := rfl
  target := rfl
  count := rfl
  size := by
    intro s
    simp only [loadKey, Vec.modify_get]
    split
    · rename_i h
      rw [h, Sector.setAuthentificationKey_size]
    · rfl
  keyB := by
    intro s
    simp only [loadKey, Vec.modify_get]
    split
    · rename_i h
      rw [h, Sector.setAuthentificationKey_keyB]
    · rfl

theorem sameBlocks_loadKey (c : Card β) (sector i : Nat) :
    SameBlocks c (c.loadKey sector i) := by
  intro s k
  by_cases hs : s = sector
  · subst hs
    simp [block, loadKey]
  · simp [block, loadKey, Vec.modify_get_of_ne, hs]

/-!
## Authentication frames
-/

def UidLoaded (c : Card β) : Prop :=
  forall i : Fin 4, c.param ⟨i.val + 6, by omega⟩ = Cell.ofByte (c.uid i)

theorem uidLoaded_loadUid (c : Card β) : UidLoaded c.loadUid := by
  intro i
  simp [loadUid, Bytes.copy, Card.uid]

theorem UidLoaded.loadKey {c : Card β} (h : UidLoaded c) (sector i : Nat) :
    UidLoaded (c.loadKey sector i) := by
  intro k
  have hk : ¬ k.val + 6 < 6 := by omega
  simpa [Card.loadKey, Bytes.copy, Card.uid, hk] using h k

/-- The twelve bytes sent to authenticate a block with the `j`-th key. -/
def authFrame (c : Card β) (block j : Nat) : Frame β where
  cmd :=
    if (c.data.get (c.calculateSector block).1).keyB then .authB else .authA
  block := block % 256
  param :=
    (List.ofFn (c.keyAt (6 * j)) ++ List.ofFn c.uid).map Cell.ofByte

theorem authFrame_eq {c : Card β} (h : UidLoaded c) (block j : Nat) :
    (c.loadKey (c.calculateSector block).1 (6 * j)).frame
        (if (c.data.get (c.calculateSector block).1).keyB then .authB
          else .authA) block =
      c.authFrame block j := by
  have hparam :
      (List.ofFn (c.loadKey (c.calculateSector block).1 (6 * j)).param).take
          10 =
        (List.ofFn (c.keyAt (6 * j)) ++ List.ofFn c.uid).map Cell.ofByte := by
    have h6 : c.param 6 = Cell.ofByte (c.uid 0) := h 0
    have h7 : c.param 7 = Cell.ofByte (c.uid 1) := h 1
    have h8 : c.param 8 = Cell.ofByte (c.uid 2) := h 2
    have h9 : c.param 9 = Cell.ofByte (c.uid 3) := h 3
    simp [loadKey, Bytes.copy, h6, h7, h8, h9]
  unfold frame authFrame
  by_cases hkeyB : (c.data.get (c.calculateSector block).1).keyB
  · simp only [hkeyB, if_true, hparam]
  · simp only [hkeyB, if_false, hparam, Bool.false_eq_true]

end Card

/-!
## The outcome as a function of the answers
-/

inductive AuthResult where
  | accepted
  | refused
  | gone
deriving DecidableEq

def AuthResult.outcome : AuthResult -> Except Exn Bool
  | .accepted => .ok true
  | .refused => .ok false
  | .gone => .error .exception

namespace Answers

variable {β : Type}

/-- The result of trying keys from the `j`-th on, with `more` rounds after
it. -/
def authFrom (a : Answers β) : Nat -> Nat -> AuthResult
  | 0, j =>
      if (a.auth j).ok then .accepted
      else if a.selected j then .refused
      else .gone
  | more + 1, j =>
      if (a.auth j).ok then .accepted
      else if a.selected j then a.authFrom more (j + 1)
      else .gone

end Answers

namespace Card

variable {β : Type}

/-- The rounds of `authenticate` after the first one. -/
def rounds (c : Card β) : Nat :=
  c.keys.size - 1

theorem SameFrame.rounds {c c' : Card β} (h : SameFrame c c') :
    c'.rounds = c.rounds := by
  simp [Card.rounds, h.keys]

def authResult (c : Card β) (a : Answers β) : AuthResult :=
  a.authFrom c.rounds 0

theorem SameFrame.authResult {c c' : Card β} (h : SameFrame c c')
    (a : Answers β) : c'.authResult a = c.authResult a := by
  simp [Card.authResult, h.rounds]

variable [Cell β]

/-- The events of one round, followed by `rest` when the key was rejected. -/
def authRound (c : Card β) (a : Answers β) (block j : Nat)
    (rest : List (Event β)) : List (Event β) :=
  .key (6 * j) :: .frame c.uid (c.authFrame block j) (a.auth j).ok ::
    if (a.auth j).ok then []
    else if a.selected j then .select c.uid true :: rest
    else [.select c.uid false, .error "The tag was removed !"]

/-- The events of the rounds from the `j`-th on. -/
def authRounds (c : Card β) (a : Answers β) (block : Nat) :
    Nat -> Nat -> List (Event β)
  | 0, j =>
      c.authRound a block j
        [.error
          ("Error while trying to authenticate block " ++ Session.hex block)]
  | more + 1, j =>
      c.authRound a block j (c.authRounds a block more (j + 1))

/-- The events of one call of `authenticate`. -/
def authEvents (c : Card β) (a : Answers β) (block : Nat) :
    List (Event β) :=
  c.authRounds a block c.rounds 0

theorem SameFrame.authFrame {c c' : Card β} (h : SameFrame c c')
    (block j : Nat) : c'.authFrame block j = c.authFrame block j := by
  simp only [Card.authFrame, h.calculateSector, h.keyB, h.keyAt, h.uid]

theorem SameFrame.authRounds {c c' : Card β} (h : SameFrame c c')
    (a : Answers β) (block more j : Nat) :
    c'.authRounds a block more j = c.authRounds a block more j := by
  induction more generalizing j with
  | zero =>
      simp only [Card.authRounds, Card.authRound, h.uid, h.authFrame]
  | succ more ih =>
      simp only [Card.authRounds, Card.authRound, h.uid, h.authFrame, ih]

theorem SameFrame.authEvents {c c' : Card β} (h : SameFrame c c')
    (a : Answers β) (block : Nat) :
    c'.authEvents a block = c.authEvents a block := by
  simp only [Card.authEvents, h.rounds, h.authRounds]

end Card

/-!
## Evaluation of sessions
-/

namespace Session

variable {β : Type}

theorem onWorld_emit (e : Event β) (c : Card β) (w : World β) :
    onWorld (emit e) ⟨c, w⟩ = (.ok (), ⟨c, w.addLog [e]⟩) := rfl

theorem getCard_apply (c : Card β) (w : World β) :
    getCard ⟨c, w⟩ = (.ok c, ⟨c, w⟩) := rfl

theorem modifyCard_apply (f : Card β -> Card β) (c : Card β) (w : World β) :
    modifyCard f ⟨c, w⟩ = (.ok (), ⟨f c, w⟩) := rfl

theorem findCard_apply (present : Bool) (c : Card β) (w : World β) :
    findCard present ⟨c, w⟩ =
      (.ok present, ⟨c, w.addLog [.select c.uid present]⟩) := rfl

theorem stillThere_apply (present : Bool) (c : Card β) (w : World β) :
    stillThere present ⟨c, w⟩ =
      if present then (.ok (), ⟨c, w.addLog [.select c.uid true]⟩)
      else
        (.error .exception,
          ⟨c, w.addLog
            [.select c.uid false, .error "The tag was removed !"]⟩) := by
  cases present with
  | true => rfl
  | false =>
      simp [stillThere, Prog.bind_apply, findCard_apply, printError,
        onWorld_emit]

theorem mifareCmd_auth (keyB : Bool) (block : Nat) (reply : Reply β)
    (c : Card β) (w : World β) :
    mifareCmd (if keyB then .authB else .authA) block reply ⟨c, w⟩ =
      (.ok reply.ok,
        ⟨c, w.addLog
          [.frame c.uid (c.frame (if keyB then .authB else .authA) block)
            reply.ok]⟩) := by
  cases keyB <;> rfl

variable [Cell β]

theorem tryKey_run (a : Answers β) (block j : Nat) (next : SessionM β Bool)
    {c : Card β} (hc : c.UidLoaded) (w : World β) :
    tryKey a block j next ⟨c, w⟩ =
      if (a.auth j).ok then
        (.ok true,
          ⟨c.loadKey (c.calculateSector block).1 (6 * j),
            w.addLog (c.authRound a block j [])⟩)
      else if a.selected j then
        next
          ⟨c.loadKey (c.calculateSector block).1 (6 * j),
            w.addLog (c.authRound a block j [])⟩
      else
        (.error .exception,
          ⟨c.loadKey (c.calculateSector block).1 (6 * j),
            w.addLog (c.authRound a block j [])⟩) := by
  have huid := (Card.sameFrame_loadKey c (c.calculateSector block).1
    (6 * j)).uid
  have hframe := Card.authFrame_eq hc block j
  simp only [tryKey, Prog.bind_apply, getCard_apply, onWorld_emit,
    modifyCard_apply, mifareCmd_auth, World.addLog_addLog]
  rw [hframe, huid]
  by_cases hok : (a.auth j).ok
  · simp [hok, Card.authRound]
  · by_cases hselected : a.selected j
    · simp [hok, hselected, Prog.bind_apply, stillThere_apply, huid,
        Card.authRound]
    · simp [hok, hselected, Prog.bind_apply, stillThere_apply, huid,
        Card.authRound]

theorem tryKeys_run (a : Answers β) (block more j : Nat)
    {c : Card β} (hc : c.UidLoaded) (w : World β) :
    exists c' : Card β,
      Card.SameFrame c c' ∧ Card.SameBlocks c c' ∧
        tryKeys a block more j ⟨c, w⟩ =
          ((a.authFrom more j).outcome,
            ⟨c', w.addLog (c.authRounds a block more j)⟩) := by
  induction more generalizing j c w with
  | zero =>
      refine ⟨c.loadKey (c.calculateSector block).1 (6 * j),
        Card.sameFrame_loadKey _ _ _, Card.sameBlocks_loadKey _ _ _, ?_⟩
      rw [tryKeys, tryKey_run a block j _ hc w]
      by_cases hok : (a.auth j).ok
      · simp [Answers.authFrom, Card.authRounds, Card.authRound, hok,
          AuthResult.outcome]
      · by_cases hselected : a.selected j
        · simp [Answers.authFrom, Card.authRounds, Card.authRound, hok,
            hselected, AuthResult.outcome, Prog.bind_apply, printError,
            onWorld_emit]
        · simp [Answers.authFrom, Card.authRounds, Card.authRound, hok,
            hselected, AuthResult.outcome]
  | succ more ih =>
      have hframe := Card.sameFrame_loadKey c (c.calculateSector block).1
        (6 * j)
      have hblocks := Card.sameBlocks_loadKey c (c.calculateSector block).1
        (6 * j)
      rw [tryKeys, tryKey_run a block j _ hc w]
      by_cases hok : (a.auth j).ok
      · exact ⟨_, hframe, hblocks, by
          simp [Answers.authFrom, Card.authRounds, Card.authRound, hok,
            AuthResult.outcome]⟩
      · by_cases hselected : a.selected j
        · rcases ih (j + 1)
              (hc.loadKey (c.calculateSector block).1 (6 * j))
              (w.addLog (c.authRound a block j [])) with
            ⟨c', hframe', hblocks', hrun⟩
          refine ⟨c', hframe.trans hframe', hblocks.trans hblocks', ?_⟩
          rw [if_neg hok, if_pos hselected, hrun, hframe.authRounds]
          simp [Answers.authFrom, Card.authRounds, Card.authRound, hok,
            hselected]
        · exact ⟨_, hframe, hblocks, by
            simp [Answers.authFrom, Card.authRounds, Card.authRound, hok,
              hselected, AuthResult.outcome]⟩

theorem authenticate_run (a : Answers β) (block : Nat) (c : Card β)
    (w : World β) :
    exists c' : Card β,
      Card.SameFrame c c' ∧ Card.SameBlocks c c' ∧
        authenticate a block ⟨c, w⟩ =
          ((c.authResult a).outcome, ⟨c', w.addLog (c.authEvents a block)⟩)
    := by
  have hframe := Card.sameFrame_loadUid c
  rcases tryKeys_run a block c.rounds 0 (Card.uidLoaded_loadUid c) w with
    ⟨c', hframe', hblocks', hrun⟩
  refine ⟨c', hframe.trans hframe',
    (Card.sameBlocks_loadUid c).trans hblocks', ?_⟩
  rw [hframe.authRounds] at hrun
  exact hrun

end Session

end BeeGadz
