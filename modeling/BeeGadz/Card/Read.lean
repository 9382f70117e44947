import BeeGadz.Card.Authenticate
import BeeGadz.Card.Geometry

/-!
# Reading sectors

On a card of sixteen sectors of four blocks the address of block `k` of sector
`s` is `4 * s + k`, in both directions.  Reading a range of addresses replaces
exactly the blocks whose authentication and `MC_READ` succeeded, up to the first
block at which the tag was lost.
-/

namespace BeeGadz

open Foundation

namespace Card

variable {β : Type}

/-!
## Geometry
-/

structure Classic (c : Card β) : Prop where
  count : c.data.size = 16
  size : forall s, s < 16 -> (c.data.get s).size = 4

theorem Classic.of_sameFrame {c c' : Card β} (hc : Classic c)
    (h : SameFrame c c') : Classic c' where
  count := h.count.trans hc.count
  size := fun s hs => (h.size s).trans (hc.size s hs)

theorem classic_fresh [Cell β] (target : Target) (keys : Vec UInt8) :
    Classic (fresh target keys : Card β) where
  count := rfl
  size := by
    intro s _
    by_cases hs : s = 0
    · subst hs
      simp [fresh]
    · simp [fresh, Vec.modify_get_of_ne, hs]

theorem Classic.start {c : Card β} (hc : Classic c) {s : Nat}
    (hs : s ≤ 16) : c.start s = 4 * s :=
  segmentStart_eq_mul s fun i hi => hc.size i (by omega)

theorem Classic.firstBlock {c : Card β} (hc : Classic c) {s : Nat}
    (hs : s < 16) : c.firstBlock s = 4 * s := by
  have hsize : c.sectorSize s = 4 := hc.size s hs
  have hsize0 : c.sectorSize 0 = 4 := hc.size 0 (by decide)
  have hloop := c.blockLoop_add s
  rw [hc.start (Nat.le_of_lt hs), hsize, hsize0] at hloop
  rw [firstBlock_eq (by omega), sizeValues]
  omega

theorem Classic.calculateSector {c : Card β} (hc : Classic c) {a : Nat}
    (ha : a < 64) : c.calculateSector a = (a / 4, a % 4) := by
  have hstart : c.start (a / 4) = 4 * (a / 4) := hc.start (by omega)
  have hsize : c.sectorSize (a / 4) = 4 := hc.size (a / 4) (by omega)
  have hlimit : 64 < intLimit := by decide
  have hfound : c.calculateSector (c.start (a / 4) + a % 4) =
      (a / 4, a % 4) := by
    apply calculateSector_at
    · intro j hj
      have hsize_j : c.sectorSize j = 4 := hc.size j (by omega)
      omega
    · omega
    · omega
    · omega
  rw [hstart, Nat.div_add_mod] at hfound
  exact hfound

/-!
## Outcomes
-/

end Card

inductive ReadResult where
  | loaded
  | skipped
  | lost
deriving DecidableEq

namespace Card

variable {β : Type}

def readResult (c : Card β) (a : Answers β) : ReadResult :=
  match c.authResult a with
  | .gone => .lost
  | .refused => .skipped
  | .accepted =>
      if a.read.ok then .loaded
      else if a.stays then .skipped
      else .lost

theorem SameFrame.readResult {c c' : Card β} (h : SameFrame c c')
    (a : Answers β) : c'.readResult a = c.readResult a := by
  simp only [Card.readResult, h.authResult]

/-- The tag is lost at one of `n` blocks from address `block` on. -/
def readLost (c : Card β) (pass : Pass β) : Nat -> Nat -> Bool
  | 0, _ => false
  | n + 1, block =>
      c.readResult (pass block) = .lost || c.readLost pass n (block + 1)

theorem SameFrame.readLost {c c' : Card β} (h : SameFrame c c')
    (pass : Pass β) (n block : Nat) :
    c'.readLost pass n block = c.readLost pass n block := by
  induction n generalizing block with
  | zero => rfl
  | succ n ih =>
      simp only [Card.readLost, h.readResult, ih]

theorem exists_block_succ {P : Nat -> Prop} {block n : Nat} :
    (exists b, block ≤ b ∧ b < block + (n + 1) ∧ P b) <->
      P block ∨ exists b, block + 1 ≤ b ∧ b < block + 1 + n ∧ P b := by
  constructor
  · intro hall
    rcases hall with ⟨b, hle, hlt, h⟩
    by_cases hb : b = block
    · exact Or.inl (hb ▸ h)
    · exact Or.inr ⟨b, by omega, by omega, h⟩
  · intro hcase
    rcases hcase with h | ⟨b, hle, hlt, h⟩
    · exact ⟨block, le_refl _, by omega, h⟩
    · exact ⟨b, by omega, by omega, h⟩

theorem readLost_iff (c : Card β) (pass : Pass β) (n block : Nat) :
    c.readLost pass n block = true <->
      exists b, block ≤ b ∧ b < block + n ∧
        c.readResult (pass b) = .lost := by
  induction n generalizing block with
  | zero =>
      simp only [readLost, Bool.false_eq_true, false_iff]
      intro hall
      rcases hall with ⟨b, hle, hlt, _⟩
      omega
  | succ n ih =>
      rw [readLost, Bool.or_eq_true, decide_eq_true_eq, ih, exists_block_succ]

theorem readLost_add (c : Card β) (pass : Pass β) (m n block : Nat) :
    c.readLost pass (m + n) block =
      (c.readLost pass m block || c.readLost pass n (block + m)) := by
  induction m generalizing block with
  | zero => simp [readLost]
  | succ m ih =>
      have hsum : m + 1 + n = m + n + 1 := by omega
      have hnext : block + 1 + m = block + (m + 1) := by omega
      rw [hsum, readLost, readLost, ih, hnext, Bool.or_assoc]

/-- The tag is still there when the block at address `a` is reached. -/
def ReadReaches (c : Card β) (pass : Pass β) (start a : Nat) : Prop :=
  forall b, start ≤ b -> b < a -> c.readResult (pass b) ≠ .lost

/-- The block at address `a` is one of those a pass from `start` to before
`stop` loads. -/
def Loads (c : Card β) (pass : Pass β) (start stop a : Nat) : Prop :=
  start ≤ a ∧ a < stop ∧ c.ReadReaches pass start a ∧
    c.readResult (pass a) = .loaded

/-- How the cached blocks of `c'` follow from those of `c` by a read pass over
the addresses from `start` to before `stop`. -/
structure Refreshed (c c' : Card β) (pass : Pass β)
    (mem : Nat -> Bytes β 16) (start stop : Nat) : Prop where
  loaded : forall s k, k < 4 -> c.Loads pass start stop (4 * s + k) ->
    c'.block s k = ⟨mem (4 * s + k), .clean⟩
  kept : forall s k, ¬ (k < 4 ∧ c.Loads pass start stop (4 * s + k)) ->
    c'.block s k = c.block s k

theorem SameFrame.loads_iff {c c' : Card β} (h : SameFrame c c')
    (pass : Pass β) (start stop a : Nat) :
    c'.Loads pass start stop a <-> c.Loads pass start stop a := by
  simp only [Card.Loads, ReadReaches, h.readResult]

theorem loads_append {c : Card β} {pass : Pass β} {start middle stop a : Nat}
    (hstart : start ≤ middle) (hstop : middle ≤ stop)
    (hkeep : c.ReadReaches pass start middle) :
    c.Loads pass start stop a <->
      c.Loads pass start middle a ∨ c.Loads pass middle stop a := by
  constructor
  · intro hall
    rcases hall with ⟨hle, hlt, hreach, hloaded⟩
    by_cases ha : a < middle
    · exact Or.inl ⟨hle, ha, hreach, hloaded⟩
    · refine Or.inr ⟨by omega, hlt, ?_, hloaded⟩
      intro b hb hba
      exact hreach b (by omega) hba
  · intro hcase
    rcases hcase with ⟨hle, hlt, hreach, hloaded⟩ | ⟨hle, hlt, hreach, hloaded⟩
    · exact ⟨hle, by omega, hreach, hloaded⟩
    · refine ⟨by omega, hlt, ?_, hloaded⟩
      intro b hb hba
      by_cases hbm : b < middle
      · exact hkeep b hb hbm
      · exact hreach b (by omega) hba

theorem loads_of_lost {c : Card β} {pass : Pass β}
    {start middle stop a b : Nat} (hb : start ≤ b) (hbm : b < middle)
    (hstop : middle ≤ stop) (hlost : c.readResult (pass b) = .lost) :
    c.Loads pass start stop a <-> c.Loads pass start middle a := by
  constructor
  · intro hall
    rcases hall with ⟨hle, hlt, hreach, hloaded⟩
    refine ⟨hle, ?_, hreach, hloaded⟩
    by_contra hma
    exact hreach b hb (by omega) hlost
  · intro hall
    rcases hall with ⟨hle, hlt, hreach, hloaded⟩
    exact ⟨hle, by omega, hreach, hloaded⟩

theorem loads_single {c : Card β} {pass : Pass β} {a b : Nat} :
    c.Loads pass a (a + 1) b <-> c.readResult (pass a) = .loaded ∧ b = a := by
  constructor
  · intro hall
    rcases hall with ⟨hle, hlt, _, hloaded⟩
    have hb : b = a := by omega
    exact ⟨hb ▸ hloaded, hb⟩
  · intro hall
    rcases hall with ⟨hloaded, rfl⟩
    refine ⟨Nat.le_refl b, Nat.lt_succ_self b, ?_, hloaded⟩
    intro b' hb hlt
    omega

theorem Refreshed.of_lost {c c' : Card β} {pass : Pass β}
    {mem : Nat -> Bytes β 16} {start middle stop b : Nat}
    (h : Refreshed c c' pass mem start middle) (hb : start ≤ b)
    (hbm : b < middle) (hstop : middle ≤ stop)
    (hlost : c.readResult (pass b) = .lost) :
    Refreshed c c' pass mem start stop where
  loaded := fun s k hk hloads =>
    h.loaded s k hk ((loads_of_lost hb hbm hstop hlost).mp hloads)
  kept := by
    intro s k hnot
    apply h.kept s k
    intro hall
    rcases hall with ⟨hk, hloads⟩
    exact hnot ⟨hk, (loads_of_lost hb hbm hstop hlost).mpr hloads⟩

theorem Refreshed.append {a b c : Card β} {pass : Pass β}
    {mem : Nat -> Bytes β 16} {start middle stop : Nat}
    (hframe : SameFrame a b) (hstart : start ≤ middle) (hstop : middle ≤ stop)
    (hkeep : a.ReadReaches pass start middle)
    (hab : Refreshed a b pass mem start middle)
    (hbc : Refreshed b c pass mem middle stop) :
    Refreshed a c pass mem start stop where
  loaded := by
    intro s k hk hloads
    by_cases hlate : b.Loads pass middle stop (4 * s + k)
    · exact hbc.loaded s k hk hlate
    · rw [hbc.kept s k (fun h => hlate h.right)]
      rcases (loads_append hstart hstop hkeep).mp hloads with hearly | hlate'
      · exact hab.loaded s k hk hearly
      · exact absurd ((hframe.loads_iff _ _ _ _).mpr hlate') hlate
  kept := by
    intro s k hnot
    have hnotEarly : ¬ (k < 4 ∧ a.Loads pass start middle (4 * s + k)) :=
      fun h => hnot
        ⟨h.left, (loads_append hstart hstop hkeep).mpr (Or.inl h.right)⟩
    have hnotLate : ¬ (k < 4 ∧ b.Loads pass middle stop (4 * s + k)) :=
      fun h => hnot
        ⟨h.left, (loads_append hstart hstop hkeep).mpr
          (Or.inr ((hframe.loads_iff _ _ _ _).mp h.right))⟩
    rw [hbc.kept s k hnotLate, hab.kept s k hnotEarly]

theorem refreshed_loaded {c c' : Card β} {pass : Pass β}
    {mem : Nat -> Bytes β 16} {block : Nat}
    (hread : c.readResult (pass block) = .loaded)
    (hloaded : c'.block (block / 4) (block % 4) = ⟨mem block, .clean⟩)
    (hkept : forall s k, ¬ (s = block / 4 ∧ k = block % 4) ->
      c'.block s k = c.block s k) :
    Refreshed c c' pass mem block (block + 1) where
  loaded := by
    intro s k hk hall
    have ha := (loads_single.mp hall).right
    have hs : s = block / 4 := by omega
    have hk' : k = block % 4 := by omega
    rw [hs, hk', hloaded, ← hs, ← hk', ha]
  kept := by
    intro s k hnot
    apply hkept
    intro hall
    rcases hall with ⟨hs, hk⟩
    exact hnot ⟨by omega, loads_single.mpr ⟨hread, by omega⟩⟩

/-- A pass over a block that is not loaded keeps every block. -/
theorem refreshed_kept {c c' : Card β} {pass : Pass β}
    {mem : Nat -> Bytes β 16} {block : Nat}
    (hread : c.readResult (pass block) ≠ .loaded)
    (hkept : SameBlocks c c') :
    Refreshed c c' pass mem block (block + 1) where
  loaded := by
    intro s k hk hall
    exact absurd (loads_single.mp hall).left hread
  kept := fun s k _ => hkept s k

/-!
## Events
-/

/-- The events of reading one block whose contents are `data`. -/
def loadEvents [Cell β] (c : Card β) (a : Answers β) (block : Nat)
    (data : Bytes β 16) : List (Event β) :=
  c.authEvents a block ++
    match c.authResult a with
    | .gone => []
    | .refused => []
    | .accepted =>
        .frame c.uid (c.frame .read block) a.read.ok ::
          if a.read.ok then [.received c.uid (block % 256) data]
          else if a.stays then
            [.select c.uid true,
              .error ("Error while reading block " ++ Session.hex block),
              .error ("Error while loading block " ++ Session.hex block)]
          else [.select c.uid false, .error "The tag was removed !"]

/-- The events of reading `n` blocks from address `block` on. -/
def readEvents [Cell β] (c : Card β) (pass : Pass β)
    (mem : Nat -> Bytes β 16) : Nat -> Nat -> List (Event β)
  | 0, _ => []
  | n + 1, block =>
      c.loadEvents (pass block) block (mem (block % 256)) ++
        if c.readResult (pass block) = .lost then []
        else c.readEvents pass mem n (block + 1)

theorem readEvents_add [Cell β] (c : Card β) (pass : Pass β)
    (mem : Nat -> Bytes β 16) (m n block : Nat) :
    c.readEvents pass mem (m + n) block =
      c.readEvents pass mem m block ++
        if c.readLost pass m block then []
        else c.readEvents pass mem n (block + m) := by
  induction m generalizing block with
  | zero => simp [readEvents, readLost]
  | succ m ih =>
      have hsum : m + 1 + n = m + n + 1 := by omega
      have hnext : block + 1 + m = block + (m + 1) := by omega
      rw [hsum, readEvents, readEvents, readLost]
      by_cases hlost : c.readResult (pass block) = .lost
      · simp [hlost]
      · simp [hlost, ih, hnext]

theorem SameFrame.loadEvents [Cell β] {c c' : Card β} (h : SameFrame c c')
    (a : Answers β) (block : Nat) (data : Bytes β 16) :
    c'.loadEvents a block data = c.loadEvents a block data := by
  simp only [Card.loadEvents, h.authEvents, h.authResult, h.uid, Card.frame]

theorem SameFrame.readEvents [Cell β] {c c' : Card β} (h : SameFrame c c')
    (pass : Pass β) (mem : Nat -> Bytes β 16) (n block : Nat) :
    c'.readEvents pass mem n block = c.readEvents pass mem n block := by
  induction n generalizing block with
  | zero => rfl
  | succ n ih =>
      simp only [Card.readEvents, h.loadEvents, h.readResult, ih]

end Card

/-!
## Evaluation
-/

namespace Session

variable {β : Type}

theorem mifareCmd_read (block : Nat) (reply : Reply β) (c : Card β)
    (w : World β) :
    mifareCmd .read block reply ⟨c, w⟩ =
      if reply.ok then
        (.ok true,
          ⟨{ c with param := w.mem c.uid (block % 256) },
            w.addLog
              [.frame c.uid (c.frame .read block) reply.ok,
                .received c.uid (block % 256)
                  (w.mem c.uid (block % 256))]⟩)
      else
        (.ok false,
          ⟨c, w.addLog [.frame c.uid (c.frame .read block) reply.ok]⟩) := by
  by_cases hok : reply.ok
  · simp [mifareCmd, hok, Card.frame]
  · simp [mifareCmd, hok]

variable [Cell β]

theorem readData_run (a : Answers β) (block : Nat) {c : Card β} {i k : Nat}
    (hsector : c.calculateSector block = (i, k)) (w : World β) :
    exists c' : Card β,
      Card.SameFrame c c' ∧
        (forall s l, c'.block s l =
          if a.read.ok = true ∧ s = i ∧ l = k then
            ⟨w.mem c.uid (block % 256), .clean⟩
          else c.block s l) ∧
        readData a block ⟨c, w⟩ =
          if a.read.ok then
            (.ok true,
              ⟨c', w.addLog
                [.frame c.uid (c.frame .read block) a.read.ok,
                  .received c.uid (block % 256)
                    (w.mem c.uid (block % 256))]⟩)
          else if a.stays then
            (.ok false,
              ⟨c', w.addLog
                [.frame c.uid (c.frame .read block) a.read.ok,
                  .select c.uid true,
                  .error ("Error while reading block " ++ hex block)]⟩)
          else
            (.error .exception,
              ⟨c', w.addLog
                [.frame c.uid (c.frame .read block) a.read.ok,
                  .select c.uid false,
                  .error "The tag was removed !"]⟩) := by
  have hframe := Card.sameFrame_loadUid c
  have hread : (c.loadUid).frame .read block = c.frame .read block := rfl
  have huid : (c.loadUid).uid = c.uid := hframe.uid
  by_cases hok : a.read.ok
  · let c₁ : Card β :=
      { c.loadUid with param := w.mem c.uid (block % 256) }
    have hframe₁ : Card.SameFrame c c₁ := ⟨rfl, rfl, rfl, fun _ => rfl,
      fun _ => rfl⟩
    have hsector₁ : c₁.calculateSector block = (i, k) :=
      (hframe₁.calculateSector block).trans hsector
    refine ⟨c₁.setBlock i k ⟨w.mem c.uid (block % 256), .clean⟩,
      hframe₁.trans (Card.sameFrame_setBlock _ _ _ _), ?_, ?_⟩
    · intro s l
      rw [Card.setBlock_block]
      simp only [hok, true_and]
      rfl
    · simp only [readData, Prog.bind_apply, modifyCard_apply, mifareCmd_read,
        hok, if_true, huid, hread]
      simp only [c₁] at hsector₁
      simp [hsector₁, c₁]
  · refine ⟨c.loadUid, hframe, ?_, ?_⟩
    · intro s l
      rw [if_neg fun h => hok h.left]
      rfl
    · by_cases hstays : a.stays
      · simp [readData, Prog.bind_apply, modifyCard_apply, mifareCmd_read,
          hok, hstays, huid, hread, stillThere_apply, printError,
          onWorld_emit]
      · simp [readData, Prog.bind_apply, modifyCard_apply, mifareCmd_read,
          hok, hstays, huid, hread, stillThere_apply]

theorem loadBlock_at (a : Answers β) (block : Nat) {c : Card β} {i k : Nat}
    (hsector : c.calculateSector block = (i, k)) (w : World β) :
    exists c' : Card β,
      Card.SameFrame c c' ∧
        (forall s l, c'.block s l =
          if c.readResult a = .loaded ∧ s = i ∧ l = k then
            ⟨w.mem c.uid (block % 256), .clean⟩
          else c.block s l) ∧
        loadBlock a block ⟨c, w⟩ =
          (if c.readResult a = .lost then .error .exception else .ok (),
            ⟨c', w.addLog
              (c.loadEvents a block (w.mem c.uid (block % 256)))⟩) := by
  rcases authenticate_run a block c w with ⟨c₁, hframe, hblocks, hauth⟩
  have hunread : c.readResult a ≠ .loaded -> forall s l, c₁.block s l =
      if c.readResult a = .loaded ∧ s = i ∧ l = k then
        ⟨w.mem c.uid (block % 256), .clean⟩
      else c.block s l := by
    intro hnot s l
    rw [if_neg fun h => hnot h.left]
    exact hblocks s l
  cases hresult : c.authResult a with
  | gone =>
      have hread : c.readResult a = .lost := by
        simp [Card.readResult, hresult]
      refine ⟨c₁, hframe, hunread (by simp [hread]), ?_⟩
      simp [loadBlock, Prog.bind_apply, hauth, hresult, hread,
        AuthResult.outcome, Card.loadEvents]
  | refused =>
      have hread : c.readResult a = .skipped := by
        simp [Card.readResult, hresult]
      refine ⟨c₁, hframe, hunread (by simp [hread]), ?_⟩
      simp [loadBlock, Prog.bind_apply, hauth, hresult, hread,
        AuthResult.outcome, Card.loadEvents]
  | accepted =>
      have hloaded : c.readResult a = .loaded <-> a.read.ok = true := by
        by_cases hok : a.read.ok
        · simp [Card.readResult, hresult, hok]
        · by_cases hstays : a.stays
          · simp [Card.readResult, hresult, hok, hstays]
          · simp [Card.readResult, hresult, hok, hstays]
      rcases readData_run a block
          ((hframe.calculateSector block).trans hsector)
          (w.addLog (c.authEvents a block)) with
        ⟨c₂, hframe₂, hdata, hrun⟩
      have hcmd : c₁.frame .read block = c.frame .read block := rfl
      rw [hframe.uid, hcmd] at hrun
      refine ⟨c₂, hframe.trans hframe₂, ?_, ?_⟩
      · intro s l
        rw [hdata, hframe.uid, hblocks]
        simp only [hloaded]
        rfl
      · by_cases hok : a.read.ok
        · simp [loadBlock, Prog.bind_apply, hauth, hresult, hrun, hok,
            AuthResult.outcome, Card.loadEvents, Card.readResult]
        · by_cases hstays : a.stays
          · simp [loadBlock, Prog.bind_apply, hauth, hresult, hrun, hok,
              hstays, AuthResult.outcome, Card.loadEvents, Card.readResult,
              printError, onWorld_emit]
          · simp [loadBlock, Prog.bind_apply, hauth, hresult, hrun, hok,
              hstays, AuthResult.outcome, Card.loadEvents, Card.readResult]

theorem loadBlock_run (pass : Pass β) (block : Nat) {c : Card β}
    (hc : c.Classic) (hblock : block < 64) (w : World β) :
    exists c' : Card β,
      Card.SameFrame c c' ∧
        Card.Refreshed c c' pass (w.mem c.uid) block (block + 1) ∧
        loadBlock (pass block) block ⟨c, w⟩ =
          (if c.readResult (pass block) = .lost then .error .exception
            else .ok (),
            ⟨c', w.addLog
              (c.loadEvents (pass block) block
                (w.mem c.uid (block % 256)))⟩) := by
  have hmod : block % 256 = block := Nat.mod_eq_of_lt (by omega)
  rcases loadBlock_at (pass block) block (hc.calculateSector hblock) w with
    ⟨c', hframe, hdata, hrun⟩
  refine ⟨c', hframe, ?_, hrun⟩
  by_cases hread : c.readResult (pass block) = .loaded
  · apply Card.refreshed_loaded hread
    · rw [hdata, if_pos ⟨hread, rfl, rfl⟩, hmod]
    · intro s k hne
      rw [hdata, if_neg fun h => hne h.right]
  · apply Card.refreshed_kept hread
    intro s k
    rw [hdata, if_neg fun h => hread h.left]

theorem readBlocks_run (pass : Pass β) (n block : Nat) {c : Card β}
    (hc : c.Classic) (hblock : block + n ≤ 64) (w : World β) :
    exists c' : Card β,
      Card.SameFrame c c' ∧
        Card.Refreshed c c' pass (w.mem c.uid) block (block + n) ∧
        readBlocks pass n block ⟨c, w⟩ =
          (if c.readLost pass n block then .error .exception else .ok (),
            ⟨c', w.addLog (c.readEvents pass (w.mem c.uid) n block)⟩) := by
  induction n generalizing block c w with
  | zero =>
      refine ⟨c, Card.SameFrame.refl c, ⟨?_, fun _ _ _ => rfl⟩, ?_⟩
      · intro s k _ hall
        rcases hall with ⟨hle, hlt, _⟩
        omega
      · simp [readBlocks, Card.readLost, Card.readEvents]
  | succ n ih =>
      rcases loadBlock_run pass block hc (by omega) w with
        ⟨c₁, hframe, hrefreshed, hload⟩
      by_cases hlost : c.readResult (pass block) = .lost
      · refine ⟨c₁, hframe,
          hrefreshed.of_lost (Nat.le_refl block) (by omega) (by omega) hlost,
          ?_⟩
        simp [readBlocks, Prog.bind_apply, hload, hlost, Card.readLost,
          Card.readEvents]
      · rcases ih (block + 1) (hc.of_sameFrame hframe) (by omega)
            (w.addLog
              (c.loadEvents (pass block) block
                (w.mem c.uid (block % 256)))) with
          ⟨c₂, hframe₂, hrefreshed₂, hrun⟩
        rw [hframe.uid] at hrefreshed₂ hrun
        have hrange : block + 1 + n = block + (n + 1) := by omega
        rw [hrange] at hrefreshed₂
        refine ⟨c₂, hframe.trans hframe₂, ?_, ?_⟩
        · apply hrefreshed.append hframe (by omega) (by omega) ?_ hrefreshed₂
          intro b hb hlt
          have hbb : b = block := by omega
          rw [hbb]
          exact hlost
        · simp [readBlocks, Prog.bind_apply, hload, hlost, hrun,
            hframe.readLost, hframe.readEvents, Card.readLost,
            Card.readEvents]

/-- `readSector` throws when the tag was lost and returns true otherwise. -/
theorem readSector_run (pass : Pass β) {s : Nat} (hs : s < 16) {c : Card β}
    (hc : c.Classic) (w : World β) :
    exists c' : Card β,
      Card.SameFrame c c' ∧
        Card.Refreshed c c' pass (w.mem c.uid) (4 * s) (4 * s + 4) ∧
        readSector pass s ⟨c, w⟩ =
          (if c.readLost pass 4 (4 * s) then .error .exception else .ok true,
            ⟨c', w.addLog
              (c.readEvents pass (w.mem c.uid) 4 (4 * s))⟩) := by
  rcases readBlocks_run pass 4 (4 * s) hc (by omega) w with
    ⟨c', hframe, hrefreshed, hrun⟩
  refine ⟨c', hframe, hrefreshed, ?_⟩
  by_cases hlost : c.readLost pass 4 (4 * s)
  · simp [readSector, readMifareClassic, Prog.bind_apply, getCard_apply,
      hc.size s hs, hc.firstBlock hs, hrun, hlost]
  · simp [readSector, readMifareClassic, Prog.bind_apply, getCard_apply,
      hc.size s hs, hc.firstBlock hs, hrun, hlost]

theorem readSectors_run (pass : Pass β) (n i : Nat) {c : Card β}
    (hc : c.Classic) (hi : i + n ≤ 16) (w : World β) :
    exists c' : Card β,
      Card.SameFrame c c' ∧
        Card.Refreshed c c' pass (w.mem c.uid) (4 * i) (4 * i + 4 * n) ∧
        readSectors pass n i ⟨c, w⟩ =
          (if c.readLost pass (4 * n) (4 * i) then .error .exception
            else .ok true,
            ⟨c', w.addLog
              (c.readEvents pass (w.mem c.uid) (4 * n) (4 * i))⟩) := by
  induction n generalizing i c w with
  | zero =>
      refine ⟨c, Card.SameFrame.refl c, ⟨?_, fun _ _ _ => rfl⟩, ?_⟩
      · intro s k _ hall
        rcases hall with ⟨hle, hlt, _⟩
        omega
      · simp [readSectors, Card.readLost, Card.readEvents]
  | succ n ih =>
      have hcount : 4 * (n + 1) = 4 + 4 * n := by omega
      rcases readSector_run (s := i) pass (by omega) hc w with
        ⟨c₁, hframe, hrefreshed, hsector⟩
      by_cases hlost : c.readLost pass 4 (4 * i)
      · rcases (Card.readLost_iff _ _ _ _).mp hlost with
          ⟨b, hb, hlt, hresult⟩
        refine ⟨c₁, hframe, hrefreshed.of_lost hb hlt (by omega) hresult, ?_⟩
        simp [readSectors, Prog.bind_apply, hsector, hlost, hcount,
          Card.readLost_add, Card.readEvents_add]
      · rcases ih (i + 1) (hc.of_sameFrame hframe) (by omega)
            (w.addLog (c.readEvents pass (w.mem c.uid) 4 (4 * i))) with
          ⟨c₂, hframe₂, hrefreshed₂, hrun⟩
        have hnext : 4 * (i + 1) = 4 * i + 4 := by omega
        have hrange : 4 * i + 4 + 4 * n = 4 * i + 4 * (n + 1) := by omega
        rw [hframe.uid, hnext] at hrefreshed₂ hrun
        rw [hrange] at hrefreshed₂
        refine ⟨c₂, hframe.trans hframe₂, ?_, ?_⟩
        · apply hrefreshed.append hframe (by omega) (by omega) ?_ hrefreshed₂
          intro b hb hlt hresult
          exact hlost ((Card.readLost_iff _ _ _ _).mpr
            ⟨b, hb, hlt, hresult⟩)
        · simp [readSectors, Prog.bind_apply, hsector, hlost, hrun, hcount,
            hframe.readLost, hframe.readEvents, Card.readLost_add,
            Card.readEvents_add]

theorem readAllCard_run (pass : Pass β) {c : Card β} (hc : c.Classic)
    (w : World β) :
    exists c' : Card β,
      Card.SameFrame c c' ∧
        Card.Refreshed c c' pass (w.mem c.uid) 0 64 ∧
        readAllCard pass ⟨c, w⟩ =
          (if c.readLost pass 64 0 then .error .exception else .ok true,
            ⟨c', w.addLog (c.readEvents pass (w.mem c.uid) 64 0)⟩) := by
  rcases readSectors_run pass 16 0 hc (by omega) w with
    ⟨c', hframe, hrefreshed, hrun⟩
  refine ⟨c', hframe, hrefreshed, ?_⟩
  rw [readAllCard, Prog.bind_of_ok _ (getCard_apply c w), hc.count]
  exact hrun

end Session

end BeeGadz
