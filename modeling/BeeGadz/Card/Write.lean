import BeeGadz.Card.Read

/-!
# Writing sectors

Writing a range of addresses sends the cached bytes of exactly the modified
blocks whose authentication succeeded, up to the first one at which the tag was
lost.  What a write leaves in the physical block depends on its answer; the
cached blocks and their states do not change.
-/

namespace BeeGadz

open Foundation

namespace Card

variable {β : Type}

/-!
## Outcomes
-/

def blockAt (c : Card β) (a : Nat) : Block β :=
  c.block (a / 4) (a % 4)

theorem blockAt_address (c : Card β) (s : Nat) {k : Nat} (hk : k < 4) :
    c.blockAt (4 * s + k) = c.block s k := by
  have hdiv : (4 * s + k) / 4 = s := by omega
  have hmod : (4 * s + k) % 4 = k := by omega
  rw [blockAt, hdiv, hmod]

def Pending (c : Card β) (a : Nat) : Prop :=
  (c.blockAt a).state = .modified

instance (c : Card β) (a : Nat) : Decidable (c.Pending a) :=
  inferInstanceAs (Decidable ((c.blockAt a).state = .modified))

def storeLost (c : Card β) (a : Answers β) : Bool :=
  match c.authResult a with
  | .gone => true
  | .refused => false
  | .accepted => !a.write.ok && !a.stays

def Stores (c : Card β) (a : Answers β) : Prop :=
  c.authResult a = .accepted ∧ a.write.ok = true

/-- What a block holding `old` holds after `data` was to be written to it. -/
def leaves (c : Card β) (a : Answers β) (old data : Bytes β 16) :
    Bytes β 16 :=
  match c.authResult a with
  | .gone => old
  | .refused => old
  | .accepted => a.write.leaves old data

/-- The tag is lost at a modified block among `n` from address `block` on. -/
def writeLost (c : Card β) (pass : Pass β) : Nat -> Nat -> Bool
  | 0, _ => false
  | n + 1, block =>
      (decide (c.Pending block) && c.storeLost (pass block)) ||
        c.writeLost pass n (block + 1)

/-- The tag is still there when the block at address `a` is reached. -/
def WriteReaches (c : Card β) (pass : Pass β) (start a : Nat) : Prop :=
  forall b, start ≤ b -> b < a -> c.Pending b ->
    c.storeLost (pass b) = false

/-- The block at address `a` is one of those that a pass from `start` to before
`stop` tries to write. -/
def Writes (c : Card β) (pass : Pass β) (start stop a : Nat) : Prop :=
  start ≤ a ∧ a < stop ∧ c.Pending a ∧ c.WriteReaches pass start a

/-- How the physical memory follows from a write pass over the addresses from
`start` to before `stop`. -/
structure Flushed (c : Card β) (pass : Pass β)
    (mem mem' : Uid -> Nat -> Bytes β 16) (start stop : Nat) : Prop where
  written : forall a, c.Writes pass start stop a ->
    mem' c.uid a = c.leaves (pass a) (mem c.uid a) (c.blockAt a).data
  kept : forall u a, ¬ (u = c.uid ∧ c.Writes pass start stop a) ->
    mem' u a = mem u a

section Congruence

variable {c c' : Card β}

theorem SameBlocks.blockAt (h : SameBlocks c c') (a : Nat) :
    c'.blockAt a = c.blockAt a :=
  h _ _

theorem SameBlocks.pending (h : SameBlocks c c') (a : Nat) :
    c'.Pending a <-> c.Pending a := by
  simp only [Card.Pending, h.blockAt]

theorem SameFrame.storeLost (h : SameFrame c c') (a : Answers β) :
    c'.storeLost a = c.storeLost a := by
  simp only [Card.storeLost, h.authResult]

theorem SameFrame.leaves (h : SameFrame c c') (a : Answers β)
    (old data : Bytes β 16) : c'.leaves a old data = c.leaves a old data := by
  simp only [Card.leaves, h.authResult]

theorem writeLost_congr (hframe : SameFrame c c') (hblocks : SameBlocks c c')
    (pass : Pass β) (n block : Nat) :
    c'.writeLost pass n block = c.writeLost pass n block := by
  induction n generalizing block with
  | zero => rfl
  | succ n ih =>
      simp only [writeLost, hblocks.pending, hframe.storeLost, ih]

theorem writes_congr (hframe : SameFrame c c') (hblocks : SameBlocks c c')
    (pass : Pass β) (start stop a : Nat) :
    c'.Writes pass start stop a <-> c.Writes pass start stop a := by
  simp only [Writes, WriteReaches, hblocks.pending, hframe.storeLost]

end Congruence

theorem writeLost_iff (c : Card β) (pass : Pass β) (n block : Nat) :
    c.writeLost pass n block = true <->
      exists b, block ≤ b ∧ b < block + n ∧ c.Pending b ∧
        c.storeLost (pass b) = true := by
  induction n generalizing block with
  | zero =>
      simp only [writeLost, Bool.false_eq_true, false_iff]
      intro hall
      rcases hall with ⟨b, hle, hlt, _⟩
      omega
  | succ n ih =>
      rw [writeLost, Bool.or_eq_true, Bool.and_eq_true, decide_eq_true_eq, ih,
        exists_block_succ]

theorem writeLost_add (c : Card β) (pass : Pass β) (m n block : Nat) :
    c.writeLost pass (m + n) block =
      (c.writeLost pass m block || c.writeLost pass n (block + m)) := by
  induction m generalizing block with
  | zero => simp [writeLost]
  | succ m ih =>
      have hsum : m + 1 + n = m + n + 1 := by omega
      have hnext : block + 1 + m = block + (m + 1) := by omega
      rw [hsum, writeLost, writeLost, ih, hnext, Bool.or_assoc]

theorem writeReaches_of_not_lost {c : Card β} {pass : Pass β}
    {n block : Nat} (h : c.writeLost pass n block = false) :
    c.WriteReaches pass block (block + n) := by
  intro b hb hlt hpending
  cases hlost : c.storeLost (pass b) with
  | false => rfl
  | true =>
      have hpass := (writeLost_iff c pass n block).mpr
        ⟨b, hb, hlt, hpending, hlost⟩
      rw [h] at hpass
      cases hpass

theorem writes_append {c : Card β} {pass : Pass β}
    {start middle stop a : Nat} (hstart : start ≤ middle)
    (hstop : middle ≤ stop) (hkeep : c.WriteReaches pass start middle) :
    c.Writes pass start stop a <->
      c.Writes pass start middle a ∨ c.Writes pass middle stop a := by
  constructor
  · intro hall
    rcases hall with ⟨hle, hlt, hpending, hreach⟩
    by_cases ha : a < middle
    · exact Or.inl ⟨hle, ha, hpending, hreach⟩
    · refine Or.inr ⟨by omega, hlt, hpending, ?_⟩
      intro b hb hba
      exact hreach b (by omega) hba
  · intro hcase
    rcases hcase with ⟨hle, hlt, hpending, hreach⟩ | ⟨hle, hlt, hpending, hreach⟩
    · exact ⟨hle, by omega, hpending, hreach⟩
    · refine ⟨by omega, hlt, hpending, ?_⟩
      intro b hb hba
      by_cases hbm : b < middle
      · exact hkeep b hb hbm
      · exact hreach b (by omega) hba

theorem writes_of_lost {c : Card β} {pass : Pass β}
    {start middle stop a b : Nat} (hb : start ≤ b) (hbm : b < middle)
    (hstop : middle ≤ stop) (hpending : c.Pending b)
    (hlost : c.storeLost (pass b) = true) :
    c.Writes pass start stop a <-> c.Writes pass start middle a := by
  constructor
  · intro hall
    rcases hall with ⟨hle, hlt, hp, hreach⟩
    refine ⟨hle, ?_, hp, hreach⟩
    by_contra hma
    have hstays := hreach b hb (by omega) hpending
    rw [hlost] at hstays
    cases hstays
  · intro hall
    rcases hall with ⟨hle, hlt, hp, hreach⟩
    exact ⟨hle, by omega, hp, hreach⟩

theorem Flushed.of_lost {c : Card β} {pass : Pass β}
    {mem mem' : Uid -> Nat -> Bytes β 16} {start middle stop b : Nat}
    (h : Flushed c pass mem mem' start middle) (hb : start ≤ b)
    (hbm : b < middle) (hstop : middle ≤ stop) (hpending : c.Pending b)
    (hlost : c.storeLost (pass b) = true) :
    Flushed c pass mem mem' start stop where
  written := fun a hwrites =>
    h.written a ((writes_of_lost hb hbm hstop hpending hlost).mp hwrites)
  kept := by
    intro u a hnot
    apply h.kept u a
    intro hall
    rcases hall with ⟨hu, hwrites⟩
    exact hnot
      ⟨hu, (writes_of_lost hb hbm hstop hpending hlost).mpr hwrites⟩

theorem Flushed.append {c c' : Card β} {pass : Pass β}
    {mem mem' mem'' : Uid -> Nat -> Bytes β 16} {start middle stop : Nat}
    (hframe : SameFrame c c') (hblocks : SameBlocks c c')
    (hstart : start ≤ middle) (hstop : middle ≤ stop)
    (hkeep : c.WriteReaches pass start middle)
    (hfirst : Flushed c pass mem mem' start middle)
    (hsecond : Flushed c' pass mem' mem'' middle stop) :
    Flushed c pass mem mem'' start stop where
  written := by
    intro a hwrites
    rcases (writes_append hstart hstop hkeep).mp hwrites with hearly | hlate
    · have hnot : ¬ (c.uid = c'.uid ∧ c'.Writes pass middle stop a) := by
        intro hall
        rcases hall with ⟨_, hle, _, _, _⟩
        exact absurd hearly.right.left (by omega)
      rw [hsecond.kept c.uid a hnot, hfirst.written a hearly]
    · have hnot : ¬ (c.uid = c.uid ∧ c.Writes pass start middle a) := by
        intro hall
        rcases hall with ⟨_, _, hlt, _, _⟩
        exact absurd hlate.left (by omega)
      have hwritten := hsecond.written a
        ((writes_congr hframe hblocks pass middle stop a).mpr hlate)
      rw [hframe.uid, hframe.leaves, hblocks.blockAt] at hwritten
      rw [hwritten, hfirst.kept c.uid a hnot]
  kept := by
    intro u a hnot
    have hnotSecond : ¬ (u = c'.uid ∧ c'.Writes pass middle stop a) := by
      intro hall
      rcases hall with ⟨hu, hwrites⟩
      rw [hframe.uid] at hu
      exact hnot ⟨hu, (writes_append hstart hstop hkeep).mpr
        (Or.inr ((writes_congr hframe hblocks pass middle stop a).mp
          hwrites))⟩
    have hnotFirst : ¬ (u = c.uid ∧ c.Writes pass start middle a) := by
      intro hall
      rcases hall with ⟨hu, hwrites⟩
      exact hnot ⟨hu, (writes_append hstart hstop hkeep).mpr
        (Or.inl hwrites)⟩
    rw [hsecond.kept u a hnotSecond, hfirst.kept u a hnotFirst]

theorem flushed_refl (c : Card β) (pass : Pass β)
    (mem : Uid -> Nat -> Bytes β 16) (start : Nat) :
    Flushed c pass mem mem start start where
  written := by
    intro a hall
    rcases hall with ⟨hle, hlt, _, _⟩
    omega
  kept := fun _ _ _ => rfl

/-- A block that is not modified is passed over. -/
theorem flushed_skip {c : Card β} {pass : Pass β}
    {mem mem' : Uid -> Nat -> Bytes β 16} {start stop : Nat}
    (hskip : ¬ c.Pending start) (hstop : start + 1 ≤ stop)
    (h : Flushed c pass mem mem' (start + 1) stop) :
    Flushed c pass mem mem' start stop := by
  apply Flushed.append (SameFrame.refl c) (fun _ _ => rfl)
    (Nat.le_succ start) hstop ?_ ?_ h
  · intro b hb hlt hpending
    have hbs : b = start := by omega
    exact absurd (hbs ▸ hpending) hskip
  · constructor
    · intro a hall
      rcases hall with ⟨hle, hlt, hpending, _⟩
      have ha : a = start := by omega
      exact absurd (ha ▸ hpending) hskip
    · intro _ _ _
      rfl

/-!
## Events
-/

def writeFrame (block : Nat) (data : Bytes β 16) : Frame β where
  cmd := .write
  block := block % 256
  param := List.ofFn data

/-- The events of writing `data` to one block. -/
def storeEvents [Cell β] (c : Card β) (a : Answers β) (block : Nat)
    (data : Bytes β 16) : List (Event β) :=
  c.authEvents a block ++
    match c.authResult a with
    | .gone => []
    | .refused => []
    | .accepted =>
        .frame c.uid (writeFrame block data) a.write.ok ::
          if a.write.ok then []
          else if a.stays then
            [.select c.uid true,
              .error ("Error while writing block " ++ Session.hex block)]
          else [.select c.uid false, .error "The tag was removed !"]

/-- The events of writing `n` blocks from address `block` on. -/
def writeEvents [Cell β] (c : Card β) (pass : Pass β) :
    Nat -> Nat -> List (Event β)
  | 0, _ => []
  | n + 1, block =>
      if c.Pending block then
        c.storeEvents (pass block) block (c.blockAt block).data ++
          if c.storeLost (pass block) then []
          else c.writeEvents pass n (block + 1)
      else c.writeEvents pass n (block + 1)

theorem SameFrame.storeEvents [Cell β] {c c' : Card β} (h : SameFrame c c')
    (a : Answers β) (block : Nat) (data : Bytes β 16) :
    c'.storeEvents a block data = c.storeEvents a block data := by
  simp only [Card.storeEvents, h.authEvents, h.authResult, h.uid]

theorem writeEvents_congr [Cell β] {c c' : Card β} (hframe : SameFrame c c')
    (hblocks : SameBlocks c c') (pass : Pass β) (n block : Nat) :
    c'.writeEvents pass n block = c.writeEvents pass n block := by
  induction n generalizing block with
  | zero => rfl
  | succ n ih =>
      simp only [writeEvents, hblocks.pending, hblocks.blockAt,
        hframe.storeEvents, hframe.storeLost, ih]

theorem writeEvents_add [Cell β] (c : Card β) (pass : Pass β)
    (m n block : Nat) :
    c.writeEvents pass (m + n) block =
      c.writeEvents pass m block ++
        if c.writeLost pass m block then []
        else c.writeEvents pass n (block + m) := by
  induction m generalizing block with
  | zero => simp [writeEvents, writeLost]
  | succ m ih =>
      have hsum : m + 1 + n = m + n + 1 := by omega
      have hnext : block + 1 + m = block + (m + 1) := by omega
      rw [hsum, writeEvents, writeEvents, writeLost]
      by_cases hpending : c.Pending block
      · by_cases hlost : c.storeLost (pass block) = true
        · simp [hpending, hlost]
        · simp [hpending, hlost, ih, hnext]
      · simp [hpending, ih, hnext]

end Card

/-!
## Evaluation
-/

namespace Session

variable {β : Type}

theorem mifareCmd_write (block : Nat) (reply : Reply β) (c : Card β)
    (w : World β) :
    mifareCmd .write block reply ⟨c, w⟩ =
      (.ok reply.ok,
        ⟨c,
          (w.setMem c.uid (block % 256)
            (reply.leaves (w.mem c.uid (block % 256)) c.param)).addLog
            [.frame c.uid (c.frame .write block) reply.ok]⟩) := rfl

theorem writeData_run (a : Answers β) (block : Nat) {c : Card β} {i k : Nat}
    (hsector : c.calculateSector block = (i, k))
    (hmodified : (c.block i k).state = .modified) (w : World β) :
    exists c' : Card β,
      Card.SameFrame c c' ∧ Card.SameBlocks c c' ∧
        writeData a block ⟨c, w⟩ =
          if a.write.ok then
            (.ok true,
              ⟨c', (w.setMem c.uid (block % 256)
                (a.write.leaves (w.mem c.uid (block % 256))
                  (c.block i k).data)).addLog
                [.frame c.uid (Card.writeFrame block (c.block i k).data)
                  a.write.ok]⟩)
          else if a.stays then
            (.ok false,
              ⟨c', (w.setMem c.uid (block % 256)
                (a.write.leaves (w.mem c.uid (block % 256))
                  (c.block i k).data)).addLog
                [.frame c.uid (Card.writeFrame block (c.block i k).data)
                  a.write.ok,
                  .select c.uid true]⟩)
          else
            (.error .exception,
              ⟨c', (w.setMem c.uid (block % 256)
                (a.write.leaves (w.mem c.uid (block % 256))
                  (c.block i k).data)).addLog
                [.frame c.uid (Card.writeFrame block (c.block i k).data)
                  a.write.ok,
                  .select c.uid false, .error "The tag was removed !"]⟩)
    := by
  let c₁ : Card β := c.loadData (c.block i k).data
  have hframe : Card.SameFrame c c₁ := Card.sameFrame_loadData _ _
  have hparam : c₁.param = (c.block i k).data := Bytes.copy_full _ _
  have hcmd : c₁.frame .write block =
      Card.writeFrame block (c.block i k).data := by
    simp only [Card.frame, Card.writeFrame, hparam]
  have huid : c₁.uid = c.uid := hframe.uid
  refine ⟨c₁, hframe, Card.sameBlocks_loadData _ _, ?_⟩
  have hclean : ¬ ((c.block i k).state = .clean ∨
      (c.block i k).state = .dirty) := by
    rw [BlockState.unmodified_iff]
    exact not_not_intro hmodified
  have hbefore : writeData a block ⟨c, w⟩ =
      (do
        let ok ← mifareCmd .write block a.write
        if ok then pure true
        else do
          stillThere a.stays
          pure false : SessionM β Bool) ⟨c₁, w⟩ := by
    simp only [writeData, Prog.bind_apply, getCard_apply, hsector,
      if_neg hclean, modifyCard_apply]
    rfl
  rw [hbefore]
  by_cases hok : a.write.ok
  · simp [Prog.bind_apply, mifareCmd_write, hok, hparam, hcmd, huid]
  · by_cases hstays : a.stays
    · simp [Prog.bind_apply, mifareCmd_write, hok, hstays, hparam, hcmd,
        huid, stillThere_apply]
    · simp [Prog.bind_apply, mifareCmd_write, hok, hstays, hparam, hcmd,
        huid, stillThere_apply]

variable [Cell β]

theorem storeBlock_at (a : Answers β) (block : Nat) {c : Card β} {i k : Nat}
    (hsector : c.calculateSector block = (i, k))
    (hmodified : (c.block i k).state = .modified) (w : World β) :
    exists c' : Card β,
      Card.SameFrame c c' ∧ Card.SameBlocks c c' ∧
        storeBlock a block ⟨c, w⟩ =
          (if c.storeLost a then .error .exception else .ok (),
            ⟨c', (w.setMem c.uid (block % 256)
              (c.leaves a (w.mem c.uid (block % 256))
                (c.block i k).data)).addLog
              (c.storeEvents a block (c.block i k).data)⟩) := by
  rcases authenticate_run a block c w with ⟨c₁, hframe, hblocks, hauth⟩
  cases hresult : c.authResult a with
  | gone =>
      refine ⟨c₁, hframe, hblocks, ?_⟩
      simp [storeBlock, Prog.bind_apply, hauth, hresult, AuthResult.outcome,
        Card.storeLost, Card.storeEvents, Card.leaves]
  | refused =>
      refine ⟨c₁, hframe, hblocks, ?_⟩
      simp [storeBlock, Prog.bind_apply, hauth, hresult, AuthResult.outcome,
        Card.storeLost, Card.storeEvents, Card.leaves]
  | accepted =>
      have hmodified₁ : (c₁.block i k).state = .modified := by
        rw [hblocks, hmodified]
      rcases writeData_run a block
          ((hframe.calculateSector block).trans hsector) hmodified₁
          (w.addLog (c.authEvents a block)) with
        ⟨c₂, hframe₂, hblocks₂, hrun⟩
      rw [hframe.uid, hblocks, World.addLog_mem] at hrun
      refine ⟨c₂, hframe.trans hframe₂, hblocks.trans hblocks₂, ?_⟩
      by_cases hok : a.write.ok
      · simp [storeBlock, Prog.bind_apply, hauth, hresult, hrun, hok,
          AuthResult.outcome, Card.storeLost, Card.storeEvents, Card.leaves]
      · by_cases hstays : a.stays
        · simp [storeBlock, Prog.bind_apply, hauth, hresult, hrun, hok,
            hstays, AuthResult.outcome, Card.storeLost, Card.storeEvents,
            Card.leaves, printError, onWorld_emit]
        · simp [storeBlock, Prog.bind_apply, hauth, hresult, hrun, hok,
            hstays, AuthResult.outcome, Card.storeLost, Card.storeEvents,
            Card.leaves]

theorem storeBlock_run (pass : Pass β) (block : Nat) {c : Card β}
    (hc : c.Classic) (hblock : block < 64) (hpending : c.Pending block)
    (w : World β) :
    exists (c' : Card β) (mem' : Uid -> Nat -> Bytes β 16),
      Card.SameFrame c c' ∧ Card.SameBlocks c c' ∧
        Card.Flushed c pass w.mem mem' block (block + 1) ∧
        storeBlock (pass block) block ⟨c, w⟩ =
          (if c.storeLost (pass block) then .error .exception else .ok (),
            ⟨c', (w.withMem mem').addLog
              (c.storeEvents (pass block) block
                (c.blockAt block).data)⟩) := by
  have hmod : block % 256 = block := Nat.mod_eq_of_lt (by omega)
  rcases storeBlock_at (pass block) block (hc.calculateSector hblock)
      hpending w with
    ⟨c', hframe, hblocks, hrun⟩
  rw [hmod] at hrun
  refine ⟨c', (w.setMem c.uid block (c.leaves (pass block)
    (w.mem c.uid block) (c.blockAt block).data)).mem, hframe, hblocks, ?_,
    hrun⟩
  constructor
  · intro a hall
    rcases hall with ⟨hle, hlt, _, _⟩
    have ha : a = block := by omega
    rw [World.setMem_mem, if_pos ⟨rfl, ha⟩, ha]
  · intro u a hnot
    rw [World.setMem_mem, if_neg]
    intro hall
    rcases hall with ⟨hu, ha⟩
    refine hnot ⟨hu, by omega, by omega, ha ▸ hpending, ?_⟩
    intro b hb hlt
    omega

theorem writeBlocks_succ (pass : Pass β) (s n k block : Nat) (c : Card β)
    (w : World β) :
    writeBlocks pass s (n + 1) k block ⟨c, w⟩ =
      if (c.block s k).state = .modified then
        (do
          storeBlock (pass block) block
          writeBlocks pass s n (k + 1) (block + 1) : SessionM β Unit) ⟨c, w⟩
      else writeBlocks pass s n (k + 1) (block + 1) ⟨c, w⟩ := by
  rw [writeBlocks, Prog.bind_of_ok _ (getCard_apply c w)]
  by_cases hmodified : (c.block s k).state = .modified
  · rw [if_pos hmodified, if_neg]
    rw [BlockState.unmodified_iff]
    exact not_not_intro hmodified
  · rw [if_neg hmodified, if_pos (BlockState.unmodified_iff.mpr hmodified)]

theorem writeBlocks_run (pass : Pass β) {s : Nat} (hs : s < 16)
    (n k : Nat) {c : Card β} (hc : c.Classic) (hk : k + n ≤ 4)
    (w : World β) :
    exists (c' : Card β) (mem' : Uid -> Nat -> Bytes β 16),
      Card.SameFrame c c' ∧ Card.SameBlocks c c' ∧
        Card.Flushed c pass w.mem mem' (4 * s + k) (4 * s + k + n) ∧
        writeBlocks pass s n k (4 * s + k) ⟨c, w⟩ =
          (if c.writeLost pass n (4 * s + k) then .error .exception
            else .ok (),
            ⟨c', (w.withMem mem').addLog
              (c.writeEvents pass n (4 * s + k))⟩) := by
  induction n generalizing k c w with
  | zero =>
      exact ⟨c, w.mem, Card.SameFrame.refl c, fun _ _ => rfl,
        Card.flushed_refl c pass w.mem _, by
          simp [writeBlocks, Card.writeLost, Card.writeEvents]⟩
  | succ n ih =>
      have haddress : c.blockAt (4 * s + k) = c.block s k :=
        c.blockAt_address s (by omega)
      have hnext : 4 * s + k + 1 = 4 * s + (k + 1) := by omega
      have hrange : 4 * s + (k + 1) + n = 4 * s + k + (n + 1) := by omega
      have hround := writeBlocks_succ pass s n k (4 * s + k) c w
      rw [← haddress] at hround
      by_cases hpending : c.Pending (4 * s + k)
      · rw [hround.trans (if_pos hpending)]
        rcases storeBlock_run pass (4 * s + k) hc (by omega) hpending w with
          ⟨c₁, mem₁, hframe, hblocks, hflushed, hstore⟩
        by_cases hlost : c.storeLost (pass (4 * s + k)) = true
        · refine ⟨c₁, mem₁, hframe, hblocks,
            hflushed.of_lost (Nat.le_refl _) (by omega) (by omega) hpending
              hlost, ?_⟩
          simp [Prog.bind_apply, hstore, hlost, hpending, Card.writeLost,
            Card.writeEvents]
        · rcases ih (k + 1) (hc.of_sameFrame hframe) (by omega)
              ((w.withMem mem₁).addLog
                (c.storeEvents (pass (4 * s + k)) (4 * s + k)
                  (c.blockAt (4 * s + k)).data)) with
            ⟨c₂, mem₂, hframe₂, hblocks₂, hflushed₂, hrun⟩
          rw [hrange] at hflushed₂
          refine ⟨c₂, mem₂, hframe.trans hframe₂, hblocks.trans hblocks₂,
            ?_, ?_⟩
          · apply hflushed.append hframe hblocks (by omega) (by omega) ?_
              (by simpa [hnext] using hflushed₂)
            intro b hb hlt _
            have hbb : b = 4 * s + k := by omega
            simpa [hbb] using hlost
          · simp [Prog.bind_apply, hstore, hlost, hpending, hrun, hnext,
              Card.writeLost,
              Card.writeEvents, Card.writeLost_congr hframe hblocks,
              Card.writeEvents_congr hframe hblocks]
      · rw [hround.trans (if_neg hpending)]
        rcases ih (k + 1) hc (by omega) w with
          ⟨c₂, mem₂, hframe₂, hblocks₂, hflushed₂, hrun⟩
        rw [hrange] at hflushed₂
        refine ⟨c₂, mem₂, hframe₂, hblocks₂,
          Card.flushed_skip hpending (by omega) hflushed₂, ?_⟩
        simp [hpending, hrun, hnext, Card.writeLost, Card.writeEvents]

/-- `writeSector` throws when the tag was lost and returns true otherwise. -/
theorem writeSector_run (pass : Pass β) {s : Nat} (hs : s < 16) {c : Card β}
    (hc : c.Classic) (w : World β) :
    exists (c' : Card β) (mem' : Uid -> Nat -> Bytes β 16),
      Card.SameFrame c c' ∧ Card.SameBlocks c c' ∧
        Card.Flushed c pass w.mem mem' (4 * s) (4 * s + 4) ∧
        writeSector pass s ⟨c, w⟩ =
          (if c.writeLost pass 4 (4 * s) then .error .exception else .ok true,
            ⟨c', (w.withMem mem').addLog
              (c.writeEvents pass 4 (4 * s))⟩) := by
  rcases writeBlocks_run pass hs 4 0 hc (by omega) w with
    ⟨c', mem', hframe, hblocks, hflushed, hrun⟩
  refine ⟨c', mem', hframe, hblocks, hflushed, ?_⟩
  simp only [Nat.add_zero] at hrun
  by_cases hlost : c.writeLost pass 4 (4 * s)
  · simp [writeSector, writeMifareClassic, Prog.bind_apply, getCard_apply,
      hc.size s hs, hc.firstBlock hs, hrun, hlost]
  · simp [writeSector, writeMifareClassic, Prog.bind_apply, getCard_apply,
      hc.size s hs, hc.firstBlock hs, hrun, hlost]

theorem writeSectors_run (pass : Pass β) (n i : Nat) {c : Card β}
    (hc : c.Classic) (hi : i + n ≤ 16) (w : World β) :
    exists (c' : Card β) (mem' : Uid -> Nat -> Bytes β 16),
      Card.SameFrame c c' ∧ Card.SameBlocks c c' ∧
        Card.Flushed c pass w.mem mem' (4 * i) (4 * i + 4 * n) ∧
        writeSectors pass n i ⟨c, w⟩ =
          (if c.writeLost pass (4 * n) (4 * i) then .error .exception
            else .ok true,
            ⟨c', (w.withMem mem').addLog
              (c.writeEvents pass (4 * n) (4 * i))⟩) := by
  induction n generalizing i c w with
  | zero =>
      exact ⟨c, w.mem, Card.SameFrame.refl c, fun _ _ => rfl,
        Card.flushed_refl c pass w.mem _, by
          simp [writeSectors, Card.writeLost, Card.writeEvents]⟩
  | succ n ih =>
      have hcount : 4 * (n + 1) = 4 + 4 * n := by omega
      rcases writeSector_run (s := i) pass (by omega) hc w with
        ⟨c₁, mem₁, hframe, hblocks, hflushed, hsector⟩
      by_cases hlost : c.writeLost pass 4 (4 * i) = true
      · rcases (Card.writeLost_iff _ _ _ _).mp hlost with
          ⟨b, hb, hlt, hpending, hresult⟩
        refine ⟨c₁, mem₁, hframe, hblocks,
          hflushed.of_lost hb hlt (by omega) hpending hresult, ?_⟩
        simp [writeSectors, Prog.bind_apply, hsector, hlost, hcount,
          Card.writeLost_add, Card.writeEvents_add]
      · have hkept : c.writeLost pass 4 (4 * i) = false := by
          simpa using hlost
        rcases ih (i + 1) (hc.of_sameFrame hframe) (by omega)
            ((w.withMem mem₁).addLog (c.writeEvents pass 4 (4 * i))) with
          ⟨c₂, mem₂, hframe₂, hblocks₂, hflushed₂, hrun⟩
        have hnext : 4 * (i + 1) = 4 * i + 4 := by omega
        have hrange : 4 * i + 4 + 4 * n = 4 * i + 4 * (n + 1) := by omega
        rw [hnext] at hflushed₂ hrun
        rw [hrange] at hflushed₂
        refine ⟨c₂, mem₂, hframe.trans hframe₂, hblocks.trans hblocks₂,
          hflushed.append hframe hblocks (by omega) (by omega)
            (Card.writeReaches_of_not_lost hkept) hflushed₂, ?_⟩
        simp [writeSectors, Prog.bind_apply, hsector, hlost, hrun, hcount,
          Card.writeLost_add, Card.writeEvents_add,
          Card.writeLost_congr hframe hblocks,
          Card.writeEvents_congr hframe hblocks]

theorem writeAllCard_run (pass : Pass β) {c : Card β} (hc : c.Classic)
    (w : World β) :
    exists (c' : Card β) (mem' : Uid -> Nat -> Bytes β 16),
      Card.SameFrame c c' ∧ Card.SameBlocks c c' ∧
        Card.Flushed c pass w.mem mem' 0 64 ∧
        writeAllCard pass ⟨c, w⟩ =
          (if c.writeLost pass 64 0 then .error .exception else .ok true,
            ⟨c', (w.withMem mem').addLog (c.writeEvents pass 64 0)⟩) := by
  rcases writeSectors_run pass 16 0 hc (by omega) w with
    ⟨c', mem', hframe, hblocks, hflushed, hrun⟩
  refine ⟨c', mem', hframe, hblocks, hflushed, ?_⟩
  rw [writeAllCard, Prog.bind_of_ok _ (getCard_apply c w), hc.count]
  exact hrun

end Session

end BeeGadz
