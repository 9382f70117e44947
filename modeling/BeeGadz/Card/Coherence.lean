import BeeGadz.Card.Exchange

/-!
# Cache coherence

The cached blocks against the physical memory, for every sequence of calls on a
card and every sequence of answers.  A call that throws leaves the card as it is
at that moment, and the next call goes on from there.
-/

namespace BeeGadz

open Foundation

/-!
## Sequences of calls
-/

/-- A call on a card, or an assignment through `card[s][k]`. -/
inductive Call (β : Type) where
  | readSector (pass : Pass β) (s : Fin 16)
  | readAllCard (pass : Pass β)
  | writeSector (pass : Pass β) (s : Fin 16)
  | writeAllCard (pass : Pass β)
  | edit (s : Fin 16) (k : Fin 4) (b : Block β)

namespace Call

variable {β : Type} [Cell β]

def run : Call β -> SessionM β Bool
  | .readSector pass s => Session.readSector pass s
  | .readAllCard pass => Session.readAllCard pass
  | .writeSector pass s => Session.writeSector pass s
  | .writeAllCard pass => Session.writeAllCard pass
  | .edit s k b => do
      Session.modifyCard fun c => c.setBlock s k b
      pure true

def after (call : Call β) (s : Session β) : Session β :=
  (call.run s).2

def afterAll (calls : List (Call β)) (s : Session β) : Session β :=
  calls.foldl (fun s call => call.after s) s

end Call

namespace Session

variable {β : Type}

def since (s s' : Session β) : List (Event β) :=
  s.world.since s'.world

/-!
## Coherence of a call
-/

/-- A read of the addresses from `start` to before `stop` replaces exactly the
blocks whose bytes were received, each after an authentication and an accepted
`MC_READ` of its address, and keeps all others. -/
structure ReadCoherent (start stop : Nat) (s s' : Session β) : Prop where
  exchanged : forall a data,
    .received s.card.uid a data ∈ s.since s' ->
      start ≤ a ∧ a < stop ∧
        Card.ReadExchange s.card.uid a data (s.since s')
  loaded : forall a data,
    .received s.card.uid a data ∈ s.since s' ->
      s'.card.blockAt a = { data := data, state := .clean }
  kept : forall i k,
    ¬ (k < 4 ∧ exists data,
        .received s.card.uid (4 * i + k) data ∈ s.since s') ->
      s'.card.block i k = s.card.block i k
  silent : sentWrites (s.since s') = []

/-- A write of the addresses from `start` to before `stop` sends the cached
bytes of modified blocks, at most once each and in increasing order, each
directly after an authentication of its address, and changes no cached
block. -/
structure WriteCoherent (start stop : Nat) (s s' : Session β) : Prop where
  sent : exists as : List Nat,
    as.Sublist (List.range' start (stop - start)) ∧
      (forall a, a ∈ as -> (s.card.blockAt a).state = .modified) ∧
      (sentWrites (s.since s')).map
          (fun x => (x.1, x.2.1.block, x.2.1.param)) =
        as.map fun a => (s.card.uid, a, List.ofFn (s.card.blockAt a).data)
  guarded : WritesGuarded (s.since s')
  cached : forall i k, s'.card.block i k = s.card.block i k

end Session

/-- What a call does to the cached blocks and sends to the reader. -/
def Call.Coherent {β : Type} (call : Call β) (s s' : Session β) : Prop :=
  match call with
  | .readSector _ i => s.ReadCoherent (4 * i) (4 * i + 4) s'
  | .readAllCard _ => s.ReadCoherent 0 64 s'
  | .writeSector _ i => s.WriteCoherent (4 * i) (4 * i + 4) s'
  | .writeAllCard _ => s.WriteCoherent 0 64 s'
  | .edit i k b =>
      s'.card.block i k = b ∧
        (forall j l : Nat, ¬ (j = i.val ∧ l = k.val) ->
          s'.card.block j l = s.card.block j l) ∧
        s.since s' = []

namespace Session

variable {β : Type} [Cell β]

theorem readCoherent_of_refreshed {c c' : Card β} {pass : Pass β}
    {w : World β} (n start : Nat) (hn : start + n ≤ 64)
    (h : Card.Refreshed c c' pass (w.mem c.uid) start (start + n)) :
    (⟨c, w⟩ : Session β).ReadCoherent start (start + n)
      ⟨c', w.addLog (c.readEvents pass (w.mem c.uid) n start)⟩ := by
  have hsince : (⟨c, w⟩ : Session β).since
      ⟨c', w.addLog (c.readEvents pass (w.mem c.uid) n start)⟩ =
        c.readEvents pass (w.mem c.uid) n start :=
    World.since_addLog w w _ rfl
  constructor
  · intro a data hmem
    rw [hsince] at hmem ⊢
    rcases (Card.received_mem_readEvents (by omega)).mp hmem with
      ⟨_, rfl, hloads⟩
    exact ⟨hloads.left, hloads.right.left,
      Card.readExchange_readEvents (by omega) hloads⟩
  · intro a data hmem
    rw [hsince] at hmem
    rcases (Card.received_mem_readEvents (by omega)).mp hmem with
      ⟨_, rfl, hloads⟩
    have ha : 4 * (a / 4) + a % 4 = a := Nat.div_add_mod a 4
    have hloaded := h.loaded (a / 4) (a % 4) (by omega) (ha.symm ▸ hloads)
    rw [ha] at hloaded
    exact hloaded
  · intro i k hnot
    rw [hsince] at hnot
    apply h.kept
    intro hall
    rcases hall with ⟨hk, hloads⟩
    exact hnot ⟨hk, _, (Card.received_mem_readEvents (by omega)).mpr
      ⟨rfl, rfl, hloads⟩⟩
  · rw [hsince]
    exact Card.sentWrites_readEvents _ _ _ _ _

theorem writeCoherent_of_sameBlocks {c c' : Card β} {pass : Pass β}
    {w : World β} {mem' : Uid -> Nat -> Bytes β 16} (n start : Nat)
    (hn : start + n ≤ 64) (h : Card.SameBlocks c c') :
    (⟨c, w⟩ : Session β).WriteCoherent start (start + n)
      ⟨c', (w.withMem mem').addLog (c.writeEvents pass n start)⟩ := by
  have hsince : (⟨c, w⟩ : Session β).since
      ⟨c', (w.withMem mem').addLog (c.writeEvents pass n start)⟩ =
        c.writeEvents pass n start :=
    World.since_addLog w _ _ rfl
  constructor
  · rcases c.sentWrites_writeEvents pass n start with
      ⟨as, hsub, hpending, hsent⟩
    refine ⟨as, by simpa using hsub, hpending, ?_⟩
    rw [hsince, hsent, List.map_map]
    apply List.map_congr_left
    intro a ha
    have hrange : a < start + n := by
      have hmem := hsub.subset ha
      rw [List.mem_range'_1] at hmem
      exact hmem.right
    simp [Card.writeFrame, Nat.mod_eq_of_lt (show a < 256 by omega)]
  · rw [hsince]
    exact Card.writesGuarded_writeEvents _ _ _ _
  · exact h

theorem sameFrame_after (call : Call β) {c : Card β} (hc : c.Classic)
    (w : World β) : Card.SameFrame c (call.after ⟨c, w⟩).card := by
  cases call with
  | readSector pass i =>
      rcases readSector_run pass i.isLt hc w with ⟨c', hframe, _, hrun⟩
      simp only [Call.after, Call.run, hrun]
      exact hframe
  | readAllCard pass =>
      rcases readAllCard_run pass hc w with ⟨c', hframe, _, hrun⟩
      simp only [Call.after, Call.run, hrun]
      exact hframe
  | writeSector pass i =>
      rcases writeSector_run pass i.isLt hc w with
        ⟨c', mem', hframe, _, _, hrun⟩
      simp only [Call.after, Call.run, hrun]
      exact hframe
  | writeAllCard pass =>
      rcases writeAllCard_run pass hc w with ⟨c', mem', hframe, _, _, hrun⟩
      simp only [Call.after, Call.run, hrun]
      exact hframe
  | edit i k b => exact Card.sameFrame_setBlock c i k b

theorem coherent_after (call : Call β) {c : Card β} (hc : c.Classic)
    (w : World β) :
    call.Coherent ⟨c, w⟩ (call.after ⟨c, w⟩) ∧
      (call.after ⟨c, w⟩).card.Classic := by
  refine ⟨?_, hc.of_sameFrame (sameFrame_after call hc w)⟩
  cases call with
  | readSector pass i =>
      rcases readSector_run pass i.isLt hc w with
        ⟨c', hframe, hrefreshed, hrun⟩
      simp only [Call.after, Call.run, Call.Coherent, hrun]
      exact readCoherent_of_refreshed 4 (4 * i) (by omega) hrefreshed
  | readAllCard pass =>
      rcases readAllCard_run pass hc w with ⟨c', hframe, hrefreshed, hrun⟩
      simp only [Call.after, Call.run, Call.Coherent, hrun]
      exact readCoherent_of_refreshed 64 0 (by omega) hrefreshed
  | writeSector pass i =>
      rcases writeSector_run pass i.isLt hc w with
        ⟨c', mem', hframe, hblocks, _, hrun⟩
      simp only [Call.after, Call.run, Call.Coherent, hrun]
      exact writeCoherent_of_sameBlocks 4 (4 * i) (by omega) hblocks
  | writeAllCard pass =>
      rcases writeAllCard_run pass hc w with
        ⟨c', mem', hframe, hblocks, _, hrun⟩
      simp only [Call.after, Call.run, Call.Coherent, hrun]
      exact writeCoherent_of_sameBlocks 64 0 (by omega) hblocks
  | edit i k b =>
      simp only [Call.after, Call.run, Call.Coherent, Prog.bind_apply,
        modifyCard_apply, Prog.pure_apply]
      refine ⟨?_, ?_, ?_⟩
      · simp [Card.setBlock_block]
      · intro j l hne
        rw [Card.setBlock_block, if_neg hne]
      · simp [since, World.since]

theorem classic_afterAll (calls : List (Call β)) {s : Session β}
    (hc : s.card.Classic) : (Call.afterAll calls s).card.Classic := by
  induction calls generalizing s with
  | nil => exact hc
  | cons call calls ih => exact ih (coherent_after call hc s.world).right

/-!
## A reader that accepts everything
-/

def accepts : Pass β :=
  fun _ => Answers.accepting

end Session

namespace Card

variable {β : Type}

theorem authResult_accepting (c : Card β) :
    c.authResult Answers.accepting = .accepted := by
  unfold authResult
  cases c.rounds <;> rfl

theorem readResult_accepting (c : Card β) :
    c.readResult Answers.accepting = .loaded := by
  rw [readResult, authResult_accepting]
  rfl

theorem storeLost_accepting (c : Card β) :
    c.storeLost Answers.accepting = false := by
  rw [storeLost, authResult_accepting]
  rfl

theorem stores_accepting (c : Card β) : c.Stores Answers.accepting :=
  ⟨c.authResult_accepting, rfl⟩

theorem leaves_accepting (c : Card β) (old data : Bytes β 16) :
    c.leaves Answers.accepting old data = data := by
  rw [leaves, authResult_accepting]
  rfl

theorem readLost_accepts (c : Card β) (n start : Nat) :
    c.readLost Session.accepts n start = false := by
  induction n generalizing start with
  | zero => rfl
  | succ n ih =>
      simp [readLost, ih, Session.accepts, readResult_accepting]

theorem writeLost_accepts (c : Card β) (n start : Nat) :
    c.writeLost Session.accepts n start = false := by
  induction n generalizing start with
  | zero => rfl
  | succ n ih =>
      simp [writeLost, ih, Session.accepts, storeLost_accepting]

theorem loads_accepts (c : Card β) (start stop a : Nat) :
    c.Loads Session.accepts start stop a <-> start ≤ a ∧ a < stop := by
  simp [Loads, ReadReaches, Session.accepts, readResult_accepting]

theorem writes_accepts (c : Card β) (start stop a : Nat) :
    c.Writes Session.accepts start stop a <->
      start ≤ a ∧ a < stop ∧ c.Pending a := by
  simp [Writes, WriteReaches, Session.accepts, storeLost_accepting]

end Card

namespace Session

variable {β : Type}

/-- Every block of the card is clean and equal to the physical one. -/
def CachesMemory (s : Session β) : Prop :=
  forall a, a < 64 ->
    s.card.blockAt a = ⟨s.world.mem s.card.uid a, .clean⟩

/-- The physical card holds what the modified blocks of the cache hold and is
otherwise as it was. -/
def StoresModified (s s' : Session β) : Prop :=
  (forall a, a < 64 -> (s.card.blockAt a).state = .modified ->
    s'.world.mem s.card.uid a = (s.card.blockAt a).data) ∧
  forall u a, ¬ (u = s.card.uid ∧ a < 64 ∧
      (s.card.blockAt a).state = .modified) ->
    s'.world.mem u a = s.world.mem u a

variable [Cell β]

theorem readAllCard_accepts {c : Card β} (hc : c.Classic) (w : World β) :
    (readAllCard accepts ⟨c, w⟩).1 = .ok true ∧
      (readAllCard accepts ⟨c, w⟩).2.CachesMemory := by
  rcases readAllCard_run accepts hc w with ⟨c', hframe, hrefreshed, hrun⟩
  rw [hrun, Card.readLost_accepts]
  refine ⟨rfl, ?_⟩
  intro a ha
  have haddress : 4 * (a / 4) + a % 4 = a := Nat.div_add_mod a 4
  have hloaded := hrefreshed.loaded (a / 4) (a % 4) (by omega)
    ((c.loads_accepts _ _ _).mpr (by omega))
  rw [haddress, ← hframe.uid] at hloaded
  exact hloaded

theorem writeAllCard_accepts {c : Card β} (hc : c.Classic) (w : World β) :
    (writeAllCard accepts ⟨c, w⟩).1 = .ok true ∧
      (⟨c, w⟩ : Session β).StoresModified
        (writeAllCard accepts ⟨c, w⟩).2 := by
  rcases writeAllCard_run accepts hc w with
    ⟨c', mem', hframe, hblocks, hflushed, hrun⟩
  rw [hrun, Card.writeLost_accepts]
  refine ⟨rfl, ?_, ?_⟩
  · intro a ha hstate
    have hwritten := hflushed.written a
      ((c.writes_accepts _ _ _).mpr ⟨Nat.zero_le a, ha, hstate⟩)
    rw [accepts, Card.leaves_accepting] at hwritten
    exact hwritten
  · intro u a hnot
    apply hflushed.kept
    intro hall
    rcases hall with ⟨hu, hwrites⟩
    rcases (c.writes_accepts _ _ _).mp hwrites with ⟨_, ha, hstate⟩
    exact hnot ⟨hu, ha, hstate⟩

/-- Every call of every sequence on a classic card is coherent, and with a
reader that accepts everything reading the whole card makes the cache equal to
the memory and writing it makes the memory equal to the modified blocks. -/
theorem calls_coherent {c : Card β} (hc : c.Classic) (w : World β)
    (calls : List (Call β)) (call : Call β) :
    let s := Call.afterAll calls ⟨c, w⟩
    call.Coherent s (call.after s) ∧
      (readAllCard accepts s).1 = .ok true ∧
      (readAllCard accepts s).2.CachesMemory ∧
      (writeAllCard accepts s).1 = .ok true ∧
      s.StoresModified (writeAllCard accepts s).2 := by
  intro s
  have hs : s.card.Classic := classic_afterAll calls hc
  have hread := readAllCard_accepts hs s.world
  have hwrite := writeAllCard_accepts hs s.world
  exact ⟨(coherent_after call hs s.world).left, hread.left, hread.right,
    hwrite.left, hwrite.right⟩

/-- On a card as its constructor builds it, an edit of block 4 reaches the
physical card. -/
theorem fresh_calls_coherent :
    let c : Card UInt8 := Card.fresh ⟨fun _ => 1, 0x4⟩ (Vec.replicate 1 0xff)
    let s := Call.afterAll [.edit 1 0 ⟨fun _ => 7, .modified⟩]
      ⟨c, World.start (fun _ _ _ => 0) .bar⟩
    (writeAllCard accepts s).2.world.mem s.card.uid 4 = fun _ => 7 := by
  intro c s
  have hc : c.Classic := Card.classic_fresh _ _
  have hstore : s.StoresModified (writeAllCard accepts s).2 :=
    (calls_coherent hc (World.start (fun _ _ _ => 0) .bar)
      [.edit 1 0 ⟨fun _ => 7, .modified⟩]
      (.writeAllCard accepts)).right.right.right.right
  have hblock : s.card.blockAt 4 = ⟨fun _ => 7, .modified⟩ := by
    simp [s, Call.afterAll, Call.after, Call.run, Prog.bind_apply,
      modifyCard_apply, Card.blockAt, Card.setBlock_block]
  have hwritten := hstore.left 4 (by decide) (by rw [hblock])
  rw [hblock] at hwritten
  exact hwritten

end Session

end BeeGadz
