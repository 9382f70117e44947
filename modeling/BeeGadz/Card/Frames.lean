import BeeGadz.Card.Operation
import BeeGadz.Foundation.Guarded

/-!
# The frames of a card

The parameters of all commands share one union, and every operation refreshes
only some of its bytes.  Whatever was done with the card before, a frame holds
exactly the bytes of its own command.
-/

namespace BeeGadz

open Foundation

/-!
## Bytes
-/

/-- The enumerators of `mifare_cmd`. -/
def MifareCmd.opcode : MifareCmd -> UInt8
  | .authA => 0x60
  | .authB => 0x61
  | .read => 0x30
  | .write => 0xA0

/-- `abtCmd` as it is transmitted. -/
def Frame.bytes {β : Type} [Cell β] (f : Frame β) : List β :=
  Cell.ofByte f.cmd.opcode :: Cell.ofByte (UInt8.ofNat f.block) :: f.param

namespace Card

variable {β : Type} [Cell β]

def authCmd (c : Card β) (a : Nat) : MifareCmd :=
  if (c.data.get (c.calculateSector a).1).keyB then .authB else .authA

def authBytes (c : Card β) (a i : Nat) : List β :=
  ([(c.authCmd a).opcode, UInt8.ofNat a] ++ List.ofFn (c.keyAt i) ++
    List.ofFn c.uid).map Cell.ofByte

def writeBytes (c : Card β) (a : Nat) : List β :=
  [Cell.ofByte MifareCmd.write.opcode, Cell.ofByte (UInt8.ofNat a)] ++
    List.ofFn
      (c.block (c.calculateSector a).1 (c.calculateSector a).2).data

def readBytes (a : Nat) : List β :=
  [Cell.ofByte MifareCmd.read.opcode, Cell.ofByte (UInt8.ofNat a)]

theorem authBytes_length (c : Card β) (a i : Nat) :
    (c.authBytes a i).length = 12 := by
  simp [authBytes]

theorem writeBytes_length (c : Card β) (a : Nat) :
    (c.writeBytes a).length = 18 := by
  simp [writeBytes]

theorem readBytes_length (a : Nat) :
    (readBytes a : List β).length = 2 := rfl

/-- What a frame for an address must be after the events before it.  The key of
an authentication is the one that was taken directly before. -/
inductive Exact (c : Card β) (a : Nat) (before : List (Event β))
    (f : Frame β) : Prop where
  | auth (front : List (Event β)) (i : Nat)
      (htried : before = front ++ [.key i])
      (hcmd : f.cmd = c.authCmd a) (hbytes : f.bytes = c.authBytes a i)
  | write (hcmd : f.cmd = .write) (hbytes : f.bytes = c.writeBytes a)
  | read (hcmd : f.cmd = .read) (hbytes : f.bytes = readBytes a)

theorem Exact.grow {c : Card β} {a : Nat} {before : List (Event β)}
    {f : Frame β} (h : c.Exact a before f) (front : List (Event β)) :
    c.Exact a (front ++ before) f := by
  cases h with
  | auth early i htried hcmd hbytes =>
      exact .auth (front ++ early) i (by simp [htried]) hcmd hbytes
  | write hcmd hbytes => exact .write hcmd hbytes
  | read hcmd hbytes => exact .read hcmd hbytes

/-- A frame among events is one for the card and for an address from `start` to
before `stop`. -/
def FrameExact (c : Card β) (start stop : Nat) (before : List (Event β))
    (e : Event β) : Prop :=
  forall uid f ok, e = .frame uid f ok ->
    uid = c.uid ∧ exists a, start ≤ a ∧ a < stop ∧ c.Exact a before f

abbrev FramesExact (c : Card β) (start stop : Nat)
    (events : List (Event β)) : Prop :=
  Guarded (c.FrameExact start stop) events

section Lists

variable {c : Card β} {start stop : Nat}

theorem FrameExact.grow (front before : List (Event β)) (e : Event β)
    (h : c.FrameExact start stop before e) :
    c.FrameExact start stop (front ++ before) e := by
  intro uid f ok he
  rcases h uid f ok he with ⟨huid, a, hstart, hstop, hexact⟩
  exact ⟨huid, a, hstart, hstop, hexact.grow front⟩

theorem FramesExact.append {l m : List (Event β)}
    (hl : c.FramesExact start stop l) (hm : c.FramesExact start stop m) :
    c.FramesExact start stop (l ++ m) :=
  guarded_append FrameExact.grow hl hm

/-- Events that are no frames do not matter. -/
theorem framesExact_quiet {l : List (Event β)}
    (h : forall e, e ∈ l -> forall uid f ok, e ≠ .frame uid f ok) :
    c.FramesExact start stop l := by
  apply guarded_of_forall
  intro e he before uid f ok hframe
  exact absurd hframe (h e he uid f ok)

theorem FramesExact.frame {a : Nat} {f : Frame β} {ok : Bool}
    {l : List (Event β)} (hstart : start ≤ a) (hstop : a < stop)
    (hf : c.Exact a [] f) (hl : c.FramesExact start stop l) :
    c.FramesExact start stop (.frame c.uid f ok :: l) := by
  apply guarded_cons_of_growing FrameExact.grow ?_ hl
  intro uid g ok' h
  cases h
  exact ⟨rfl, a, hstart, hstop, hf⟩

/-!
## Authentications
-/

theorem ofNat_mod_bytes (a : Nat) :
    UInt8.ofNat (a % 256) = UInt8.ofNat a := by
  apply UInt8.toNat_inj.mp
  simp

theorem bytes_authFrame (c : Card β) (a j : Nat) :
    (c.authFrame a j).bytes = c.authBytes a (6 * j) := by
  simp [Frame.bytes, authFrame, authBytes, authCmd, ofNat_mod_bytes]

theorem framesExact_authRound (a : Answers β) {block j : Nat}
    {rest : List (Event β)} (hstart : start ≤ block) (hstop : block < stop)
    (hrest : c.FramesExact start stop rest) :
    c.FramesExact start stop (c.authRound a block j rest) := by
  have hpair : forall l : List (Event β), c.FramesExact start stop l ->
      c.FramesExact start stop
        (.key (6 * j) :: .frame c.uid (c.authFrame block j) (a.auth j).ok ::
          l) := by
    intro l hl
    have hboth : c.FramesExact start stop
        [.key (6 * j),
          .frame c.uid (c.authFrame block j) (a.auth j).ok] := by
      apply guarded_cons
      · intro uid f ok h
        cases h
      · apply guarded_cons
        · intro uid f ok h
          cases h
          exact ⟨rfl, block, hstart, hstop,
            .auth [] (6 * j) rfl rfl (c.bytes_authFrame block j)⟩
        · exact guarded_nil _
    exact hboth.append hl
  unfold authRound
  apply hpair
  split
  · exact guarded_nil _
  · split
    · exact FramesExact.append (l := [.select c.uid true])
        (framesExact_quiet (by simp)) hrest
    · exact framesExact_quiet (by simp)

theorem framesExact_authRounds (a : Answers β) {block more j : Nat}
    (hstart : start ≤ block) (hstop : block < stop) :
    c.FramesExact start stop (c.authRounds a block more j) := by
  induction more generalizing j with
  | zero =>
      exact framesExact_authRound a hstart hstop
        (framesExact_quiet (by simp))
  | succ more ih => exact framesExact_authRound a hstart hstop ih

theorem framesExact_authEvents (a : Answers β) {block : Nat}
    (hstart : start ≤ block) (hstop : block < stop) :
    c.FramesExact start stop (c.authEvents a block) :=
  framesExact_authRounds a hstart hstop

/-!
## Reads and writes
-/

theorem exact_readFrame (c : Card β) (a : Nat) (before : List (Event β)) :
    c.Exact a before (c.frame .read a) :=
  .read rfl (by simp [Frame.bytes, frame, readBytes, ofNat_mod_bytes])

theorem exact_writeFrame (c : Card β) (a : Nat) (before : List (Event β)) :
    c.Exact a before
      (writeFrame a
        (c.block (c.calculateSector a).1 (c.calculateSector a).2).data) :=
  .write rfl (by simp [Frame.bytes, writeFrame, writeBytes, ofNat_mod_bytes])

theorem framesExact_loadEvents (a : Answers β) {block : Nat}
    (data : Bytes β 16) (hstart : start ≤ block) (hstop : block < stop) :
    c.FramesExact start stop (c.loadEvents a block data) := by
  apply FramesExact.append (framesExact_authEvents a hstart hstop)
  split
  · exact guarded_nil _
  · exact guarded_nil _
  · apply FramesExact.frame hstart hstop (c.exact_readFrame block [])
    split
    · exact framesExact_quiet (by simp)
    · split
      · exact framesExact_quiet (by simp)
      · exact framesExact_quiet (by simp)

theorem framesExact_readEvents (pass : Pass β) (mem : Nat -> Bytes β 16)
    {n block : Nat} (hstart : start ≤ block) (hstop : block + n ≤ stop) :
    c.FramesExact start stop (c.readEvents pass mem n block) := by
  induction n generalizing block with
  | zero => exact guarded_nil _
  | succ n ih =>
      apply FramesExact.append
        (framesExact_loadEvents _ _ hstart (by omega))
      split
      · exact guarded_nil _
      · exact ih (by omega) (by omega)

theorem framesExact_storeEvents (a : Answers β) {block : Nat}
    (hstart : start ≤ block) (hstop : block < stop) :
    c.FramesExact start stop (c.storeEvents a block
      (c.block (c.calculateSector block).1
        (c.calculateSector block).2).data) := by
  apply FramesExact.append (framesExact_authEvents a hstart hstop)
  split
  · exact guarded_nil _
  · exact guarded_nil _
  · apply FramesExact.frame hstart hstop (c.exact_writeFrame block [])
    split
    · exact guarded_nil _
    · split
      · exact framesExact_quiet (by simp)
      · exact framesExact_quiet (by simp)

theorem framesExact_writeEvents (hc : c.Classic) (pass : Pass β)
    {n block : Nat} (hstart : start ≤ block) (hstop : block + n ≤ stop)
    (hcard : stop ≤ 64) :
    c.FramesExact start stop (c.writeEvents pass n block) := by
  induction n generalizing block with
  | zero => exact guarded_nil _
  | succ n ih =>
      have hblock : c.blockAt block =
          c.block (c.calculateSector block).1
            (c.calculateSector block).2 := by
        rw [hc.calculateSector (by omega)]
        rfl
      rw [writeEvents]
      split
      · apply FramesExact.append
        · rw [hblock]
          exact framesExact_storeEvents _ hstart (by omega)
        · split
          · exact guarded_nil _
          · exact ih (by omega) (by omega)
      · exact ih (by omega) (by omega)

end Lists

end Card

/-!
## Operations
-/

def Call.range {β : Type} : Call β -> Nat × Nat
  | .readSector _ s => (4 * s, 4 * s + 4)
  | .readAllCard _ => (0, 64)
  | .writeSector _ s => (4 * s, 4 * s + 4)
  | .writeAllCard _ => (0, 64)
  | .edit _ _ _ => (0, 0)

namespace Operation

variable {β : Type}

def range : Operation β -> Nat × Nat
  | .call whole => whole.range
  | .authenticate _ block => (block, block + 1)
  | .readData _ block => (block, block + 1)
  | .writeData _ block => (block, block + 1)
  | .useKeyB _ _ => (0, 0)
  | .setTrailer _ _ => (0, 0)
  | .setKey _ _ => (0, 0)
  | .trailer _ _ => (0, 0)

variable [Cell β] {c : Card β}

theorem framesExact_same {start stop : Nat} {s : Session β} {w : World β}
    (h : s.world = w) :
    c.FramesExact start stop (Session.since ⟨c, w⟩ s) := by
  rw [Session.since, h, World.since, List.drop_eq_nil_of_le (Nat.le_refl _)]
  exact guarded_nil _

theorem framesExact_call (call : Call β) (hc : c.Classic) (w : World β) :
    c.FramesExact call.range.1 call.range.2
      (Session.since ⟨c, w⟩ (call.after ⟨c, w⟩)) := by
  cases call with
  | readSector pass s =>
      rcases Session.readSector_run pass s.isLt hc w with ⟨c', _, _, hrun⟩
      simp only [Call.after, Call.run, hrun, Session.since,
        World.since_addLog]
      exact Card.framesExact_readEvents _ _ (Nat.le_refl _) (Nat.le_refl _)
  | readAllCard pass =>
      rcases Session.readAllCard_run pass hc w with ⟨c', _, _, hrun⟩
      simp only [Call.after, Call.run, hrun, Session.since,
        World.since_addLog]
      exact Card.framesExact_readEvents _ _ (Nat.le_refl _) (Nat.le_refl _)
  | writeSector pass s =>
      rcases Session.writeSector_run pass s.isLt hc w with
        ⟨c', mem', _, _, _, hrun⟩
      simp only [Call.after, Call.run, hrun, Session.since]
      rw [World.since_addLog _ _ _ (World.withMem_log w mem')]
      exact Card.framesExact_writeEvents hc _ (Nat.le_refl _)
        (Nat.le_refl _) (by dsimp only [Call.range]; omega)
  | writeAllCard pass =>
      rcases Session.writeAllCard_run pass hc w with
        ⟨c', mem', _, _, _, hrun⟩
      simp only [Call.after, Call.run, hrun, Session.since]
      rw [World.since_addLog _ _ _ (World.withMem_log w mem')]
      exact Card.framesExact_writeEvents hc _ (Nat.le_refl _)
        (Nat.le_refl _) (Nat.le_refl _)
  | edit s k b =>
      have hedit : ((Call.edit s k b).after ⟨c, w⟩).world = w := rfl
      exact framesExact_same hedit

theorem framesExact_block {block : Nat} {f : Frame β} {ok : Bool}
    {rest : List (Event β)} (hf : c.Exact block [] f)
    (hrest : forall e, e ∈ rest -> forall uid f ok, e ≠ .frame uid f ok)
    (c' : Card β) {w w' : World β} (hlog : w'.log = w.log) :
    c.FramesExact block (block + 1)
      (Session.since ⟨c, w⟩
        ⟨c', w'.addLog (.frame c.uid f ok :: rest)⟩) := by
  rw [Session.since, World.since_addLog _ _ _ hlog]
  exact Card.FramesExact.frame (Nat.le_refl _) (Nat.lt_succ_self _) hf
    (Card.framesExact_quiet hrest)

theorem framesExact_readData (ans : Answers β) (block : Fin 64)
    (hc : c.Classic) (w : World β) :
    c.FramesExact block (block + 1)
      (Session.since ⟨c, w⟩ (after (.readData ans block) ⟨c, w⟩)) := by
  have hread := c.exact_readFrame block []
  rcases Session.readData_run ans block (hc.calculateSector block.isLt) w with
    ⟨c', _, _, hrun⟩
  simp only [after, run, hrun]
  split
  · exact framesExact_block hread (by simp) _ rfl
  · split
    · exact framesExact_block hread (by simp) _ rfl
    · exact framesExact_block hread (by simp) _ rfl

theorem framesExact_writeData (ans : Answers β) (block : Fin 64)
    (hc : c.Classic) (w : World β) :
    c.FramesExact block (block + 1)
      (Session.since ⟨c, w⟩ (after (.writeData ans block) ⟨c, w⟩)) := by
  have hsector := hc.calculateSector block.isLt
  have hwrite := c.exact_writeFrame block []
  rw [hsector] at hwrite
  by_cases hmodified : (c.block (block / 4) (block % 4)).state = .modified
  · rcases Session.writeData_run ans block hsector hmodified w with
      ⟨c', _, _, hrun⟩
    simp only [after, run, hrun]
    split
    · exact framesExact_block hwrite (by simp) _ (World.setMem_log ..)
    · split
      · exact framesExact_block hwrite (by simp) _ (World.setMem_log ..)
      · exact framesExact_block hwrite (by simp) _ (World.setMem_log ..)
  · have hskip := Session.writeData_idle ans hsector hmodified w
    simp only [after, run, hskip]
    exact framesExact_same rfl

theorem framesExact_after (op : Operation β) (hc : c.Classic) (w : World β) :
    c.FramesExact op.range.1 op.range.2
      (Session.since ⟨c, w⟩ (op.after ⟨c, w⟩)) := by
  cases op with
  | call whole => exact framesExact_call whole hc w
  | authenticate ans block =>
      rcases Session.authenticate_run ans block c w with ⟨c', _, _, hrun⟩
      simp only [after, run, hrun, Session.since, World.since_addLog]
      exact Card.framesExact_authEvents ans (Nat.le_refl _)
        (Nat.lt_succ_self _)
  | readData ans block => exact framesExact_readData ans block hc w
  | writeData ans block => exact framesExact_writeData ans block hc w
  | useKeyB s keyB => exact framesExact_same rfl
  | setTrailer s isTrailer => exact framesExact_same rfl
  | setKey s key => exact framesExact_same rfl
  | trailer s e => exact framesExact_same rfl

end Operation

/-- The length of a frame: twelve bytes for an authentication, two for a read
and eighteen for a write. -/
def MifareCmd.frameLength : MifareCmd -> Nat
  | .authA => 12
  | .authB => 12
  | .read => 2
  | .write => 18

theorem Card.Exact.length {β : Type} [Cell β] {c : Card β} {a : Nat}
    {before : List (Event β)} {f : Frame β} (h : c.Exact a before f) :
    f.bytes.length = f.cmd.frameLength := by
  cases h with
  | auth front i htried hcmd hbytes =>
      rw [hbytes, Card.authBytes_length, hcmd, Card.authCmd]
      split <;> rfl
  | write hcmd hbytes => rw [hbytes, Card.writeBytes_length, hcmd]; rfl
  | read hcmd hbytes => rw [hbytes, Card.readBytes_length, hcmd]; rfl

namespace Operation

variable {β : Type} [Cell β]

/-- After any operations on a card, a frame that the next one sends is for that
card and one of the addresses of the operation, and holds exactly the bytes of
its command. -/
theorem frames_exact {c : Card β} (hc : c.Classic) (w : World β)
    (ops : List (Operation β)) (op : Operation β) :
    let s := afterAll ops ⟨c, w⟩
    forall before uid f ok later,
      s.since (op.after s) = before ++ .frame uid f ok :: later ->
        uid = c.uid ∧ s.card.uid = c.uid ∧ s.card.keyAt = c.keyAt ∧
          f.bytes.length = f.cmd.frameLength ∧
          exists a, op.range.1 ≤ a ∧ a < op.range.2 ∧
            s.card.Exact a before f := by
  intro s before uid f ok later hsplit
  have hshape : Card.SameShape c s.card :=
    sameShape_afterAll ops (s := ⟨c, w⟩) hc
  have hs : s.card.Classic := hc.of_sameShape hshape
  have huid : s.card.uid = c.uid := by
    rw [Card.uid, hshape.target]
    rfl
  have hkeys : s.card.keyAt = c.keyAt := by
    funext i k
    rw [Card.keyAt, hshape.keys]
    rfl
  rcases framesExact_after op hs s.world before _ later hsplit uid f ok rfl
    with ⟨hcard, a, hstart, hstop, hexact⟩
  exact ⟨hcard.trans huid, huid, hkeys, hexact.length, a, hstart, hstop,
    hexact⟩

/-- After a read with key B chosen, the authentication of block 5 sends the
opcode for key B, the address, the key and the UID. -/
theorem frames_exact_keyB :
    let s : Session UInt8 :=
      afterAll [.useKeyB 1 true, .readData .accepting 4]
        ⟨Card.untouched 1, World.start (fun _ _ _ => 0) .bar⟩
    exists a, 5 ≤ a ∧ a < 6 ∧
      s.card.Exact a [.key 0] (s.card.authFrame 5 0) := by
  intro s
  have hsince : s.since (after (.authenticate .accepting 5) s) =
      [.key 0] ++ .frame s.card.uid (s.card.authFrame 5 0) true :: [] := by
    rcases Session.authenticate_run .accepting 5 s.card s.world with
      ⟨c', _, _, hrun⟩
    rw [after, run, show ((5 : Fin 64) : Nat) = 5 from rfl, hrun,
      Session.since, World.since_addLog _ _ _ rfl, Card.authEvents]
    cases s.card.rounds <;> rfl
  have hexact := frames_exact (Card.classic_untouched 1)
    (World.start (fun _ _ _ => 0) .bar)
    [.useKeyB 1 true, .readData .accepting 4] (.authenticate .accepting 5)
    [.key 0] _ _ _ [] hsince
  exact hexact.right.right.right.right

end Operation

end BeeGadz
