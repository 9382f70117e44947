import BeeGadz.Card.Operation

/-!
# Copies

The copy constructors and assignments of blocks, sectors and cards, and what
their observers say about a copy.  The assignment of a sector leaves the choice
of the key behind; a card never takes over the cached blocks of another one.
-/

namespace BeeGadz

open Foundation

/-!
## Blocks and sectors
-/

namespace Block

variable {β : Type}

/-- `Block::Block(const Block&)`. -/
def copied (other : Block β) : Block β where
  state := other.state
  data := fun i => other.data i

/-- `Block::operator=`, by which nothing of the old value is kept. -/
def assign (_old other : Block β) : Block β where
  state := other.state
  data := fun i => other.data i

end Block

namespace Sector

variable {β : Type}

/-- `Sector::Sector(const Sector&)`. -/
def copied (behind : Nat -> Block β) (other : Sector β) : Sector β where
  data := other.data.copied Block.copied behind
  isTrailer := other.isTrailer
  keyB := other.keyB
  key := fun i => other.key i

/-- `Sector::operator=`, which has no assignment of `m_keyB`. -/
def assign (behind : Nat -> Block β) (s other : Sector β) : Sector β :=
  { s with
    isTrailer := other.isTrailer
    data := other.data.copied Block.copied behind
    key := fun i => other.key i }

structure Agrees (x y : Sector β) : Prop where
  size : x.size = y.size
  blocks : forall k, k < y.size -> x.data.get k = y.data.get k
  trailer : x.isTrailer = y.isTrailer
  keyB : x.keyB = y.keyB
  key : x.key = y.key

theorem agrees_copied (behind : Nat -> Block β) (other : Sector β) :
    (copied behind other).Agrees other where
  size := rfl
  blocks := fun _ hk => Vec.copied_get Block.copied behind other.data hk
  trailer := rfl
  keyB := rfl
  key := rfl

theorem agrees_assign_iff (behind : Nat -> Block β) (s other : Sector β) :
    (assign behind s other).Agrees other <-> s.keyB = other.keyB := by
  constructor
  · intro h
    exact h.keyB
  · intro hkeyB
    have hcopy := agrees_copied behind other
    exact ⟨hcopy.size, hcopy.blocks, hcopy.trailer, hkeyB, hcopy.key⟩

end Sector

/-!
## Cards
-/

namespace Card

variable {β : Type} [Cell β]

/-- `Card::Card(const Card&)`: word for word the other constructor, with the
target and the keys of the other card. -/
def copied (behind : Nat -> UInt8) (other : Card β) : Except Exn (Card β) :=
  Card.new other.target (other.keys.copied id behind)

/-- `Card::operator=`. -/
def assign (behindKeys : Nat -> UInt8) (behind : Nat -> Sector β)
    (other : Card β) : Prog (Card β) Exn Unit := fun c =>
  let c :=
    { c with
      keys := other.keys.copied id behindKeys
      target := other.target }
  if c.target.atqa = 0x4 then
    (.ok (),
      { c with
        data :=
          (c.data.resize 16 (Sector.new false 4 false) behind).modify 0
            fun sector => sector.setTrailer true
        param := c.param.copy 6 fun i => Cell.ofByte (c.uid i) })
  else (.error .exception, c)

/-- A card that the program can have: built by the constructor, or got from
such cards by operations, copies and assignments. -/
inductive Reached : Card β -> Prop where
  | built {target : Target} {keys : Vec UInt8} {c : Card β}
      (h : Card.new target keys = .ok c) : Reached c
  | operated {s : Session β} (op : Operation β) (h : Reached s.card) :
      Reached (op.after s).card
  | copied {c c' : Card β} (behind : Nat -> UInt8) (h : Reached c)
      (hcopy : c.copied behind = .ok c') : Reached c'
  | assigned {c other : Card β} (behindKeys : Nat -> UInt8)
      (behind : Nat -> Sector β) (h : Reached c) (hother : Reached other) :
      Reached (other.assign behindKeys behind c).2

/-- A recognised tag with sixteen sectors of four blocks. -/
structure Recognised (c : Card β) : Prop where
  atqa : c.target.atqa = 0x4
  classic : c.Classic

omit [Cell β] in
theorem Recognised.of_sameShape {c c' : Card β} (hc : Recognised c)
    (h : SameShape c c') : Recognised c' where
  atqa := by
    rw [h.target]
    exact hc.atqa
  classic := hc.classic.of_sameShape h

theorem new_eq_ok {target : Target} {keys : Vec UInt8} {c : Card β}
    (h : Card.new target keys = .ok c) :
    target.atqa = 0x4 ∧ c = fresh target keys := by
  unfold Card.new at h
  split at h
  · rename_i hatqa
    exact ⟨hatqa, (Except.ok.inj h).symm⟩
  · cases h

theorem recognised_new {target : Target} {keys : Vec UInt8} {c : Card β}
    (h : Card.new target keys = .ok c) : Recognised c := by
  rcases new_eq_ok h with ⟨hatqa, rfl⟩
  exact ⟨hatqa, classic_fresh target keys⟩

def assigned (behindKeys : Nat -> UInt8) (behind : Nat -> Sector β)
    (c other : Card β) : Card β where
  keys := other.keys.copied id behindKeys
  target := other.target
  data := (c.data.resize 16 (Sector.new false 4 false) behind).modify 0
    fun sector => sector.setTrailer true
  param := c.param.copy 6 fun i => Cell.ofByte (other.uid i)

theorem assign_run (behindKeys : Nat -> UInt8) (behind : Nat -> Sector β)
    (c : Card β) {other : Card β} (hother : other.target.atqa = 0x4) :
    other.assign behindKeys behind c =
      (.ok (), assigned behindKeys behind c other) := by
  simp only [assign, hother, if_true]
  rfl

theorem assigned_sector (behindKeys : Nat -> UInt8)
    (behind : Nat -> Sector β) {c other : Card β} (hc : c.Classic) {s : Nat}
    (hs : s < 16) :
    ((assigned behindKeys behind c other).data.get s).data =
      (c.data.get s).data := by
  have hsize : s < c.data.size := by
    rw [hc.count]
    exact hs
  have hkept : (c.data.resize 16 (Sector.new false 4 false) behind).get s =
      c.data.get s := by
    rw [← hc.count]
    exact Vec.resize_get _ behind c.data hsize
  rw [assigned]
  dsimp only
  by_cases hs0 : s = 0
  · rw [hs0, Vec.modify_get_self, Sector.setTrailer_data, ← hs0, hkept]
  · rw [Vec.modify_get_of_ne _ _ hs0, hkept]

theorem assigned_block (behindKeys : Nat -> UInt8) (behind : Nat -> Sector β)
    {c : Card β} (other : Card β) (hc : c.Classic) {s : Nat} (hs : s < 16)
    (k : Nat) :
    (assigned behindKeys behind c other).block s k = c.block s k := by
  rw [block, block, assigned_sector behindKeys behind hc hs]

theorem recognised_assigned (behindKeys : Nat -> UInt8)
    (behind : Nat -> Sector β) {c other : Card β} (hc : c.Classic)
    (hother : Recognised other) :
    Recognised (assigned behindKeys behind c other) where
  atqa := hother.atqa
  classic := by
    constructor
    · rfl
    · intro s hs
      rw [Sector.size, assigned_sector behindKeys behind hc hs]
      exact hc.size s hs

theorem Reached.recognised {c : Card β} (h : Reached c) : Recognised c := by
  induction h with
  | built hnew => exact recognised_new hnew
  | operated op _ ih =>
      exact ih.of_sameShape (op.sameShape_after ih.classic _)
  | copied behind _ hcopy _ => exact recognised_new hcopy
  | assigned behindKeys behind _ _ ih ihother =>
      rw [assign_run behindKeys behind _ ihother.atqa]
      exact recognised_assigned behindKeys behind ih.classic ihother

/-!
## What the observers say
-/

/-- What can be observed of two cards is the same: their identity, keys and
cached blocks. -/
structure Agrees (x y : Card β) : Prop where
  uid : x.uid = y.uid
  keyCount : x.keys.size = y.keys.size
  keys : forall i, i < y.keys.size -> x.keys.get i = y.keys.get i
  count : x.data.size = y.data.size
  sizes : forall s, s < y.data.size -> x.sectorSize s = y.sectorSize s
  blocks : forall s k, s < y.data.size -> k < y.sectorSize s ->
    x.block s k = y.block s k

def SameCache (x y : Card β) : Prop :=
  forall s k, s < 16 -> k < 4 -> x.block s k = y.block s k

def Blank (c : Card β) : Prop :=
  forall s k, s < 16 -> k < 4 -> c.block s k = Block.zero

/-- What a write of any sector of `x` sends are modified blocks of `y`, to the
card of `y`. -/
def SendsFrom (x y : Card β) : Prop :=
  forall (pass : Pass β) (w : World β) (s : Nat), s < 16 ->
    forall sent, sent ∈ sentWrites
        (w.since (Session.writeSector pass s ⟨x, w⟩).2.world) ->
      sent.1 = y.uid ∧ exists a, a < 64 ∧ y.Pending a ∧
        sent.2.1 = writeFrame a (y.blockAt a).data

omit [Cell β] in
theorem agrees_of_sameCache {x y : Card β} (hx : x.Classic) (hy : y.Classic)
    (huid : x.uid = y.uid) (hcount : x.keys.size = y.keys.size)
    (hkeys : forall i, i < y.keys.size -> x.keys.get i = y.keys.get i)
    (h : SameCache x y) : Agrees x y where
  uid := huid
  keyCount := hcount
  keys := hkeys
  count := by rw [hx.count, hy.count]
  sizes := by
    intro s hs
    rw [hy.count] at hs
    rw [sectorSize, sectorSize, hx.size s hs, hy.size s hs]
  blocks := by
    intro s k hs hk
    rw [hy.count] at hs
    rw [sectorSize, hy.size s hs] at hk
    exact h s k hs hk

omit [Cell β] in
theorem Agrees.sameCache {x y : Card β} (hy : y.Classic) (h : Agrees x y) :
    SameCache x y := by
  intro s k hs hk
  apply h.blocks
  · rw [hy.count]
    exact hs
  · rw [sectorSize, hy.size s hs]
    exact hk

theorem SameCache.sendsFrom {x y : Card β} (hx : x.Classic)
    (huid : x.uid = y.uid) (h : SameCache x y) : SendsFrom x y := by
  intro pass w s hs sent hsent
  rcases Session.writeSector_run pass hs hx w with
    ⟨c', mem', _, _, _, hrun⟩
  rw [hrun] at hsent
  dsimp only at hsent
  rw [World.since_addLog w (w.withMem mem') _ rfl] at hsent
  rcases x.sentWrites_writeEvents pass 4 (4 * s) with
    ⟨as, hsub, hpending, hsends⟩
  rw [hsends] at hsent
  rcases List.mem_map.mp hsent with ⟨a, ha, rfl⟩
  have hrange := List.mem_range'_1.mp (hsub.subset ha)
  have hblock : x.blockAt a = y.blockAt a :=
    h (a / 4) (a % 4) (by omega) (by omega)
  have hmodified := hpending a ha
  rw [Pending, hblock] at hmodified
  exact ⟨huid, a, by omega, hmodified, by rw [hblock]⟩

theorem fresh_block (target : Target) (keys : Vec UInt8) {s k : Nat} :
    (fresh target keys : Card β).block s k = Block.zero := by
  by_cases hs : s = 0
  · rw [hs]
    simp [block, fresh]
  · simp [block, fresh, Vec.modify_get_of_ne, hs]

theorem copied_agrees_iff (behind : Nat -> UInt8) {other : Card β}
    (hother : Recognised other) :
    exists c : Card β, other.copied behind = .ok c ∧
      (c.Agrees other <-> other.Blank) := by
  refine ⟨fresh other.target (other.keys.copied id behind), ?_, ?_⟩
  · rw [copied, Card.new, if_pos hother.atqa]
  · constructor
    · intro h s k hs hk
      rw [← h.sameCache hother.classic s k hs hk, fresh_block]
    · intro hblank
      apply agrees_of_sameCache
        (classic_fresh other.target (other.keys.copied id behind))
        hother.classic rfl rfl
      · intro i hi
        exact Vec.copied_get id behind other.keys hi
      · intro s k hs hk
        rw [hblank s k hs hk, fresh_block]

theorem assigned_agrees_iff (behindKeys : Nat -> UInt8)
    (behind : Nat -> Sector β) {c other : Card β} (hc : c.Classic)
    (hother : Recognised other) :
    (assigned behindKeys behind c other).Agrees other ∧
        (assigned behindKeys behind c other).SendsFrom other <->
      SameCache c other := by
  have hassigned := recognised_assigned behindKeys behind hc hother
  have hcache : SameCache (assigned behindKeys behind c other) other <->
      SameCache c other := by
    constructor
    · intro h s k hs hk
      rw [← assigned_block behindKeys behind _ hc hs k]
      exact h s k hs hk
    · intro h s k hs hk
      rw [assigned_block behindKeys behind _ hc hs k]
      exact h s k hs hk
  constructor
  · intro hboth
    exact hcache.mp (hboth.left.sameCache hother.classic)
  · intro h
    refine ⟨?_, (hcache.mpr h).sendsFrom hassigned.classic rfl⟩
    apply agrees_of_sameCache hassigned.classic hother.classic rfl rfl
    · intro i hi
      exact Vec.copied_get id behindKeys other.keys hi
    · exact hcache.mpr h

/-- Which copies are faithful: all of blocks and all copies of sectors, but an
assignment of a sector only when the choice of the key was the same before, and
no copy or assignment of a card whose cached blocks were not the same before. -/
theorem copies_faithful_iff {x y : Card β} (hx : Reached x) (hy : Reached y)
    (s t : Sector β) (a b : Block β) (behindKeys : Nat -> UInt8)
    (behindBlocks : Nat -> Block β) (behind : Nat -> Sector β) :
    (b.copied = b ∧ a.assign b = b) ∧
      ((t.copied behindBlocks).Agrees t ∧
        ((s.assign behindBlocks t).Agrees t <-> s.keyB = t.keyB)) ∧
      (exists c : Card β, y.copied behindKeys = .ok c ∧
        (c.Agrees y <-> y.Blank)) ∧
      exists c : Card β, y.assign behindKeys behind x = (.ok (), c) ∧
        (c.Agrees y ∧ c.SendsFrom y <-> SameCache x y) := by
  refine ⟨⟨rfl, rfl⟩,
    ⟨t.agrees_copied behindBlocks, s.agrees_assign_iff behindBlocks t⟩,
    copied_agrees_iff behindKeys hy.recognised,
    assigned behindKeys behind x y,
    assign_run behindKeys behind x hy.recognised.atqa, ?_⟩
  exact assigned_agrees_iff behindKeys behind hx.recognised.classic
    hy.recognised

theorem reached_untouched (u : UInt8) : Reached (untouched u) := by
  have hnew : Card.new ⟨fun _ => u, 0x4⟩ (Vec.replicate 6 0xff) =
      .ok (untouched u) := rfl
  exact .built hnew

/-- Two cards that were just built have the same cache, and an assignment
between them is faithful. -/
theorem copies_faithful_of_untouched :
    exists c : Card UInt8,
      (untouched 2).assign (fun _ => 0) (fun _ => Sector.new false 4 false)
          (untouched 1) = (.ok (), c) ∧
        c.Agrees (untouched 2) := by
  rcases (copies_faithful_iff (reached_untouched 1) (reached_untouched 2)
      (Sector.new false 4 false) (Sector.new false 4 false) Block.zero
      Block.zero (fun _ => 0) (fun _ => Block.zero)
      (fun _ => Sector.new false 4 false)).right.right.right with
    ⟨c, hassign, hiff⟩
  refine ⟨c, hassign, (hiff.mpr ?_).left⟩
  intro s k _ _
  rw [untouched, untouched, fresh_block, fresh_block]

def edited : Card UInt8 :=
  (untouched 2).setBlock 1 0 ⟨fun _ => 7, .modified⟩

theorem reached_edited : Reached edited :=
  Reached.operated
    (s := ⟨untouched 2, World.start (fun _ _ _ => 0) .bar⟩)
    (.call (.edit 1 0 ⟨fun _ => 7, .modified⟩)) (reached_untouched 2)

/-- A sector keeps its own key choice, a copied card has no cached block, and an
assigned card has its old ones. -/
theorem copies_unfaithful :
    ¬ (Sector.assign (fun _ => Block.zero) (Sector.new false 4 false)
          (Sector.new false 4 true) : Sector UInt8).Agrees
        (Sector.new false 4 true) ∧
      Reached edited ∧
      (forall c, edited.copied (fun _ => 0) = .ok c -> ¬ c.Agrees edited) ∧
      ¬ (edited.assign (fun _ => 0) (fun _ => Sector.new false 4 false)
          (untouched 1)).2.Agrees edited := by
  have hclassic := reached_edited.recognised.classic
  have hblock : edited.block 1 0 = ⟨fun _ => 7, .modified⟩ := by
    rw [edited, setBlock_block]
    rfl
  have hold : (Block.zero : Block UInt8) ≠ ⟨fun _ => 7, .modified⟩ := by
    intro h
    cases congrArg Block.state h
  refine ⟨?_, reached_edited, ?_, ?_⟩
  · intro h
    cases h.keyB
  · intro c hcopy h
    rcases new_eq_ok hcopy with ⟨_, rfl⟩
    have hsame := h.sameCache hclassic 1 0 (by decide) (by decide)
    rw [fresh_block, hblock] at hsame
    exact hold hsame
  · intro h
    rw [assign_run _ _ _ reached_edited.recognised.atqa] at h
    have hsame := h.sameCache hclassic 1 0 (by decide) (by decide)
    have hkept := assigned_block (fun _ => 0)
      (fun _ => Sector.new false 4 false) edited
      (reached_untouched 1).recognised.classic (by decide : 1 < 16) 0
    dsimp only at hsame
    rw [hkept, untouched, fresh_block, hblock] at hsame
    exact hold hsame

end Card

end BeeGadz
