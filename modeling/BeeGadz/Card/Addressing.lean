import BeeGadz.Card.Exchange

/-!
# Addresses and sectors

When the two address computations are inverse to each other, and that the loops
over a sector then load and store exactly its own blocks.
-/

namespace BeeGadz

open Foundation

namespace Card

variable {β : Type}

/-- `calculateSector` takes the addresses from the first block of a sector on to
its blocks, and the way back gives every address of the card. -/
structure Addresses (c : Card β) : Prop where
  there : forall s k, s < c.data.size -> k < c.sectorSize s ->
    c.calculateSector (c.firstBlock s + k) = (s, k)
  back : forall b, b < c.blocks ->
    (c.calculateSector b).1 < c.data.size ∧
      (c.calculateSector b).2 < c.sectorSize (c.calculateSector b).1 ∧
      c.firstBlock (c.calculateSector b).1 + (c.calculateSector b).2 = b

/-- All sectors are as large as the first one, and their blocks can be counted
in an `int`. -/
structure Uniform (c : Card β) : Prop where
  same : forall s, s < c.data.size -> c.sectorSize s = c.sectorSize 0
  narrow : forall s, s < c.data.size -> c.sectorSize s < intLimit
  counted : c.blocks ≤ intLimit

def Filled (c : Card β) : Prop :=
  forall s, s < c.data.size -> 0 < c.sectorSize s

theorem Filled.calculateSector {c : Card β} (hfilled : c.Filled)
    (hnarrow : forall s, s < c.data.size -> c.sectorSize s < intLimit)
    (hcounted : c.blocks ≤ intLimit) {s k : Nat} (hs : s < c.data.size)
    (hk : k < c.sectorSize s) :
    c.calculateSector (c.start s + k) = (s, k) := by
  have hend : c.start s + c.sectorSize s ≤ c.blocks :=
    segmentStart_add_size hs
  apply calculateSector_at
  · intro j hj
    exact hfilled j (by omega)
  · exact hk
  · exact hnarrow s hs
  · omega

theorem Uniform.firstBlock {c : Card β} (hc : c.Uniform) (hfilled : c.Filled)
    {s : Nat} (hs : s < c.data.size) : c.firstBlock s = c.start s := by
  have hend : c.start s + c.sectorSize s ≤ c.blocks :=
    segmentStart_add_size hs
  have hloop := c.blockLoop_add s
  have hsame := hc.same s hs
  have hcounted := hc.counted
  have hlimit := intLimit_lt_sizeValues
  rw [firstBlock_eq (hfilled s hs)]
  have heq : blockLoop c.data s = c.start s := by omega
  rw [heq, Nat.mod_eq_of_lt (by omega)]

theorem Uniform.addresses {c : Card β} (hc : c.Uniform)
    (hfilled : c.Filled) : c.Addresses where
  there := by
    intro s k hs hk
    rw [hc.firstBlock hfilled hs]
    exact hfilled.calculateSector hc.narrow hc.counted hs hk
  back := by
    intro b hb
    rcases exists_segment hb with ⟨s, k, hs, hk, hsum⟩
    have hsum' : c.start s + k = b := hsum
    have hfound := hfilled.calculateSector hc.narrow hc.counted hs hk
    rw [hsum'] at hfound
    rw [hfound]
    refine ⟨hs, hk, ?_⟩
    rw [hc.firstBlock hfilled hs, hsum']

theorem Classic.filled {c : Card β} (hc : c.Classic) : c.Filled := by
  intro s hs
  rw [hc.count] at hs
  rw [sectorSize, hc.size s hs]
  decide

theorem Classic.uniform {c : Card β} (hc : c.Classic) : c.Uniform where
  same := by
    intro s hs
    rw [hc.count] at hs
    rw [sectorSize, sectorSize, hc.size s hs, hc.size 0 (by decide)]
  narrow := by
    intro s hs
    rw [hc.count] at hs
    rw [sectorSize, hc.size s hs]
    decide
  counted := by
    rw [blocks, hc.count, hc.start (Nat.le_refl 16)]
    decide

/-!
## Only uniform cards
-/

section Converse

variable {c : Card β}

theorem firstBlock_zero (hfilled : c.Filled) (hcount : 0 < c.data.size) :
    c.firstBlock 0 = 0 := by
  rw [firstBlock_eq (hfilled 0 hcount)]
  rfl

theorem le_sectorLoop (data : Vec (Sector β)) (fuel sector : Nat) (b : Int) :
    sector ≤ (sectorLoop data fuel sector b).1 := by
  induction fuel generalizing sector b with
  | zero => exact Nat.le_refl sector
  | succ fuel ih =>
      rw [sectorLoop]
      split
      · exact Nat.le_trans (Nat.le_succ sector) (ih (sector + 1) _)
      · exact Nat.le_refl sector

theorem Addresses.first_positive (hc : c.Addresses) (hfilled : c.Filled)
    (hcount : 0 < c.data.size) : 0 < toInt (c.sectorSize 0) := by
  have hthere := hc.there 0 0 hcount (hfilled 0 hcount)
  rw [firstBlock_zero hfilled hcount, Nat.zero_add] at hthere
  by_contra hnot
  have hgo : (0 : Int) ≤ toInt ((0 : Nat) : Int) -
      toInt ((c.data.get 0).size : Int) := by
    have hzero : toInt ((0 : Nat) : Int) = 0 := rfl
    have hsize : ¬ 0 < toInt ((c.data.get 0).size : Int) := hnot
    omega
  rw [calculateSector, sectorLoop, if_pos hgo] at hthere
  have hsector := (Prod.mk.inj hthere).left
  have hpassed := le_sectorLoop c.data 0 (0 + 1)
    (toInt (toInt ((0 : Nat) : Int) - ((c.data.get 0).size : Int)))
  rw [hsector] at hpassed
  exact Nat.not_succ_le_zero 0 hpassed

theorem Addresses.counted (hc : c.Addresses) (hfilled : c.Filled) :
    c.blocks ≤ intLimit := by
  apply Nat.le_of_not_lt
  intro hmany
  have hcount : 0 < c.data.size := by
    apply Nat.pos_of_ne_zero
    intro hzero
    rw [blocks, hzero] at hmany
    exact Nat.not_lt_zero _ hmany
  have hpositive := hc.first_positive hfilled hcount
  have hwrapped : toInt ((intLimit : Nat) : Int) = -(intLimit : Int) := by
    decide
  have hstop : ¬ (0 : Int) ≤ toInt ((intLimit : Nat) : Int) -
      toInt ((c.data.get 0).size : Int) := by
    have hsize : 0 < toInt ((c.data.get 0).size : Int) := hpositive
    have hlimit : (0 : Int) < (intLimit : Int) := by decide
    omega
  have hfound : c.calculateSector intLimit =
      (0, toSize (toInt ((intLimit : Nat) : Int))) := by
    rw [calculateSector, sectorLoop, if_neg hstop]
  have hback := (hc.back intLimit hmany).right.right
  rw [hfound, firstBlock_zero hfilled hcount, Nat.zero_add] at hback
  exact absurd hback (by decide)

theorem Addresses.narrow (hc : c.Addresses) (hfilled : c.Filled) {s : Nat}
    (hs : s < c.data.size) : c.sectorSize s < intLimit := by
  have hend : c.start s + c.sectorSize s ≤ c.blocks :=
    segmentStart_add_size hs
  have hcounted := hc.counted hfilled
  apply Nat.lt_of_not_le
  intro hlarge
  -- such a sector is the only one, and its size is negative as an `int`
  have hstart : c.start s = 0 := by omega
  have hsize : c.sectorSize s = intLimit := by omega
  have hzero : s = 0 := by
    by_contra hs0
    have hfirst : c.start 0 + c.sectorSize 0 ≤ c.start s :=
      segmentStart_add_size (Nat.pos_of_ne_zero hs0)
    have := hfilled 0 (by omega)
    omega
  have hpositive := hc.first_positive hfilled (by omega)
  rw [← hzero, hsize] at hpositive
  exact absurd hpositive (by decide)

theorem Addresses.same (hc : c.Addresses) (hfilled : c.Filled) {s : Nat}
    (hs : s < c.data.size) : c.sectorSize s = c.sectorSize 0 := by
  have hend : c.start s + c.sectorSize s ≤ c.blocks :=
    segmentStart_add_size hs
  have hcounted := hc.counted hfilled
  have hlimit := intLimit_lt_sizeValues
  have hpos := hfilled s hs
  have hfound := hfilled.calculateSector (fun _ => hc.narrow hfilled)
    hcounted hs hpos
  rw [Nat.add_zero] at hfound
  have hback := (hc.back (c.start s) (by omega)).right.right
  rw [hfound, firstBlock_eq hpos] at hback
  have hloop := c.blockLoop_add s
  have hsmall : blockLoop c.data s ≤ c.blocks := by omega
  rw [Nat.mod_eq_of_lt (by omega)] at hback
  omega

theorem Addresses.uniform (hc : c.Addresses) (hfilled : c.Filled) :
    c.Uniform where
  same := fun _ hs => hc.same hfilled hs
  narrow := fun _ hs => hc.narrow hfilled hs
  counted := hc.counted hfilled

end Converse

end Card

/-!
## The loops over a sector
-/

namespace Card

variable {β : Type}

/-- The blocks of sector `s` that a read pass loads from the addresses
`base + start` to before `base + stop`, and only these, have changed. -/
structure RefreshedIn (c c' : Card β) (pass : Pass β)
    (mem : Nat -> Bytes β 16) (s base start stop : Nat) : Prop where
  loaded : forall k, c.Loads pass (base + start) (base + stop) (base + k) ->
    c'.block s k = ⟨mem ((base + k) % 256), .clean⟩
  kept : forall i k,
    ¬ (i = s ∧ c.Loads pass (base + start) (base + stop) (base + k)) ->
      c'.block i k = c.block i k

theorem refreshedIn_single {c c' : Card β} {pass : Pass β}
    {mem : Nat -> Bytes β 16} {s base k : Nat}
    (hdata : forall i l, c'.block i l =
      if c.readResult (pass (base + k)) = .loaded ∧ i = s ∧ l = k then
        ⟨mem ((base + k) % 256), .clean⟩
      else c.block i l) :
    RefreshedIn c c' pass mem s base k (k + 1) where
  loaded := by
    intro l hloads
    rcases loads_single.mp hloads with ⟨hloaded, haddress⟩
    have hl : l = k := by omega
    rw [hl, hdata, if_pos ⟨hloaded, rfl, rfl⟩]
  kept := by
    intro i l hnot
    rw [hdata, if_neg]
    intro hall
    rcases hall with ⟨hloaded, hi, hl⟩
    exact hnot ⟨hi, loads_single.mpr ⟨hloaded, by rw [hl]⟩⟩

theorem RefreshedIn.of_lost {c c' : Card β} {pass : Pass β}
    {mem : Nat -> Bytes β 16} {s base start middle stop b : Nat}
    (h : RefreshedIn c c' pass mem s base start middle)
    (hb : base + start ≤ b) (hbm : b < base + middle)
    (hstop : base + middle ≤ base + stop)
    (hlost : c.readResult (pass b) = .lost) :
    RefreshedIn c c' pass mem s base start stop where
  loaded := fun k hloads =>
    h.loaded k ((loads_of_lost hb hbm hstop hlost).mp hloads)
  kept := by
    intro i k hnot
    apply h.kept i k
    intro hall
    rcases hall with ⟨hi, hloads⟩
    exact hnot ⟨hi, (loads_of_lost hb hbm hstop hlost).mpr hloads⟩

theorem RefreshedIn.append {a b c : Card β} {pass : Pass β}
    {mem : Nat -> Bytes β 16} {s base start middle stop : Nat}
    (hframe : SameFrame a b) (hstart : base + start ≤ base + middle)
    (hstop : base + middle ≤ base + stop)
    (hkeep : a.ReadReaches pass (base + start) (base + middle))
    (hab : RefreshedIn a b pass mem s base start middle)
    (hbc : RefreshedIn b c pass mem s base middle stop) :
    RefreshedIn a c pass mem s base start stop where
  loaded := by
    intro k hloads
    by_cases hlate : b.Loads pass (base + middle) (base + stop) (base + k)
    · exact hbc.loaded k hlate
    · rw [hbc.kept s k (fun h => hlate h.right)]
      rcases (loads_append hstart hstop hkeep).mp hloads with hearly | hlate'
      · exact hab.loaded k hearly
      · exact absurd ((hframe.loads_iff _ _ _ _).mpr hlate') hlate
  kept := by
    intro i k hnot
    have hearly := hab.kept i k fun h => hnot
      ⟨h.left, (loads_append hstart hstop hkeep).mpr (Or.inl h.right)⟩
    have hlate := hbc.kept i k fun h => hnot
      ⟨h.left, (loads_append hstart hstop hkeep).mpr
        (Or.inr ((hframe.loads_iff _ _ _ _).mp h.right))⟩
    rw [hlate, hearly]

/-- Of the `n` blocks of sector `s` from block `k` on, modified ones are sent to
their addresses, in order, and all of them when every command is accepted. -/
structure FlushedIn (c : Card β) (pass : Pass β) (s base k n : Nat)
    (ks : List Nat) (events : List (Event β)) : Prop where
  own : ks.Sublist (List.range' k n)
  modified : forall l, l ∈ ks -> (c.block s l).state = .modified
  sent : sentWrites events = ks.map fun l =>
    (c.uid, writeFrame (base + l) (c.block s l).data,
      (pass (base + l)).write.ok)
  all : (forall l, k ≤ l -> l < k + n -> (c.block s l).state = .modified ->
      c.Stores (pass (base + l))) ->
    forall l, k ≤ l -> l < k + n -> (c.block s l).state = .modified -> l ∈ ks

theorem flushedIn_skip {c : Card β} {pass : Pass β} {s base k n : Nat}
    {ks : List Nat} {events : List (Event β)}
    (hclean : (c.block s k).state ≠ .modified)
    (h : FlushedIn c pass s base (k + 1) n ks events) :
    FlushedIn c pass s base k (n + 1) ks events where
  own := h.own.trans (List.sublist_cons_self k _)
  modified := h.modified
  sent := h.sent
  all := by
    intro hstores l hkl hlk hmodified
    have hne : l ≠ k := fun heq => hclean (heq ▸ hmodified)
    exact h.all (fun j hkj hjk => hstores j (by omega) (by omega)) l
      (by omega) (by omega) hmodified

theorem FlushedIn.congr {c c' : Card β} {pass : Pass β} {s base k n : Nat}
    {ks : List Nat} {events : List (Event β)} (hframe : SameFrame c c')
    (hblocks : SameBlocks c c')
    (h : FlushedIn c' pass s base k n ks events) :
    FlushedIn c pass s base k n ks events where
  own := h.own
  modified := by
    intro l hl
    rw [← hblocks]
    exact h.modified l hl
  sent := by
    rw [h.sent]
    simp only [hframe.uid, hblocks s]
  all := by
    intro hstores l hkl hlk hmodified
    apply h.all ?_ l hkl hlk (by rwa [hblocks])
    intro j hkj hjk hj
    rw [hblocks] at hj
    have hboth := hstores j hkj hjk hj
    exact ⟨(hframe.authResult _).trans hboth.left, hboth.right⟩

def firstSent (c : Card β) (pass : Pass β) (base k : Nat) : List Nat :=
  if c.authResult (pass (base + k)) = .accepted then [k] else []

theorem mem_firstSent {c : Card β} {pass : Pass β} {base k l : Nat}
    (h : l ∈ c.firstSent pass base k) : l = k := by
  unfold firstSent at h
  split at h
  · exact List.mem_singleton.mp h
  · cases h

theorem sentWrites_first [Cell β] (c : Card β) (pass : Pass β)
    (s base k : Nat) :
    sentWrites (c.storeEvents (pass (base + k)) (base + k)
        (c.block s k).data) =
      (c.firstSent pass base k).map fun l =>
        (c.uid, writeFrame (base + l) (c.block s l).data,
          (pass (base + l)).write.ok) := by
  rw [sentWrites_storeEvents, firstSent]
  split <;> rfl

theorem flushedIn_lost [Cell β] {c : Card β} {pass : Pass β}
    {s base k : Nat} (n : Nat) (hmodified : (c.block s k).state = .modified)
    (hlost : c.storeLost (pass (base + k)) = true) :
    FlushedIn c pass s base k (n + 1) (c.firstSent pass base k)
      (c.storeEvents (pass (base + k)) (base + k) (c.block s k).data) where
  own := by
    unfold firstSent
    split
    · exact List.singleton_sublist.mpr (List.mem_cons_self)
    · exact List.nil_sublist _
  modified := fun l hl => (mem_firstSent hl) ▸ hmodified
  sent := c.sentWrites_first pass s base k
  all := by
    intro hstores
    rcases hstores k (Nat.le_refl k) (by omega) hmodified with ⟨hauth, hok⟩
    simp [storeLost, hauth, hok] at hlost

theorem FlushedIn.cons [Cell β] {c : Card β} {pass : Pass β}
    {s base k n : Nat} {ks : List Nat} {events : List (Event β)}
    (hmodified : (c.block s k).state = .modified)
    (h : FlushedIn c pass s base (k + 1) n ks events) :
    FlushedIn c pass s base k (n + 1) (c.firstSent pass base k ++ ks)
      (c.storeEvents (pass (base + k)) (base + k) (c.block s k).data ++
        events) where
  own := by
    unfold firstSent
    split
    · exact h.own.cons_cons k
    · exact h.own.cons k
  modified := by
    intro l hl
    rcases List.mem_append.mp hl with hl | hl
    · exact (mem_firstSent hl) ▸ hmodified
    · exact h.modified l hl
  sent := by
    rw [sentWrites_append, c.sentWrites_first, h.sent, List.map_append]
  all := by
    intro hstores l hkl hlk hl
    by_cases heq : l = k
    · have hauth := (hstores k (Nat.le_refl k) (by omega) hmodified).left
      simp [firstSent, hauth, heq]
    · apply List.mem_append_right
      exact h.all (fun j hkj hjk => hstores j (by omega) (by omega)) l
        (by omega) (by omega) hl

end Card

namespace Session

variable {β : Type} [Cell β]

theorem readBlocks_own (pass : Pass β) (s base n k : Nat) {c : Card β}
    (hown : forall l, k ≤ l -> l < k + n ->
      c.calculateSector (base + l) = (s, l)) (w : World β) :
    Card.RefreshedIn c (readBlocks pass n (base + k) ⟨c, w⟩).2.card pass
      (w.mem c.uid) s base k (k + n) := by
  induction n generalizing k c w with
  | zero =>
      constructor
      · intro l hall
        rcases hall with ⟨hle, hlt, _⟩
        omega
      · intro i l _
        rfl
  | succ n ih =>
      rcases loadBlock_at (pass (base + k)) (base + k)
          (hown k (Nat.le_refl k) (by omega)) w with
        ⟨c₁, hframe, hdata, hload⟩
      have hsingle : Card.RefreshedIn c c₁ pass (w.mem c.uid) s base k
          (k + 1) :=
        Card.refreshedIn_single hdata
      rw [readBlocks]
      by_cases hlost : c.readResult (pass (base + k)) = .lost
      · rw [if_pos hlost] at hload
        rw [Prog.bind_of_error _ hload]
        exact hsingle.of_lost (Nat.le_refl _) (by omega) (by omega) hlost
      · rw [if_neg hlost] at hload
        rw [Prog.bind_of_ok _ hload]
        have hrest := ih (k + 1) (c := c₁) (fun l hkl hlk =>
          (hframe.calculateSector _).trans (hown l (by omega) (by omega)))
          (w.addLog (c.loadEvents (pass (base + k)) (base + k)
            (w.mem c.uid ((base + k) % 256))))
        have hstop : k + 1 + n = k + (n + 1) := by omega
        rw [hstop] at hrest
        apply hsingle.append hframe (by omega) (by omega)
        · intro b hb hlt
          have hbk : b = base + k := by omega
          rw [hbk]
          exact hlost
        · rw [hframe.uid] at hrest
          exact hrest

theorem writeBlocks_own (pass : Pass β) (s base n k : Nat) {c : Card β}
    (hown : forall l, k ≤ l -> l < k + n ->
      c.calculateSector (base + l) = (s, l)) (w : World β) :
    exists (ks : List Nat) (events : List (Event β)),
      (writeBlocks pass s n k (base + k) ⟨c, w⟩).2.world.log =
          w.log ++ events ∧
        Card.FlushedIn c pass s base k n ks events := by
  induction n generalizing k c w with
  | zero =>
      refine ⟨[], [], by simp [writeBlocks], ⟨List.Sublist.refl _, ?_, rfl, ?_⟩⟩
      · intro l hl
        cases hl
      · intro _ l _ _ _
        omega
  | succ n ih =>
      rw [writeBlocks_succ]
      by_cases hmodified : (c.block s k).state = .modified
      · rw [if_pos hmodified]
        rcases storeBlock_at (pass (base + k)) (base + k)
            (hown k (Nat.le_refl k) (by omega)) hmodified w with
          ⟨c₁, hframe, hblocks, hstore⟩
        by_cases hlost : c.storeLost (pass (base + k)) = true
        · rw [if_pos hlost] at hstore
          rw [Prog.bind_of_error _ hstore]
          exact ⟨_, _, rfl, Card.flushedIn_lost n hmodified hlost⟩
        · rw [if_neg hlost] at hstore
          rw [Prog.bind_of_ok _ hstore]
          rcases ih (k + 1) (c := c₁) (fun l hkl hlk =>
              (hframe.calculateSector _).trans
                (hown l (by omega) (by omega)))
              ((w.setMem c.uid ((base + k) % 256)
                (c.leaves (pass (base + k))
                  (w.mem c.uid ((base + k) % 256))
                  (c.block s k).data)).addLog
                (c.storeEvents (pass (base + k)) (base + k)
                  (c.block s k).data)) with
            ⟨ks, events, hlog, hflushed⟩
          refine ⟨c.firstSent pass base k ++ ks, _ ++ events, ?_,
            (hflushed.congr hframe hblocks).cons hmodified⟩
          rw [Nat.add_assoc, hlog, World.addLog_log, World.setMem_log,
            List.append_assoc]
      · rw [if_neg hmodified]
        rcases ih (k + 1) (fun l hkl hlk => hown l (by omega) (by omega)) w with
          ⟨ks, events, hlog, hflushed⟩
        refine ⟨ks, events, ?_, Card.flushedIn_skip hmodified hflushed⟩
        rw [Nat.add_assoc]
        exact hlog

/-- The loops over a sector load and store exactly the blocks of their own
sector. -/
structure OwnBlocks (c : Card β) : Prop where
  loads : forall (pass : Pass β) (w : World β) (s : Nat), s < c.data.size ->
    Card.RefreshedIn c (readSector pass s ⟨c, w⟩).2.card pass (w.mem c.uid)
      s (c.firstBlock s) 0 (c.sectorSize s)
  stores : forall (pass : Pass β) (w : World β) (s : Nat),
    s < c.data.size -> exists ks : List Nat,
      Card.FlushedIn c pass s (c.firstBlock s) 0 (c.sectorSize s) ks
        (w.since (writeSector pass s ⟨c, w⟩).2.world)

theorem readSector_session (pass : Pass β) (s : Nat) (c : Card β)
    (w : World β) :
    (readSector pass s ⟨c, w⟩).2 =
      (readBlocks pass (c.sectorSize s) (c.firstBlock s) ⟨c, w⟩).2 := by
  rw [readSector, readMifareClassic, Prog.bind_of_ok _ (getCard_apply c w),
    Prog.then_pure_state]
  rfl

theorem writeSector_session (pass : Pass β) (s : Nat) (c : Card β)
    (w : World β) :
    (writeSector pass s ⟨c, w⟩).2 =
      (writeBlocks pass s (c.sectorSize s) 0 (c.firstBlock s) ⟨c, w⟩).2 := by
  rw [writeSector, writeMifareClassic, Prog.bind_of_ok _ (getCard_apply c w),
    Prog.then_pure_state]
  rfl

theorem ownBlocks_of_addresses {c : Card β} (hc : c.Addresses) :
    OwnBlocks c where
  loads := by
    intro pass w s hs
    have hloop := readBlocks_own pass s (c.firstBlock s) (c.sectorSize s) 0
      (fun l _ hl => hc.there s l hs (by omega)) w
    rw [Nat.zero_add, Nat.add_zero] at hloop
    rw [readSector_session]
    exact hloop
  stores := by
    intro pass w s hs
    rcases writeBlocks_own pass s (c.firstBlock s) (c.sectorSize s) 0
        (fun l _ hl => hc.there s l hs (by omega)) w with
      ⟨ks, events, hlog, hflushed⟩
    refine ⟨ks, ?_⟩
    rw [writeSector_session, World.since]
    rw [Nat.add_zero] at hlog
    rw [hlog, List.drop_left]
    exact hflushed

/-- The two address computations are inverse to each other, and the loops stay
in their sectors, exactly on the cards whose sectors are all of one size. -/
theorem addressed_iff (c : Card β) (hfilled : c.Filled) :
    c.Addresses ∧ OwnBlocks c <-> c.Uniform := by
  constructor
  · intro hboth
    exact hboth.left.uniform hfilled
  · intro huniform
    have haddresses := huniform.addresses hfilled
    exact ⟨haddresses, ownBlocks_of_addresses haddresses⟩

theorem addressed_fresh :
    (Card.fresh ⟨fun _ => 1, 0x4⟩ (Vec.replicate 6 0xff) :
      Card UInt8).Addresses :=
  have hclassic := Card.classic_fresh (β := UInt8) ⟨fun _ => 1, 0x4⟩
    (Vec.replicate 6 0xff)
  ((addressed_iff _ hclassic.filled).mpr hclassic.uniform).left

end Session

namespace Card

def mixed : Card UInt8 where
  keys := Vec.replicate 6 0xff
  target := ⟨fun _ => 1, 0x4⟩
  param := fun _ => 0
  data :=
    (Vec.replicate 2 (Sector.new false 4 false)).set 1
      (Sector.new false 16 false)

/-- The second sector starts at address 4, but 16 is computed, which is its
block 12. -/
theorem mixed_misaddressed :
    mixed.Filled ∧ mixed.firstBlock 1 = 16 ∧
      mixed.calculateSector (mixed.firstBlock 1 + 0) = (1, 12) ∧
      ¬ mixed.Addresses := by
  have hfirst : mixed.firstBlock 1 = 16 := by decide
  have hfound : mixed.calculateSector (mixed.firstBlock 1 + 0) = (1, 12) := by
    decide
  refine ⟨by unfold Filled; decide, hfirst, hfound, ?_⟩
  intro hmixed
  have hthere := hmixed.there 1 0 (by decide) (by decide)
  rw [hfound] at hthere
  exact absurd hthere (by decide)

end Card

end BeeGadz
