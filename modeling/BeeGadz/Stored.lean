import BeeGadz.Caisse
import BeeGadz.Kve

/-!
# What is stored on a card

The record that the blocks of a card stand for, decoded as the modes decode a
cached card.  The same functions are used of the physical blocks and of the
blocks as they were seen.
-/

namespace BeeGadz

open Foundation

abbrev Memory (β : Type) : Type :=
  Nat -> Bytes β 16

namespace Memory

variable {β : Type}

def Says [Cell β] (m : Memory β) (r : Role) : Prop :=
  (m 4).Says r

instance [Cell β] (m : Memory β) (r : Role) : Decidable (m.Says r) :=
  inferInstanceAs (Decidable ((m 4).Says r))

def credit [FloatCell β] (m : Memory β) : Rat :=
  if m.Says .debit then (m 5).credit else 0

def tickets [Cell β] (m : Memory β) : UInt8 :=
  if m.Says .debit then (m 6).first else 0

def ticket [Cell β] (m : Memory β) : UInt8 :=
  if m.tickets ≠ 0 then (m 6).second else 0

theorem credit_of_says [FloatCell β] {m : Memory β} (h : m.Says .debit) :
    m.credit = (m 5).credit :=
  if_pos h

theorem tickets_of_says [Cell β] {m : Memory β} (h : m.Says .debit) :
    m.tickets = (m 6).first :=
  if_pos h

theorem credit_congr [FloatCell β] {m m' : Memory β} (h4 : m' 4 = m 4)
    (h5 : m' 5 = m 5) : m'.credit = m.credit := by
  have hsay : m'.Says .debit <-> m.Says .debit := by
    unfold Says
    rw [h4]
  unfold credit
  rw [if_congr hsay rfl rfl, h5]

end Memory

/-!
## Cards that were read
-/

namespace Loop.Presented

variable {β : Type} {inp : Input β} {keys : Vec UInt8} {target : Target}
  {mem : Nat -> Bytes β 16} {c : Card β}

section Roles

variable [Cell β]

theorem says_iff (h : Presented inp keys target mem c) (r : Role) :
    c.testCard r.name <-> Memory.Says (Loop.seen inp keys target mem) r := by
  rw [c.testCard_name r, h.seen 0 (by decide)]
  exact Iff.rfl

theorem isDebit_iff (h : Presented inp keys target mem c) :
    c.isDebit <-> Memory.Says (Loop.seen inp keys target mem) .debit :=
  h.says_iff .debit

theorem tickets_eq (h : Presented inp keys target mem c) (hdebit : c.isDebit) :
    (c.block 1 2).data.first = Memory.tickets (Loop.seen inp keys target mem) := by
  rw [Memory.tickets_of_says (h.isDebit_iff.mp hdebit),
    h.seen 2 (by decide)]

theorem hasTicket_iff (h : Presented inp keys target mem c)
    (hdebit : c.isDebit) :
    c.hasTicket <-> Memory.tickets (Loop.seen inp keys target mem) ≠ 0 := by
  rw [← h.tickets_eq hdebit]
  exact ⟨fun hticket => hticket.right, fun hne => ⟨hdebit, hne⟩⟩

theorem getTicket_eq (h : Presented inp keys target mem c)
    (hdebit : c.isDebit) :
    c.getTicket = Memory.ticket (Loop.seen inp keys target mem) := by
  unfold Card.getTicket Memory.ticket
  rw [h.seen 2 (by decide)]
  exact if_congr (h.hasTicket_iff hdebit) rfl rfl

end Roles

theorem credit_eq [FloatCell β] (h : Presented inp keys target mem c)
    (hdebit : c.isDebit) :
    c.getCredit = Memory.credit (Loop.seen inp keys target mem) := by
  rw [Card.getCredit, if_pos hdebit,
    Memory.credit_of_says (h.isDebit_iff.mp hdebit), h.seen 1 (by decide)]

end Loop.Presented

namespace Loop

variable {β : Type} [Cell β] {inp : Input β} {keys : Vec UInt8}
  {target : Target} {mem : Nat -> Bytes β 16}

def Loaded (inp : Input β) (keys : Vec UInt8) (target : Target) (a : Nat) :
    Prop :=
  (Card.fresh target keys : Card β).readResult (inp.reading a) = .loaded

instance (inp : Input β) (keys : Vec UInt8) (target : Target) (a : Nat) :
    Decidable (Loaded inp keys target a) :=
  inferInstanceAs (Decidable
    ((Card.fresh target keys : Card β).readResult (inp.reading a) = .loaded))

theorem seen_of_loaded (mem : Nat -> Bytes β 16) {a : Nat} (h : Loaded inp keys target a) :
    seen inp keys target mem a = mem a :=
  if_pos h

theorem seen_of_not_loaded {a : Nat} (h : ¬ Loaded inp keys target a) :
    seen inp keys target mem a = fun _ => Cell.ofByte 0 :=
  if_neg h

/-- A role that was seen is stored on the card. -/
theorem loaded_of_role {r : Role}
    (h : Memory.Says (seen inp keys target mem) r) :
    Loaded inp keys target 4 := by
  by_cases hloaded : Loaded inp keys target 4
  · exact hloaded
  · rw [Memory.Says, seen_of_not_loaded hloaded] at h
    exact absurd h (Bytes.not_says_zero r)

theorem says_of_seen {r : Role}
    (h : Memory.Says (seen inp keys target mem) r) : Memory.Says mem r := by
  have hsame := seen_of_loaded mem (loaded_of_role h)
  rw [Memory.Says, hsame] at h
  exact h

theorem says_seen_iff {r : Role} :
    Memory.Says (seen inp keys target mem) r <->
      Loaded inp keys target 4 ∧ Memory.Says mem r := by
  constructor
  · intro h
    exact ⟨loaded_of_role h, says_of_seen h⟩
  · intro hall
    rcases hall with ⟨hloaded, hsay⟩
    rw [Memory.Says, seen_of_loaded mem hloaded]
    exact hsay

theorem loaded_of_tickets
    (h : Memory.tickets (seen inp keys target mem) ≠ 0) :
    Loaded inp keys target 6 := by
  by_cases hloaded : Loaded inp keys target 6
  · exact hloaded
  · unfold Memory.tickets at h
    rw [seen_of_not_loaded hloaded] at h
    simp [Bytes.first] at h

theorem tickets_seen (h : Memory.tickets (seen inp keys target mem) ≠ 0) :
    Memory.tickets (seen inp keys target mem) = Memory.tickets mem := by
  have hsay : Memory.Says (seen inp keys target mem) .debit := by
    by_contra hnot
    exact h (if_neg hnot)
  rw [Memory.tickets_of_says hsay, Memory.tickets_of_says (says_of_seen hsay),
    seen_of_loaded mem (loaded_of_tickets h)]

theorem tickets_seen_iff
    (hsay : Memory.Says (seen inp keys target mem) .debit) :
    Memory.tickets (seen inp keys target mem) ≠ 0 <->
      Loaded inp keys target 6 ∧ Memory.tickets mem ≠ 0 := by
  constructor
  · intro h
    exact ⟨loaded_of_tickets h, tickets_seen h ▸ h⟩
  · intro hall
    rcases hall with ⟨hloaded, hne⟩
    rw [Memory.tickets_of_says (says_of_seen hsay)] at hne
    rw [Memory.tickets_of_says hsay, seen_of_loaded mem hloaded]
    exact hne

theorem ticket_seen (h : Memory.tickets (seen inp keys target mem) ≠ 0) :
    Memory.ticket (seen inp keys target mem) = Memory.ticket mem := by
  have hsame := tickets_seen h
  unfold Memory.ticket
  rw [← hsame, seen_of_loaded mem (loaded_of_tickets h)]

end Loop

section Tickets

variable {β : Type} [Cell β] {inp : Input β} {keys : Vec UInt8}
  {target : Target} {mem : Nat -> Bytes β 16} {c : Card β}

theorem Loop.Presented.ticket_mem (h : Loop.Presented inp keys target mem c)
    (hdebit : c.isDebit) (hticket : c.hasTicket) :
    c.getTicket = Memory.ticket mem ∧
      (c.block 1 2).data.first = Memory.tickets mem := by
  have hleft := (h.hasTicket_iff hdebit).mp hticket
  exact ⟨(h.getTicket_eq hdebit).trans (Loop.ticket_seen hleft),
    (h.tickets_eq hdebit).trans (Loop.tickets_seen hleft)⟩

end Tickets

theorem Loop.credit_seen {β : Type} [FloatCell β] [ExactFloat β]
    {inp : Input β} {keys : Vec UInt8} {target : Target}
    {mem : Nat -> Bytes β 16}
    (h : Memory.Says (seen inp keys target mem) .debit) :
    Memory.credit (seen inp keys target mem) =
      if Loaded inp keys target 5 then Memory.credit mem else 0 := by
  rw [Memory.credit_of_says h, Memory.credit_of_says (says_of_seen h)]
  by_cases hloaded : Loaded inp keys target 5
  · rw [if_pos hloaded, seen_of_loaded mem hloaded]
  · rw [if_neg hloaded, seen_of_not_loaded hloaded, Bytes.credit_zero]

/-!
## Blocks that were written
-/

namespace Card

variable {β : Type}

/-- The modified blocks of a record are among those of the blocks 4, 5 and 6
that are listed. -/
def OnlyPending (c : Card β) (blocks : List Nat) : Prop :=
  forall a, c.Pending a <-> a ∈ blocks

theorem onlyPending_edit {c : Card β} {blocks : List Nat}
    (h : c.OnlyPending blocks) {k : Nat} (hk : k < 4)
    (f : Bytes β 16 -> Bytes β 16) :
    (c.edit k f).OnlyPending ((4 + k) :: blocks) := by
  intro a
  rw [pending_edit c k hk f a, h a, List.mem_cons]

theorem Unmodified.onlyPending {c : Card β} (h : c.Unmodified) :
    c.OnlyPending [] :=
  fun a => ⟨fun hpending => absurd hpending (h a), fun hmem => by cases hmem⟩

theorem OnlyPending.of_sameBlocks {c c' : Card β} {blocks : List Nat}
    (h : c.OnlyPending blocks) (hblocks : SameBlocks c c') :
    c'.OnlyPending blocks :=
  fun a => (hblocks.pending a).trans (h a)

theorem Flushed.credit {c : Card β} {pass : Pass β}
    {mem mem' : Uid -> Nat -> Bytes β 16} {blocks : List Nat}
    (h : Flushed c pass mem mem' 4 8) (honly : c.OnlyPending blocks)
    (h4 : 4 ∉ blocks) (h5 : 5 ∈ blocks) :
    mem' c.uid 5 =
      c.leaves (pass 5) (mem c.uid 5) (c.block 1 1).data := by
  apply h.reached (by decide) (by decide) ((honly 5).mpr h5)
  intro b hlow hhigh hpending
  have hb : b = 4 := by omega
  exact absurd ((honly b).mp hpending) (hb ▸ h4)

theorem Flushed.kept_of_not_mem {c : Card β} {pass : Pass β}
    {mem mem' : Uid -> Nat -> Bytes β 16} {blocks : List Nat}
    (h : Flushed c pass mem mem' 4 8) (honly : c.OnlyPending blocks)
    {a : Nat} (ha : a ∉ blocks) (u : Uid) : mem' u a = mem u a :=
  h.unmodified (fun hpending => ha ((honly a).mp hpending)) u

end Card

/-!
## What the modes leave on a card
-/

section Left

variable {β : Type} [Cell β]

def left (keys : Vec UInt8) (target : Target) (pass : Pass β)
    (mem : Memory β) (a : Nat) (data : Bytes β 16) : Bytes β 16 :=
  (Card.fresh target keys : Card β).leaves (pass a) (mem a) data

theorem left_of_stores {keys : Vec UInt8} {target : Target} {pass : Pass β}
    {a : Nat} (h : (Card.fresh target keys : Card β).Stores (pass a))
    (mem : Memory β) (data : Bytes β 16) :
    left keys target pass mem a data = data := by
  rcases h with ⟨hauth, hwrite⟩
  unfold left Card.leaves
  rw [hauth]
  cases hreply : (pass a).write with
  | accepted => rfl
  | rejected =>
      rw [hreply] at hwrite
      cases hwrite
  | torn contents =>
      rw [hreply] at hwrite
      cases hwrite

theorem left_congr {mem mem' : Memory β} {a : Nat} (h : mem' a = mem a)
    (keys : Vec UInt8) (target : Target) (pass : Pass β) (data : Bytes β 16) :
    left keys target pass mem' a data = left keys target pass mem a data := by
  rw [left, left, h]

def lostAt (keys : Vec UInt8) (target : Target) (pass : Pass β) (a : Nat) :
    Bool :=
  (Card.fresh target keys : Card β).storeLost (pass a)

theorem leaves_eq_left {keys : Vec UInt8} {target : Target} {c : Card β}
    (h : Card.SameFrame (Card.fresh target keys) c) (pass : Pass β)
    (mem : Memory β) (a : Nat) (data : Bytes β 16) :
    c.leaves (pass a) (mem a) data = left keys target pass mem a data :=
  h.leaves _ _ _

end Left

section Amounts

variable {β : Type} [FloatCell β]

/-- What a card holds after a DEBIT record was written over what was seen of
it: the blocks are tried in order, until the tag is lost. -/
def created (keys : Vec UInt8) (target : Target) (pass : Pass β)
    (mem view : Memory β) : Memory β := fun a =>
  if a = 4 then
    left keys target pass mem 4 ((view 4).putName (ascii "DEBIT"))
  else if a = 5 then
    if lostAt keys target pass 4 = true then mem 5
    else left keys target pass mem 5 ((view 5).putCredit 0)
  else if a = 6 then
    if lostAt keys target pass 4 = true ∨ lostAt keys target pass 5 = true then
      mem 6
    else left keys target pass mem 6 (((view 6).putFirst 0).putSecond 0)
  else mem a

theorem not_lostAt_of_stores {keys : Vec UInt8} {target : Target}
    {pass : Pass β} {a : Nat}
    (h : (Card.fresh target keys : Card β).Stores (pass a)) :
    lostAt keys target pass a = false := by
  rcases h with ⟨hauth, hwrite⟩
  simp [lostAt, Card.storeLost, hauth, hwrite]

theorem created_of_stores [ExactFloat β] {keys : Vec UInt8}
    {target : Target} {pass : Pass β}
    (h4 : (Card.fresh target keys : Card β).Stores (pass 4))
    (h5 : (Card.fresh target keys : Card β).Stores (pass 5))
    (mem view : Memory β) :
    Memory.Says (created keys target pass mem view) .debit ∧
      (created keys target pass mem view 5).credit = 0 := by
  constructor
  · have hname : created keys target pass mem view 4 =
        (view 4).putName (ascii Role.debit.name) :=
      left_of_stores h4 _ _
    rw [Memory.Says, hname]
    exact Bytes.says_putName _ _
  · have hcredit : created keys target pass mem view 5 =
        if lostAt keys target pass 4 = true then mem 5
        else left keys target pass mem 5 ((view 5).putCredit 0) := rfl
    rw [hcredit, not_lostAt_of_stores h4, if_neg (by simp),
      left_of_stores h5, Bytes.credit_putCredit]

theorem Session.Charged.memory {pass : Pass β} {price : Rat} {c c' : Card β}
    {mem mem' : Uid -> Nat -> Bytes β 16} {blocks : List Nat}
    (h : Session.Charged pass price c mem c' mem')
    (honly : c.OnlyPending blocks) (h4 : 4 ∉ blocks) :
    (forall u, u ≠ c.uid -> mem' u = mem u) ∧ mem' c.uid 4 = mem c.uid 4 ∧
      mem' c.uid 5 =
        if c.getCredit = 0 then mem c.uid 5
        else c.leaves (pass 5) (mem c.uid 5)
          ((c.block 1 1).data.putCredit (c.getCredit - price)) := by
  by_cases hcredit : c.getCredit = 0
  · rw [(h.free hcredit).right, if_pos hcredit]
    exact ⟨fun _ _ => rfl, rfl, rfl⟩
  · have hflushed := (h.paid hcredit).right
    have hpending : (c.charged price).OnlyPending (5 :: blocks) :=
      Card.onlyPending_edit honly (by decide) _
    have hframe : Card.SameFrame c (c.charged price) :=
      Card.sameFrame_edit _ _ _
    have h45 : 4 ∉ 5 :: blocks := by
      simp [h4]
    rw [if_neg hcredit]
    refine ⟨fun u hu => hflushed.other (hframe.uid ▸ hu),
      hflushed.kept_of_not_mem hpending h45 _, ?_⟩
    have hblock := hflushed.credit hpending h45 (by simp)
    rw [hframe.uid, hframe.leaves, Card.charged, Card.edit_block_self] at hblock
    exact hblock

theorem Card.Flushed.ticketTaken {pass : Pass β} {c : Card β}
    {mem mem' : Uid -> Nat -> Bytes β 16}
    (h : Card.Flushed c.ticketTaken pass mem mem' 4 8)
    (hunmodified : c.Unmodified) {a : Nat} (ha : a ≠ 6) (u : Uid) :
    mem' u a = mem u a := by
  have hpending : c.ticketTaken.OnlyPending [6] :=
    Card.onlyPending_edit hunmodified.onlyPending (by decide) _
  exact h.kept_of_not_mem hpending (by simpa using ha) u

theorem Card.Flushed.toppedUp {pass : Pass β} {c : Card β} {amount : Rat}
    {mem mem' : Uid -> Nat -> Bytes β 16}
    (h : Card.Flushed (c.toppedUp amount) pass mem mem' 4 8)
    (hunmodified : c.Unmodified) :
    (forall u, u ≠ c.uid -> mem' u = mem u) ∧ mem' c.uid 4 = mem c.uid 4 ∧
      mem' c.uid 5 = c.leaves (pass 5) (mem c.uid 5)
        ((c.block 1 1).data.putCredit (amount + c.getCredit)) := by
  have hpending : (c.toppedUp amount).OnlyPending [5] :=
    Card.onlyPending_edit hunmodified.onlyPending (by decide) _
  have hframe : Card.SameFrame c (c.toppedUp amount) :=
    Card.sameFrame_edit _ _ _
  refine ⟨fun u hu => h.other (hframe.uid ▸ hu),
    h.kept_of_not_mem hpending (by decide) _, ?_⟩
  have hblock := h.credit hpending (by decide) (by decide)
  rw [hframe.uid, hframe.leaves, Card.toppedUp, Card.edit_block_self] at hblock
  exact hblock

section Record

variable {c : Card β}

theorem sameFrame_debitRecord (c : Card β) :
    Card.SameFrame c c.debitRecord :=
  ((Card.sameFrame_edit _ _ _).trans (Card.sameFrame_edit _ _ _)).trans
    (Card.sameFrame_edit _ _ _)

theorem pending_debitRecord (h : c.Unmodified) :
    c.debitRecord.OnlyPending [6, 5, 4] :=
  Card.onlyPending_edit
    (Card.onlyPending_edit
      (Card.onlyPending_edit h.onlyPending (by decide) _) (by decide) _)
    (by decide) _

theorem debitRecord_name (c : Card β) :
    (c.debitRecord.block 1 0).data =
      (c.block 1 0).data.putName (ascii "DEBIT") := by
  rw [Card.debitRecord, Card.edit_block_of_ne _ _ (by decide),
    Card.edit_block_of_ne _ _ (by decide), Card.editName,
    Card.edit_block_self]

theorem debitRecord_credit (c : Card β) :
    (c.debitRecord.block 1 1).data = (c.block 1 1).data.putCredit 0 := by
  rw [Card.debitRecord, Card.edit_block_of_ne _ _ (by decide),
    Card.edit_block_self, Card.editName,
    Card.edit_block_of_ne _ _ (by decide)]

theorem debitRecord_ticket (c : Card β) :
    (c.debitRecord.block 1 2).data =
      ((c.block 1 2).data.putFirst 0).putSecond 0 := by
  rw [Card.debitRecord, Card.edit_block_self,
    Card.edit_block_of_ne _ _ (by decide), Card.editName,
    Card.edit_block_of_ne _ _ (by decide)]

theorem debitRecord_modified (c : Card β) {k : Nat} (hk : k < 3) :
    (c.debitRecord.block 1 k).state = .modified := by
  have hcases : k = 0 ∨ k = 1 ∨ k = 2 := by
    omega
  rcases hcases with rfl | rfl | rfl
  · simp [Card.debitRecord, Card.editName, Card.edit_block]
  · simp [Card.debitRecord, Card.edit_block]
  · simp [Card.debitRecord]

/-- A block of the record is written unless the tag was lost before it. -/
theorem record_left {keys : Vec UInt8} {target : Target} {pass : Pass β}
    {mem mem' : Uid -> Nat -> Bytes β 16}
    (hframe : Card.SameFrame (Card.fresh target keys) c.debitRecord)
    (honly : c.debitRecord.OnlyPending [6, 5, 4])
    (h : Card.Flushed c.debitRecord pass mem mem' 4 8) {k : Nat} (hk : k < 3) :
    mem' target.uid (4 + k) =
      if exists b, b < k ∧ lostAt keys target pass (4 + b) = true then
        mem target.uid (4 + k)
      else left keys target pass (mem target.uid) (4 + k)
        (c.debitRecord.block 1 k).data := by
  have hlost : forall a, c.debitRecord.storeLost (pass a) =
      lostAt keys target pass a := fun a => hframe.storeLost (pass a)
  have hpending : forall b, b < 3 -> c.debitRecord.Pending (4 + b) := by
    intro b hb
    apply (honly _).mpr
    have hcases : 4 + b = 6 ∨ 4 + b = 5 ∨ 4 + b = 4 := by
      omega
    simpa using hcases
  have huid : c.debitRecord.uid = target.uid := hframe.uid
  split
  · rename_i hbefore
    rcases hbefore with ⟨b, hbk, hb⟩
    apply h.kept
    intro hboth
    have hstays := hboth.right.right.right.right (4 + b) (by omega) (by omega)
      (hpending b (by omega))
    rw [hlost, hb] at hstays
    cases hstays
  · rename_i hnone
    have hreach : c.debitRecord.WriteReaches pass 4 (4 + k) := by
      intro a hlow hhigh _
      rw [hlost]
      cases ha : lostAt keys target pass a with
      | false => rfl
      | true =>
          have heq : 4 + (a - 4) = a := by
            omega
          exact absurd ⟨a - 4, by omega, heq.symm ▸ ha⟩ hnone
    have hblock := h.reached (by omega) (by omega) (hpending k hk) hreach
    have haddress : c.debitRecord.blockAt (4 + k) =
        c.debitRecord.block 1 k :=
      c.debitRecord.blockAt_address 1 (by omega)
    rw [huid, haddress, leaves_eq_left hframe] at hblock
    exact hblock

theorem Card.Flushed.created {inp : Input β} {keys : Vec UInt8}
    {target : Target} {pass : Pass β} {mem mem' : Uid -> Nat -> Bytes β 16}
    (hpresented : Loop.Presented inp keys target (mem target.uid) c)
    (h : Card.Flushed c.debitRecord pass mem mem' 4 8) :
    (forall u, u ≠ target.uid -> mem' u = mem u) ∧
      mem' target.uid =
        created keys target pass (mem target.uid)
          (Loop.seen inp keys target (mem target.uid)) := by
  have hframe := hpresented.frame.trans (sameFrame_debitRecord c)
  have honly := pending_debitRecord hpresented.unmodified
  have huid : c.debitRecord.uid = target.uid := hframe.uid
  refine ⟨fun u hu => h.other (huid ▸ hu), ?_⟩
  funext a
  unfold BeeGadz.created
  split
  · rename_i ha
    subst ha
    have hleft := record_left hframe honly h (by decide : 0 < 3)
    rw [if_neg (by simp), debitRecord_name, hpresented.seen 0 (by decide)]
      at hleft
    exact hleft
  · split
    · rename_i ha
      subst ha
      have hleft := record_left hframe honly h (by decide : 1 < 3)
      rw [debitRecord_credit, hpresented.seen 1 (by decide)] at hleft
      simpa using hleft
    · split
      · rename_i ha
        subst ha
        have hleft := record_left hframe honly h (by decide : 2 < 3)
        rw [debitRecord_ticket, hpresented.seen 2 (by decide)] at hleft
        have htwo : (exists b, b < 2 ∧
            lostAt keys target pass (4 + b) = true) <->
              lostAt keys target pass 4 = true ∨
                lostAt keys target pass 5 = true := by
          constructor
          · intro hall
            rcases hall with ⟨b, hb, hlost⟩
            have hcases : b = 0 ∨ b = 1 := by
              omega
            rcases hcases with rfl | rfl
            · exact Or.inl hlost
            · exact Or.inr hlost
          · intro hlost
            cases hlost with
            | inl hlost => exact ⟨0, by decide, hlost⟩
            | inr hlost => exact ⟨1, by decide, hlost⟩
        rw [if_congr htwo rfl rfl] at hleft
        exact hleft
      · rename_i h4 h5 h6
        exact h.kept_of_not_mem honly (by simp [h4, h5, h6]) _

end Record

end Amounts

end BeeGadz
