import Mathlib.Algebra.Order.Ring.Rat
import BeeGadz.Admin
import BeeGadz.Foundation.Simulation
import BeeGadz.Stored

/-!
# The record as a whole

An abstract card record with its operations.  What the writers of the modes leave
on a card is the record that the same operations give, as long as every command
is accepted: the bytes that a role does not use are not looked at, and the ones
that it does use are written with it.
-/

namespace BeeGadz

open Foundation

inductive Record where
  | blank
  | admin
  | sos
  | conso (id : UInt8)
  | debit (credit : Rat) (tickets : List UInt8)

namespace Record

def role : Record -> Option Role
  | .blank => none
  | .admin => some .admin
  | .sos => some .sos
  | .conso _ => some .conso
  | .debit _ _ => some .debit

def consoId : Record -> Int
  | .conso id => id.toNat
  | _ => -1

def credit : Record -> Rat
  | .debit credit _ => credit
  | _ => 0

def tickets : Record -> List UInt8
  | .debit _ tickets => tickets
  | _ => []

theorem consoId_of_role {r : Record} (h : r.role ≠ some .conso) :
    r.consoId = -1 := by
  cases r with
  | conso id => exact absurd rfl h
  | _ => rfl

theorem credit_of_role {r : Record} (h : r.role ≠ some .debit) :
    r.credit = 0 := by
  cases r with
  | debit credit tickets => exact absurd rfl h
  | _ => rfl

theorem tickets_of_role {r : Record} (h : r.role ≠ some .debit) :
    r.tickets = [] := by
  cases r with
  | debit credit tickets => exact absurd rfl h
  | _ => rfl

end Record

/-!
## Operations
-/

inductive Deal where
  | increment (amount : Rat)
  | decrement (price : Rat)
  | takeTicket

/-- What is done with a card that is presented: a new role is written over
whatever it was, or over what was read of it, or its credit and tickets are
dealt with. -/
inductive Writer where
  | createAdmin
  | createConso (id : UInt8)
  | createSOS
  | createDebit (ticket : Option UInt8)
  | createDebitRead
  | serve (deals : List Deal)

namespace Deal

def onRecord : Deal -> Record -> Record
  | .increment amount, .debit credit tickets => .debit (credit + amount) tickets
  | .decrement price, .debit credit tickets => .debit (credit - price) tickets
  | .takeTicket, .debit credit tickets => .debit credit tickets.tail
  | _, r => r

def Allowed : Deal -> Record -> Prop
  | .increment _, _ => True
  | .decrement price, r => 0 ≤ price ∧ price ≤ r.credit
  | .takeTicket, _ => True

def onSession {β : Type} [FloatCell β] (deal : Deal) (s : Session β) :
    Session β :=
  match deal with
  | .increment amount =>
      (Session.incrementCredit Session.accepts amount s).2
  | .decrement price => (Session.decrementCredit Session.accepts price s).2
  | .takeTicket => (Session.decrementTicket Session.accepts s).2

end Deal

namespace Writer

def onRecord : Writer -> Record -> Record
  | .createAdmin, _ => .admin
  | .createConso id, _ => .conso id
  | .createSOS, _ => .sos
  | .createDebit ticket, _ => .debit 0 ticket.toList
  | .createDebitRead, _ => .debit 0 []
  | .serve deals, r => applyAll Deal.onRecord deals r

def Allowed : Writer -> Record -> Prop
  | .serve deals, r =>
      r.role = some .debit ∧ Permitted Deal.Allowed Deal.onRecord deals r
  | _, _ => True

def WritesRole : Writer -> Prop
  | .serve _ => False
  | _ => True

section Sessions

variable {β : Type} [FloatCell β]

def found (target : Target) (keys : Vec UInt8) (w : World β) : Session β :=
  ⟨Card.fresh target keys, w⟩

def read (target : Target) (keys : Vec UInt8) (w : World β) : Session β :=
  (Session.readSector Session.accepts 1 (found target keys w)).2

/-- The session after a writer was applied to the card of a target, every
command of it being accepted. -/
def onCard (target : Target) (keys : Vec UInt8) (w : World β) :
    Writer -> Session β
  | .createAdmin =>
      (Session.createAdmin Session.accepts (found target keys w)).2
  | .createConso id =>
      (Session.createConso Session.accepts id (found target keys w)).2
  | .createSOS => (Session.createSOS Session.accepts (found target keys w)).2
  | .createDebit none =>
      (Session.createDebit Session.accepts (found target keys w)).2
  | .createDebit (some id) =>
      (Session.setTicket Session.accepts id
        (Session.createDebit Session.accepts (found target keys w)).2).2
  | .createDebitRead =>
      (Session.createDebit Session.accepts (read target keys w)).2
  | .serve deals => applyAll Deal.onSession deals (read target keys w)

end Sessions

end Writer

/-- A writer, and the keys with which the card was found. -/
structure Visit where
  keys : Vec UInt8
  writer : Writer

namespace Visit

def onRecord (visit : Visit) (r : Record) : Record :=
  visit.writer.onRecord r

def Allowed (visit : Visit) (r : Record) : Prop :=
  visit.writer.Allowed r

def onWorld {β : Type} [FloatCell β] (target : Target) (visit : Visit)
    (w : World β) : World β :=
  (Writer.onCard target visit.keys w visit.writer).world

end Visit

/-!
## The record of a card
-/

namespace Memory

variable {β : Type}

def role [Cell β] (m : Memory β) : Option Role :=
  [Role.admin, Role.sos, Role.debit, Role.conso].find? fun r => m.Says r

def record [FloatCell β] (m : Memory β) : Record :=
  match m.role with
  | none => .blank
  | some .admin => .admin
  | some .sos => .sos
  | some .conso => .conso (m 5).first
  | some .debit =>
      .debit (m 5).credit (List.replicate (m 6).first.toNat (m 6).second)

theorem role_eq_some [Cell β] {m : Memory β} {r : Role} :
    m.role = some r <-> m.Says r := by
  constructor
  · intro h
    simpa using List.find?_some h
  · intro h
    have hfound : m.role.isSome = true := by
      rw [role, List.find?_isSome]
      exact ⟨r, by cases r <;> simp, by simpa using h⟩
    rcases Option.isSome_iff_exists.mp hfound with ⟨other, hother⟩
    have hsay : m.Says other := by
      simpa using List.find?_some hother
    rw [hother, hsay.unique h]

variable [FloatCell β] {m : Memory β}

theorem record_role (m : Memory β) : m.record.role = m.role := by
  unfold record
  cases m.role with
  | none => rfl
  | some r => cases r <;> rfl

theorem record_of_admin (h : m.Says .admin) : m.record = .admin := by
  rw [record, role_eq_some.mpr h]

theorem record_of_sos (h : m.Says .sos) : m.record = .sos := by
  rw [record, role_eq_some.mpr h]

theorem record_of_conso (h : m.Says .conso) :
    m.record = .conso (m 5).first := by
  rw [record, role_eq_some.mpr h]

theorem record_of_debit (h : m.Says .debit) :
    m.record = .debit (m 5).credit
      (List.replicate (m 6).first.toNat (m 6).second) := by
  rw [record, role_eq_some.mpr h]

end Memory

/-!
## Decoding
-/

structure Card.Shows {β : Type} [FloatCell β] (c : Card β) (r : Record) :
    Prop where
  isAdmin : forall w : World β,
    (Session.isAdmin ⟨c, w⟩).1 = .ok (decide (r.role = some .admin))
  isSOS : c.isSOS <-> r.role = some .sos
  isDebit : c.isDebit <-> r.role = some .debit
  isConso : c.isConso <-> r.role = some .conso
  getConso : c.getConso = r.consoId
  getCredit : c.getCredit = r.credit
  hasTicket : c.hasTicket <-> r.tickets ≠ []
  getTicket : c.getTicket = r.tickets.headD 0

structure Session.Mirrors {β : Type} (target : Target) (s : Session β) :
    Prop where
  classic : s.card.Classic
  uid : s.card.uid = target.uid
  blocks : forall k, k < 3 ->
    (s.card.block 1 k).data = s.world.mem target.uid (4 + k)

namespace Session.Mirrors

variable {β : Type} [FloatCell β] {target : Target} {s : Session β}

theorem says_iff (h : s.Mirrors target) (r : Role) :
    (s.card.block 1 0).data.Says r <->
      Memory.Says (s.world.mem target.uid) r := by
  rw [h.blocks 0 (by decide)]
  rfl

theorem isDebit_iff (h : s.Mirrors target) :
    s.card.isDebit <-> Memory.Says (s.world.mem target.uid) .debit :=
  s.card.isDebit_iff.trans (h.says_iff .debit)

theorem getCredit (h : s.Mirrors target)
    (hsay : Memory.Says (s.world.mem target.uid) .debit) :
    s.card.getCredit = (s.world.mem target.uid 5).credit := by
  rw [Card.getCredit, if_pos (h.isDebit_iff.mpr hsay),
    h.blocks 1 (by decide)]

theorem hasTicket_iff (h : s.Mirrors target)
    (hsay : Memory.Says (s.world.mem target.uid) .debit) :
    s.card.hasTicket <-> (s.world.mem target.uid 6).first ≠ 0 := by
  rw [Card.hasTicket, h.blocks 2 (by decide)]
  exact and_iff_right (h.isDebit_iff.mpr hsay)

theorem role_iff (h : s.Mirrors target) (r : Role) :
    (s.card.block 1 0).data.Says r <->
      (Memory.record (s.world.mem target.uid)).role = some r := by
  rw [Memory.record_role, Memory.role_eq_some, h.says_iff]

theorem getConso (h : s.Mirrors target) :
    s.card.getConso = (Memory.record (s.world.mem target.uid)).consoId := by
  have hrole := s.card.isConso_iff.trans (h.role_iff .conso)
  unfold Card.getConso
  by_cases hconso : s.card.isConso
  · have hsay := (h.says_iff .conso).mp (s.card.isConso_iff.mp hconso)
    rw [if_pos hconso, h.blocks 1 (by decide), Memory.record_of_conso hsay]
    rfl
  · rw [if_neg hconso, Record.consoId_of_role fun heq =>
      hconso (hrole.mpr heq)]

theorem ticket_shown (h : s.Mirrors target) :
    (s.card.hasTicket <->
      (Memory.record (s.world.mem target.uid)).tickets ≠ []) ∧
      s.card.getTicket =
        (Memory.record (s.world.mem target.uid)).tickets.headD 0 := by
  unfold Card.getTicket
  by_cases hdebit : s.card.isDebit
  · have hsay := h.isDebit_iff.mp hdebit
    have hticket := h.hasTicket_iff hsay
    rw [Memory.record_of_debit hsay, h.blocks 2 (by decide)]
    by_cases hfirst : (s.world.mem target.uid 6).first = 0
    · have hnone : ¬ s.card.hasTicket := fun hsome =>
        hticket.mp hsome hfirst
      rw [if_neg hnone, hfirst]
      exact ⟨⟨fun hsome => absurd hsome hnone, fun hne => absurd rfl hne⟩, rfl⟩
    · have hsome := hticket.mpr hfirst
      have hpos : (s.world.mem target.uid 6).first.toNat ≠ 0 := fun hzero =>
        hfirst (UInt8.toNat_inj.mp hzero)
      rcases Nat.exists_eq_succ_of_ne_zero hpos with ⟨n, hn⟩
      rw [if_pos hsome, hn]
      exact ⟨⟨fun _ => List.cons_ne_nil _ _, fun _ => hsome⟩, rfl⟩
  · have hnone : ¬ s.card.hasTicket := fun hsome => hdebit hsome.left
    have hrole := s.card.isDebit_iff.trans (h.role_iff .debit)
    rw [if_neg hnone, Record.tickets_of_role fun heq =>
      hdebit (hrole.mpr heq)]
    exact ⟨⟨fun hsome => absurd hsome hnone, fun hne => absurd rfl hne⟩, rfl⟩

theorem shows (h : s.Mirrors target) :
    s.card.Shows (Memory.record (s.world.mem target.uid)) where
  isAdmin := by
    intro w
    have hrole := s.card.testCard_admin_iff.trans (h.role_iff .admin)
    have hrun : Session.isAdmin ⟨s.card, w⟩ =
        (if s.card.testCard "ADMIN" then do
          onWorld (setMode .admin)
          pure true
        else pure false : SessionM β Bool) ⟨s.card, w⟩ := rfl
    rw [hrun, ← decide_eq_decide.mpr hrole]
    split
    · rename_i hadmin
      rw [decide_eq_true hadmin]
      rfl
    · rename_i hadmin
      rw [decide_eq_false hadmin]
      rfl
  isSOS := s.card.isSOS_iff.trans (h.role_iff .sos)
  isDebit := s.card.isDebit_iff.trans (h.role_iff .debit)
  isConso := s.card.isConso_iff.trans (h.role_iff .conso)
  getConso := h.getConso
  getCredit := by
    have hrole := s.card.isDebit_iff.trans (h.role_iff .debit)
    by_cases hdebit : s.card.isDebit
    · have hsay := h.isDebit_iff.mp hdebit
      rw [h.getCredit hsay, Memory.record_of_debit hsay]
      rfl
    · rw [Card.getCredit, if_neg hdebit, Record.credit_of_role fun heq =>
        hdebit (hrole.mpr heq)]
  hasTicket := h.ticket_shown.left
  getTicket := h.ticket_shown.right

end Session.Mirrors

/-!
## Reading and writing
-/

namespace Session

variable {β : Type} [FloatCell β] {target : Target}

theorem read_mirrors (target : Target) (keys : Vec UInt8) (w : World β) :
    exists s' : Session β,
      s'.Mirrors target ∧ s'.world.mem = w.mem ∧
        readSector accepts 1 (Writer.found target keys w) =
          (.ok true, s') := by
  rcases readSector_run accepts (by decide : 1 < 16)
      (Card.classic_fresh target keys) w with ⟨c, hframe, hrefreshed, hrun⟩
  have hkept := Card.readLost_accepts (Card.fresh target keys : Card β) 4 4
  have hpresented : Loop.Presented Input.idle keys target
      (w.mem target.uid) c :=
    Loop.presented_of_refreshed hframe hrefreshed hkept
  rw [if_neg (by rw [hkept]; decide)] at hrun
  refine ⟨_, ⟨hpresented.classic, hpresented.uid, ?_⟩, rfl, hrun⟩
  intro k hk
  rw [hpresented.seen k (by omega)]
  exact Loop.seen_of_loaded _ (Card.readResult_accepting _)

/-- The record of a card has been written over what was on it. -/
structure Wrote (c : Card β) (w : World β) (s' : Session β) : Prop where
  frame : Card.SameFrame c s'.card
  blocks : Card.SameBlocks c s'.card
  memory : forall k, k < 3 ->
    s'.world.mem c.uid (4 + k) =
      if (c.block 1 k).state = .modified then (c.block 1 k).data
      else w.mem c.uid (4 + k)

theorem writeCard_accepts {c : Card β} (hc : c.Classic) (w : World β) :
    exists s' : Session β,
      Wrote c w s' ∧ writeCard accepts ⟨c, w⟩ = (.ok (), s') := by
  rcases writeCard_run accepts hc w with
    ⟨c', w', hframe, hblocks, hflushed, _, hrun⟩
  refine ⟨⟨c', w'⟩, ⟨hframe, hblocks, ?_⟩, hrun⟩
  intro k hk
  have haddress : c.blockAt (4 + k) = c.block 1 k :=
    c.blockAt_address 1 (by omega)
  split
  · rename_i hmodified
    have hpending : c.Pending (4 + k) := by
      rw [Card.Pending, haddress]
      exact hmodified
    have hwritten := hflushed.written (4 + k)
      ((Card.writes_accepts c 4 8 (4 + k)).mpr ⟨by omega, by omega, hpending⟩)
    rw [hwritten, haddress]
    exact Card.leaves_accepting _ _ _
  · rename_i hmodified
    apply hflushed.unmodified
    rw [Card.Pending, haddress]
    exact hmodified

theorem editCard_accepts (f : Card β -> Card β) {c : Card β}
    (hc : c.Classic) (hf : Card.SameFrame c (f c)) (w : World β) :
    exists s' : Session β,
      Wrote (f c) w s' ∧
        (do
          modifyCard f
          writeCard accepts : SessionM β Unit) ⟨c, w⟩ = (.ok (), s') := by
  rcases writeCard_accepts (hc.of_sameFrame hf) w with ⟨s', hwrote, hrun⟩
  refine ⟨s', hwrote, ?_⟩
  rw [Prog.bind_of_ok _ (modifyCard_apply f c w), hrun]

omit [FloatCell β] in
/-- A record that is all modified or already on the card is on it after it was
written. -/
theorem Wrote.mirrors {c : Card β} {w : World β} {s' : Session β}
    (h : Wrote c w s') (hc : c.Classic) (huid : c.uid = target.uid)
    (hblocks : forall k, k < 3 ->
      (c.block 1 k).state = .modified ∨
        (c.block 1 k).data = w.mem target.uid (4 + k)) :
    s'.Mirrors target ∧
      forall k, k < 3 ->
        s'.world.mem target.uid (4 + k) = (c.block 1 k).data := by
  have hmemory : forall k, k < 3 ->
      s'.world.mem target.uid (4 + k) = (c.block 1 k).data := by
    intro k hk
    have hleft := h.memory k hk
    rw [huid] at hleft
    rw [hleft]
    split
    · rfl
    · rename_i hkept
      exact ((hblocks k hk).resolve_left hkept).symm
  refine ⟨⟨hc.of_sameFrame h.frame, h.frame.uid.trans huid, ?_⟩, hmemory⟩
  intro k hk
  rw [h.blocks 1 k, hmemory k hk]

theorem edit_mirrors {s : Session β} (hs : s.Mirrors target) {k : Nat}
    (f : Bytes β 16 -> Bytes β 16) :
    exists s' : Session β,
      s'.Mirrors target ∧
        (forall j, j < 3 ->
          s'.world.mem target.uid (4 + j) =
            if j = k then f (s.world.mem target.uid (4 + j))
            else s.world.mem target.uid (4 + j)) ∧
        (do
          modifyCard fun c => c.edit k f
          writeCard accepts : SessionM β Unit) s = (.ok (), s') := by
  rcases editCard_accepts (fun c => c.edit k f) hs.classic
      (Card.sameFrame_edit _ _ _) s.world with ⟨s', hwrote, hrun⟩
  have hedited : forall j, j < 3 ->
      ((s.card.edit k f).block 1 j).data =
        if j = k then f (s.world.mem target.uid (4 + j))
        else s.world.mem target.uid (4 + j) := by
    intro j hj
    rw [← hs.blocks j hj]
    split
    · rename_i heq
      rw [heq, Card.edit_block_self]
    · rename_i hne
      rw [Card.edit_block_of_ne _ _ hne]
  have hclassic : (s.card.edit k f).Classic :=
    hs.classic.of_sameFrame (Card.sameFrame_edit _ _ _)
  have hblocks : forall j, j < 3 ->
      ((s.card.edit k f).block 1 j).state = .modified ∨
        ((s.card.edit k f).block 1 j).data =
          s.world.mem target.uid (4 + j) := by
    intro j hj
    by_cases heq : j = k
    · exact Or.inl (by rw [heq, Card.edit_block_self])
    · exact Or.inr (by rw [hedited j hj, if_neg heq])
  rcases hwrote.mirrors hclassic hs.uid hblocks with ⟨hmirrors, hmemory⟩
  refine ⟨s', hmirrors, ?_, hrun⟩
  intro j hj
  rw [hmemory j hj, hedited j hj]

/-!
## Deals
-/

theorem edit_debit {s : Session β} (hs : s.Mirrors target)
    (hsay : Memory.Says (s.world.mem target.uid) .debit) {k : Nat}
    (hk : 0 ≠ k) (f : Bytes β 16 -> Bytes β 16) :
    exists s' : Session β,
      s'.Mirrors target ∧
        Memory.record (s'.world.mem target.uid) =
          (let credit := s.world.mem target.uid 5
           let ticket := s.world.mem target.uid 6
           .debit (if 1 = k then f credit else credit).credit
            (List.replicate (if 2 = k then f ticket else ticket).first.toNat
              (if 2 = k then f ticket else ticket).second)) ∧
        (do
          modifyCard fun c => c.edit k f
          writeCard accepts : SessionM β Unit) s = (.ok (), s') := by
  rcases edit_mirrors (k := k) hs f with ⟨s', hmirrors, hmemory, hrun⟩
  refine ⟨s', hmirrors, ?_, hrun⟩
  have hname := hmemory 0 (by decide)
  have hcredit := hmemory 1 (by decide)
  have hticket := hmemory 2 (by decide)
  simp only [Nat.reduceAdd, Nat.add_zero, if_neg hk] at hname hcredit hticket
  have hafter : Memory.Says (s'.world.mem target.uid) .debit := by
    rw [Memory.Says, hname]
    exact hsay
  rw [Memory.record_of_debit hafter, hcredit, hticket]

theorem edit_credit {s : Session β} (hs : s.Mirrors target)
    (hsay : Memory.Says (s.world.mem target.uid) .debit)
    (f : Bytes β 16 -> Bytes β 16) :
    exists s' : Session β,
      s'.Mirrors target ∧
        Memory.record (s'.world.mem target.uid) =
          .debit (f (s.world.mem target.uid 5)).credit
            (Memory.record (s.world.mem target.uid)).tickets ∧
        (do
          modifyCard fun c => c.edit 1 f
          writeCard accepts : SessionM β Unit) s = (.ok (), s') := by
  rw [Memory.record_of_debit hsay]
  exact edit_debit hs hsay (by decide : 0 ≠ 1) f

theorem edit_ticket {s : Session β} (hs : s.Mirrors target)
    (hsay : Memory.Says (s.world.mem target.uid) .debit)
    (f : Bytes β 16 -> Bytes β 16) :
    exists s' : Session β,
      s'.Mirrors target ∧
        Memory.record (s'.world.mem target.uid) =
          .debit (Memory.record (s.world.mem target.uid)).credit
            (List.replicate (f (s.world.mem target.uid 6)).first.toNat
              (f (s.world.mem target.uid 6)).second) ∧
        (do
          modifyCard fun c => c.edit 2 f
          writeCard accepts : SessionM β Unit) s = (.ok (), s') := by
  rw [Memory.record_of_debit hsay]
  exact edit_debit hs hsay (by decide : 0 ≠ 2) f

structure Holds (target : Target) (s : Session β) (r : Record) : Prop where
  mirrors : s.Mirrors target
  record : Memory.record (s.world.mem target.uid) = r
  debit : r.role = some .debit

theorem Holds.says {s : Session β} {r : Record} (h : s.Holds target r) :
    Memory.Says (s.world.mem target.uid) .debit := by
  apply Memory.role_eq_some.mp
  rw [← Memory.record_role, h.record, h.debit]

theorem Holds.credit {s : Session β} {r : Record} (h : s.Holds target r) :
    s.card.getCredit = r.credit :=
  h.record ▸ h.mirrors.shows.getCredit

variable [ExactFloat β]

theorem increment_simulates {s : Session β} {r : Record}
    (h : s.Holds target r) (amount : Rat) :
    (Deal.onSession (.increment amount) s).Holds target
      (Deal.onRecord (.increment amount) r) := by
  cases r with
  | debit credit tickets =>
      by_cases hzero : amount = 0
      · subst hzero
        have hrun : Deal.onSession (.increment 0) s = s := by
          simp [Deal.onSession, incrementCredit]
        rw [hrun, Deal.onRecord, add_zero]
        exact h
      · rcases edit_credit h.mirrors h.says
          (fun data => data.putCredit (amount + s.card.getCredit)) with
          ⟨s', hmirrors, hrecord, hrun⟩
        have hafter : Deal.onSession (.increment amount) s = s' := by
          rw [Deal.onSession, incrementCredit, if_neg hzero,
            Prog.bind_of_ok _ (getCard_apply s.card s.world)]
          exact congrArg Prod.snd hrun
        rw [hafter]
        refine ⟨hmirrors, ?_, rfl⟩
        rw [hrecord, Bytes.credit_putCredit, h.credit, h.record, add_comm]
        rfl
  | _ => cases h.debit

theorem decrement_simulates {s : Session β} {r : Record}
    (h : s.Holds target r) {price : Rat} (hnonneg : 0 ≤ price)
    (hcovers : price ≤ r.credit) :
    (Deal.onSession (.decrement price) s).Holds target
      (Deal.onRecord (.decrement price) r) := by
  cases r with
  | debit credit tickets =>
      by_cases hzero : s.card.getCredit = 0
      · have hrun : Deal.onSession (.decrement price) s = s := by
          rw [Deal.onSession, decrementCredit,
            Prog.bind_of_ok _ (getCard_apply s.card s.world)]
          simp only [hzero, if_true, Prog.pure_apply]
        -- the credit is 0, so the price is
        have hprice : price = 0 := by
          rw [← h.credit, hzero] at hcovers
          exact le_antisymm hcovers hnonneg
        rw [hrun, hprice, Deal.onRecord, sub_zero]
        exact h
      · rcases edit_credit h.mirrors h.says
          (fun data => data.putCredit (s.card.getCredit - price)) with
          ⟨s', hmirrors, hrecord, hrun⟩
        have hafter : Deal.onSession (.decrement price) s = s' := by
          rw [Deal.onSession, decrementCredit,
            Prog.bind_of_ok _ (getCard_apply s.card s.world)]
          simp only [hzero, if_false]
          exact congrArg Prod.snd hrun
        rw [hafter]
        refine ⟨hmirrors, ?_, rfl⟩
        rw [hrecord, Bytes.credit_putCredit, h.credit, h.record]
        rfl
  | _ => cases h.debit

omit [FloatCell β] [ExactFloat β] in
theorem replicate_taken [Cell β] (data : Bytes β 16) :
    List.replicate
        (if data.first ≠ 0 then data.putFirst (data.first - 1)
          else data).first.toNat
        (if data.first ≠ 0 then data.putFirst (data.first - 1)
          else data).second =
      (List.replicate data.first.toNat data.second).tail := by
  rw [List.tail_replicate]
  by_cases hfirst : data.first = 0
  · simp [hfirst]
  · have hpos : data.first.toNat ≠ 0 := fun hzero =>
      hfirst (UInt8.toNat_inj.mp hzero)
    have hle : (1 : UInt8) ≤ data.first := by
      rw [UInt8.le_iff_toNat_le]
      exact Nat.one_le_iff_ne_zero.mpr hpos
    rw [if_pos hfirst, Bytes.first_putFirst, Bytes.second_putFirst,
      UInt8.toNat_sub_of_le _ _ hle]
    rfl

omit [ExactFloat β] in
theorem takeTicket_simulates {s : Session β} {r : Record}
    (h : s.Holds target r) :
    (Deal.onSession .takeTicket s).Holds target
      (Deal.onRecord .takeTicket r) := by
  rcases edit_ticket h.mirrors h.says (fun data =>
      if data.first ≠ 0 then data.putFirst (data.first - 1) else data) with
    ⟨s', hmirrors, hrecord, hrun⟩
  have hafter : Deal.onSession .takeTicket s = s' :=
    congrArg Prod.snd hrun
  rw [hafter]
  cases r with
  | debit credit tickets =>
      have htickets : List.replicate (s.world.mem target.uid 6).first.toNat
          (s.world.mem target.uid 6).second = tickets := by
        have hrecord := Memory.record_of_debit h.says
        rw [h.record] at hrecord
        injection hrecord with _ htickets
        exact htickets.symm
      refine ⟨hmirrors, ?_, rfl⟩
      rw [hrecord, replicate_taken, htickets, h.record]
      rfl
  | _ => cases h.debit

theorem deal_simulates (deal : Deal) (s : Session β) (r : Record)
    (h : s.Holds target r) (hallowed : deal.Allowed r) :
    (deal.onSession s).Holds target (deal.onRecord r) := by
  cases deal with
  | increment amount => exact increment_simulates h amount
  | decrement price =>
      exact decrement_simulates h hallowed.left hallowed.right
  | takeTicket => exact takeTicket_simulates h

/-!
## Writers
-/

omit [FloatCell β] [ExactFloat β] in
theorem Wrote.role [Cell β] {c : Card β} {w : World β} {s' : Session β}
    (h : Wrote c w s') (r : Role) {data : Bytes β 16}
    (hname : c.block 1 0 = ⟨data.putName (ascii r.name), .modified⟩) :
    Memory.Says (s'.world.mem c.uid) r := by
  have hblock := h.memory 0 (by decide)
  rw [hname, if_pos rfl] at hblock
  rw [Memory.Says, hblock]
  exact Bytes.says_putName _ _

theorem createDebit_holds {c : Card β} (hc : c.Classic)
    (huid : c.uid = target.uid) (w : World β) :
    exists s' : Session β,
      s'.Holds target (.debit 0 []) ∧
        createDebit accepts ⟨c, w⟩ = (.ok (), s') := by
  have hframe := sameFrame_debitRecord c
  rcases editCard_accepts Card.debitRecord hc hframe w with
    ⟨s', hwrote, hrun⟩
  rcases hwrote.mirrors (hc.of_sameFrame hframe) (hframe.uid.trans huid)
      (fun k hk => Or.inl (debitRecord_modified c hk)) with
    ⟨hmirrors, hmemory⟩
  refine ⟨s', ⟨hmirrors, ?_, rfl⟩, hrun⟩
  have hname := hmemory 0 (by decide)
  have hcredit := hmemory 1 (by decide)
  have hticket := hmemory 2 (by decide)
  rw [debitRecord_name] at hname
  rw [debitRecord_credit] at hcredit
  rw [debitRecord_ticket] at hticket
  have hsay : Memory.Says (s'.world.mem target.uid) .debit := by
    rw [Memory.Says, hname]
    exact Bytes.says_putName _ .debit
  rw [Memory.record_of_debit hsay, hcredit, hticket, Bytes.credit_putCredit,
    Bytes.first_putSecond, Bytes.first_putFirst]
  rfl

omit [ExactFloat β] in
theorem setTicket_holds {s : Session β} (h : s.Holds target (.debit 0 []))
    (id : UInt8) :
    exists s' : Session β,
      s'.Holds target (.debit 0 [id]) ∧
        setTicket accepts id s = (.ok (), s') := by
  rcases edit_ticket h.mirrors h.says
      (fun data => (data.putFirst 1).putSecond id) with
    ⟨s', hmirrors, hrecord, hrun⟩
  refine ⟨s', ⟨hmirrors, ?_, rfl⟩, hrun⟩
  rw [hrecord, h.record, Bytes.first_putSecond, Bytes.first_putFirst,
    Bytes.second_putSecond]
  rfl

end Session

namespace Writer

open Session

variable {β : Type} [FloatCell β]

theorem createAdmin_record (target : Target) (keys : Vec UInt8)
    (w : World β) :
    Memory.record
        ((onCard target keys w .createAdmin).world.mem target.uid) =
      .admin := by
  rcases editCard_accepts (fun c => c.editName "ADMIN")
      (Card.classic_fresh target keys) (Card.sameFrame_edit _ _ _) w with
    ⟨s', hwrote, hrun⟩
  have hafter : onCard target keys w .createAdmin = s' :=
    congrArg Prod.snd hrun
  rw [hafter]
  exact Memory.record_of_admin
    (hwrote.role .admin (Card.edit_block_self _ _ _))

theorem createSOS_record (target : Target) (keys : Vec UInt8) (w : World β) :
    Memory.record
        ((onCard target keys w .createSOS).world.mem target.uid) = .sos := by
  rcases editCard_accepts (fun c => c.editName "SOS")
      (Card.classic_fresh target keys) (Card.sameFrame_edit _ _ _) w with
    ⟨s', hwrote, hrun⟩
  have hafter : onCard target keys w .createSOS = s' :=
    congrArg Prod.snd hrun
  rw [hafter]
  exact Memory.record_of_sos (hwrote.role .sos (Card.edit_block_self _ _ _))

theorem createConso_record (target : Target) (keys : Vec UInt8) (w : World β)
    (id : UInt8) :
    Memory.record
        ((onCard target keys w (.createConso id)).world.mem target.uid) =
      .conso id := by
  rcases editCard_accepts (fun c => c.consoRecord id)
      (Card.classic_fresh target keys)
      ((Card.sameFrame_edit _ _ _).trans (Card.sameFrame_edit _ _ _)) w with
    ⟨s', hwrote, hrun⟩
  have hafter : onCard target keys w (.createConso id) = s' :=
    congrArg Prod.snd hrun
  have hsay : Memory.Says (s'.world.mem target.uid) .conso := by
    apply hwrote.role .conso
    rw [Card.consoRecord, Card.edit_block_of_ne _ _ (by decide),
      Card.editName, Card.edit_block_self]
    rfl
  have hid := hwrote.memory 1 (by decide)
  rw [Card.consoRecord, Card.edit_block_self, if_pos rfl] at hid
  have hfirst : (s'.world.mem target.uid 5).first = id := by
    have hblock := congrArg Bytes.first hid
    rwa [Bytes.first_putFirst] at hblock
  rw [hafter, Memory.record_of_conso hsay, hfirst]

variable [ExactFloat β]

theorem createDebit_record (target : Target) (keys : Vec UInt8)
    (w : World β) (ticket : Option UInt8) :
    Memory.record
        ((onCard target keys w (.createDebit ticket)).world.mem target.uid) =
      .debit 0 ticket.toList := by
  have huid : (Card.fresh target keys : Card β).uid = target.uid := rfl
  rcases createDebit_holds (Card.classic_fresh target keys) huid w with
    ⟨s', hholds, hrun⟩
  have hcreated : (Session.createDebit accepts (found target keys w)).2 =
      s' :=
    congrArg Prod.snd hrun
  cases ticket with
  | none =>
      rw [onCard, hcreated]
      exact hholds.record
  | some id =>
      rcases setTicket_holds hholds id with ⟨s'', hholds', hrun'⟩
      have hafter : onCard target keys w (.createDebit (some id)) = s'' := by
        rw [onCard, hcreated, hrun']
      rw [hafter]
      exact hholds'.record

theorem createDebitRead_record (target : Target) (keys : Vec UInt8)
    (w : World β) :
    Memory.record
        ((onCard target keys w .createDebitRead).world.mem target.uid) =
      .debit 0 [] := by
  rcases read_mirrors target keys w with ⟨s, hmirrors, _, hrun⟩
  rcases createDebit_holds hmirrors.classic hmirrors.uid s.world with
    ⟨s', hholds, hcreate⟩
  have hs : read target keys w = s := congrArg Prod.snd hrun
  have hafter : onCard target keys w .createDebitRead = s' := by
    rw [onCard, hs]
    exact congrArg Prod.snd hcreate
  rw [hafter]
  exact hholds.record

/-- What a writer leaves on the card is what the operation makes of the record
that was on it. -/
theorem onWorld_simulates (target : Target) (visit : Visit) (w : World β)
    (r : Record) (h : Memory.record (w.mem target.uid) = r)
    (hallowed : visit.Allowed r) :
    Memory.record ((visit.onWorld target w).mem target.uid) =
      visit.onRecord r := by
  rcases visit with ⟨keys, writer⟩
  rcases read_mirrors target keys w with ⟨s, hmirrors, hmem, hrun⟩
  have hs : read target keys w = s := congrArg Prod.snd hrun
  show Memory.record ((onCard target keys w writer).world.mem target.uid) =
    writer.onRecord r
  cases writer with
  | createAdmin => exact createAdmin_record target keys w
  | createConso id => exact createConso_record target keys w id
  | createSOS => exact createSOS_record target keys w
  | createDebit ticket => exact createDebit_record target keys w ticket
  | createDebitRead => exact createDebitRead_record target keys w
  | serve deals =>
      have hholds : s.Holds target r :=
        ⟨hmirrors, by rw [hmem, h], hallowed.left⟩
      have hserved := applyAll_simulates deal_simulates hholds hallowed.right
      rw [← hs] at hserved
      exact hserved.record

omit [ExactFloat β] in
theorem onRecord_same {writer : Writer} (h : writer.WritesRole)
    (r r' : Record) : writer.onRecord r = writer.onRecord r' := by
  cases writer with
  | serve deals => exact absurd h id
  | _ => rfl

end Writer

/-- Writers that are applied to a card, at least one of them writing a role,
leave a card that is read as the abstract record after the same operations,
whatever the record was before. -/
theorem record_round_trip {β : Type} [FloatCell β] [ExactFloat β]
    (target : Target) (keys : Vec UInt8) (visits : List Visit) (w : World β)
    (hallowed : Permitted Visit.Allowed Visit.onRecord visits
      (Memory.record (w.mem target.uid)))
    (hrole : exists visit, visit ∈ visits ∧ visit.writer.WritesRole)
    (r : Record) :
    exists s' : Session β,
      Session.readSector Session.accepts 1
          (Writer.found target keys
            (applyAll (Visit.onWorld target) visits w)) = (.ok true, s') ∧
        s'.card.Shows (applyAll Visit.onRecord visits r) := by
  let last := applyAll (Visit.onWorld target) visits w
  have hlast : Memory.record (last.mem target.uid) =
      applyAll Visit.onRecord visits (Memory.record (w.mem target.uid)) :=
    applyAll_simulates
      (R := fun (w : World β) r => Memory.record (w.mem target.uid) = r)
      (Writer.onWorld_simulates target) rfl hallowed
  rcases hrole with ⟨visit, hmem, hwrites⟩
  have hforgets : applyAll Visit.onRecord visits
      (Memory.record (w.mem target.uid)) =
        applyAll Visit.onRecord visits r :=
    applyAll_forgets hmem (Writer.onRecord_same hwrites) _ _
  rcases Session.read_mirrors target keys last with
    ⟨s', hmirrors, hkept, hrun⟩
  refine ⟨s', hrun, ?_⟩
  have hshows := hmirrors.shows
  rw [hkept, hlast, hforgets] at hshows
  exact hshows

/-- A CONSO card is made a DEBIT card, which is topped up and charged. -/
theorem record_round_trip_of_five :
    let target : Target := ⟨fun _ => 1, 0x4⟩
    let keys : Vec UInt8 := Vec.replicate 6 0xff
    let visits : List Visit :=
      [⟨keys, .createConso 1⟩, ⟨keys, .createDebit (some 2)⟩,
        ⟨keys, .serve [.increment 5, .takeTicket, .decrement 3]⟩]
    exists s' : Session Rat,
      Session.readSector Session.accepts 1
          (Writer.found target keys
            (applyAll (Visit.onWorld target) visits
              (World.start (fun _ _ _ => 0) .admin))) = (.ok true, s') ∧
        s'.card.Shows (.debit (0 + 5 - 3) []) := by
  intro target keys visits
  apply record_round_trip target keys visits
  · exact ⟨trivial, trivial, ⟨rfl, trivial, trivial, ⟨by decide +kernel,
      by decide +kernel⟩, trivial⟩, trivial⟩
  · exact ⟨_, List.mem_cons_self, trivial⟩
  · exact .blank

end BeeGadz
