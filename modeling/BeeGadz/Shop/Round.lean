import BeeGadz.Absent
import BeeGadz.Sale
import BeeGadz.Shop.Books

/-!
# A round and the books

The entries that a round makes, computed from the records of the cards, from the
keyboard and from the card that arrives.  With a reader that accepts everything a
round does to the cards and sends to the databases what its entries say.
-/

namespace BeeGadz

open Foundation

/-!
## Books of a world
-/

def shopOf {β : Type} [FloatCell β] (mem : Uid -> Memory β) : Shop :=
  fun uid => Memory.record (mem uid)

def World.shop {β : Type} [FloatCell β] (w : World β) : Shop :=
  shopOf w.mem

structure Enters {β : Type} [FloatCell β] (entries : List Entry)
    (mem mem' : Uid -> Memory β) : Prop where
  allowed : Books.Allowed entries (shopOf mem)
  shop : shopOf mem' = Books.apply entries (shopOf mem)

/-- From `w` to `w'` the cards and the history change by the entries. -/
structure World.Books {β : Type} [FloatCell β] (entries : List Entry)
    (w w' : World β) : Prop where
  cards : Enters entries w.mem w'.mem
  rows : rows w'.log = BeeGadz.rows w.log ++ BeeGadz.Books.posted entries

section Enters

variable {β : Type} [FloatCell β] {mem mem' mem'' : Uid -> Memory β}

theorem enters_nil (mem : Uid -> Memory β) : Enters [] mem mem where
  allowed := trivial
  shop := rfl

theorem Enters.trans {first second : List Entry}
    (h : Enters first mem mem') (h' : Enters second mem' mem'') :
    Enters (first ++ second) mem mem'' where
  allowed := by
    have hsecond := h'.allowed
    rw [h.shop] at hsecond
    exact permitted_append.mpr ⟨h.allowed, hsecond⟩
  shop := by
    rw [h'.shop, h.shop]
    exact (applyAll_append _ _ _ _).symm

theorem enters_single {e : Entry} (hallowed : e.Allowed (shopOf mem))
    (hshop : shopOf mem' = e.apply (shopOf mem)) : Enters [e] mem mem' where
  allowed := ⟨hallowed, trivial⟩
  shop := hshop

end Enters

namespace World

variable {β : Type} [FloatCell β] {w w' w'' : World β}

theorem books_of_same (hmem : w'.mem = w.mem)
    (hrows : BeeGadz.rows w'.log = BeeGadz.rows w.log) : Books [] w w' where
  cards := by
    rw [hmem]
    exact enters_nil w.mem
  rows := by
    rw [hrows]
    exact (List.append_nil _).symm

theorem Books.trans {first second : List Entry} (h : Books first w w')
    (h' : Books second w' w'') : Books (first ++ second) w w'' where
  cards := h.cards.trans h'.cards
  rows := by
    rw [h'.rows, h.rows, BeeGadz.Books.posted_append, List.append_assoc]

theorem Books.after {entries : List Entry} (h : Books [] w w')
    (h' : Books entries w' w'') : Books entries w w'' :=
  h.trans h'

theorem Books.before {entries : List Entry} (h : Books entries w w')
    (h' : Books [] w' w'') : Books entries w w'' := by
  have hall := h.trans h'
  rwa [List.append_nil] at hall

theorem books_single {e : Entry} (hallowed : e.Allowed w.shop)
    (hshop : w'.shop = e.apply w.shop)
    (hrows : BeeGadz.rows w'.log = BeeGadz.rows w.log ++ e.posted) :
    Books [e] w w' where
  cards := enters_single hallowed hshop
  rows := by
    rw [hrows]
    exact congrArg _ (List.append_nil _).symm

end World

/-!
## Entries and memories
-/

section Memories

variable {β : Type} [FloatCell β] {mem : Uid -> Memory β} {uid : Uid}

theorem shopOf_update (mem : Uid -> Memory β) (uid : Uid) (m : Memory β) :
    shopOf (Function.update mem uid m) =
      Function.update (shopOf mem) uid m.record := by
  funext u
  by_cases hu : u = uid
  · subst hu
    simp [shopOf]
  · simp [shopOf, hu]

theorem Memory.record_of_not_says {m : Memory β} (h : ¬ m.Says .debit) :
    m.record.role ≠ some .debit := by
  intro hrole
  rw [Memory.record_role] at hrole
  exact h (Memory.role_eq_some.mp hrole)

theorem Memory.record_putCredit {m : Memory β} (h : m.Says .debit)
    (data : Bytes β 16) :
    Memory.record (Function.update m 5 data) =
      .debit data.credit m.record.tickets := by
  have hsay : Memory.Says (Function.update m 5 data) .debit := by
    rw [Memory.Says, Function.update_of_ne (by decide)]
    exact h
  rw [Memory.record_of_debit hsay, Memory.record_of_debit h,
    Function.update_self, Function.update_of_ne (by decide)]
  rfl

theorem Memory.record_putTicket {m : Memory β} (h : m.Says .debit)
    (data : Bytes β 16) :
    Memory.record (Function.update m 6 data) =
      .debit m.record.credit (List.replicate data.first.toNat data.second) := by
  have hsay : Memory.Says (Function.update m 6 data) .debit := by
    rw [Memory.Says, Function.update_of_ne (by decide)]
    exact h
  rw [Memory.record_of_debit hsay, Memory.record_of_debit h,
    Function.update_self, Function.update_of_ne (by decide)]
  rfl

theorem role_of_debit {mem : Uid -> Memory β} {uid : Uid}
    (h : Memory.Says (mem uid) .debit) :
    (shopOf mem uid).role = some .debit := by
  rw [shopOf, Memory.record_of_debit h]
  rfl

theorem shopOf_credit {mem : Uid -> Memory β} {uid : Uid}
    (h : Memory.Says (mem uid) .debit) {data : Bytes β 16} {e : Entry}
    (huid : e.uid = uid)
    (hrecord : e.writer.onRecord (Memory.record (mem uid)) =
      .debit data.credit (Memory.record (mem uid)).tickets) :
    shopOf (Function.update mem uid (Function.update (mem uid) 5 data)) =
      e.apply (shopOf mem) := by
  rw [shopOf_update, Memory.record_putCredit h, ← hrecord, Entry.apply, huid]
  rfl

theorem debit_of_mirrors {c : Card β} {m : Memory β} (h : Bar.Mirrors c m) :
    c.isDebit <-> m.Says .debit := by
  rw [Memory.Says, show m 4 = m (4 + 0) from rfl, ← h 0 (by decide)]
  exact c.testCard_name .debit

theorem record_of_mirrors {c : Card β} {m : Memory β} (h : Bar.Mirrors c m)
    (hdebit : c.isDebit) : m.record = .debit c.getCredit m.record.tickets := by
  rw [Bar.credit_of_mirrors h hdebit,
    Memory.record_of_debit ((debit_of_mirrors h).mp hdebit)]
  rfl

theorem tickets_of_mirrors {c : Card β} {m : Memory β}
    (h : Bar.Mirrors c m) (hdebit : c.isDebit) :
    (c.hasTicket <-> m.record.tickets ≠ []) ∧
      c.getTicket = m.record.tickets.head?.getD 0 := by
  have hsay := (debit_of_mirrors h).mp hdebit
  have hblock : (c.block 1 2).data = m 6 := h 2 (by decide)
  have hticket : c.hasTicket <-> (m 6).first ≠ 0 := by
    rw [← hblock]
    exact ⟨fun hall => hall.right, fun hne => ⟨hdebit, hne⟩⟩
  have hrecord : m.record.tickets =
      List.replicate (m 6).first.toNat (m 6).second := by
    rw [Memory.record_of_debit hsay]
    rfl
  rw [Card.getTicket, hrecord, hblock]
  by_cases hfirst : (m 6).first = 0
  · have hnone : ¬ c.hasTicket := fun hall => (hticket.mp hall) hfirst
    refine ⟨iff_of_false hnone (by simp [hfirst]), ?_⟩
    rw [if_neg hnone, hfirst]
    rfl
  · have hpos : (m 6).first.toNat ≠ 0 := fun hzero =>
      hfirst (UInt8.toNat_inj.mp hzero)
    have hsome : c.hasTicket := hticket.mpr hfirst
    rw [if_pos hsome]
    refine ⟨iff_of_true hsome (by simp [hpos]), ?_⟩
    rcases Nat.exists_eq_succ_of_ne_zero hpos with ⟨n, hn⟩
    rw [hn]
    rfl

theorem roleless_of_mirrors {c : Card β} {m : Memory β}
    (h : Bar.Mirrors c m) : Caisse.Roleless c <-> m.record = .blank := by
  have hnames : forall r : Role, c.testCard r.name <-> m.Says r := by
    intro r
    rw [Memory.Says, show m 4 = m (4 + 0) from rfl, ← h 0 (by decide)]
    exact c.testCard_name r
  have hblank : m.record = .blank <-> m.role = none := by
    rw [← Memory.record_role]
    cases m.record <;> simp [Record.role]
  rw [hblank]
  constructor
  · intro hroleless
    rcases hroleless with ⟨hadmin, hsos, hconso, hdebit⟩
    cases hrole : m.role with
    | none => rfl
    | some r =>
        have hsay := (hnames r).mpr (Memory.role_eq_some.mp hrole)
        cases r with
        | admin => exact absurd hsay hadmin
        | sos => exact absurd hsay hsos
        | conso => exact absurd hsay hconso
        | debit => exact absurd hsay hdebit
  · intro hnone
    have hnot : forall r : Role, ¬ c.testCard r.name := by
      intro r hr
      rw [Memory.role_eq_some.mpr ((hnames r).mp hr)] at hnone
      cases hnone
    exact ⟨hnot .admin, hnot .sos, hnot .conso, hnot .debit⟩

theorem record_created [ExactFloat β] {keys : Vec UInt8} {target : Target}
    {pass : Pass β}
    (h : forall a, (Card.fresh target keys : Card β).Stores (pass a))
    (m view : Memory β) :
    Memory.record (created keys target pass m view) = .debit 0 [] := by
  rcases created_of_stores (h 4) (h 5) m view with ⟨hsay, hcredit⟩
  have htickets : created keys target pass m view 6 =
      ((view 6).putFirst 0).putSecond 0 := by
    have hleft : created keys target pass m view 6 =
        if lostAt keys target pass 4 = true ∨
            lostAt keys target pass 5 = true then m 6
        else left keys target pass m 6 (((view 6).putFirst 0).putSecond 0) :=
      rfl
    rw [hleft, not_lostAt_of_stores (h 4), not_lostAt_of_stores (h 5),
      if_neg (by simp), left_of_stores (h 6)]
  rw [Memory.record_of_debit hsay, hcredit, htickets, Bytes.first_putSecond,
    Bytes.first_putFirst]
  rfl

end Memories

namespace Loop.Presented

variable {β : Type} [FloatCell β] {inp : Input β} {keys : Vec UInt8}
  {target : Target} {mem : Memory β} {c : Card β}

theorem mirrors (h : Presented inp keys target mem c) (hinp : inp.Accepted) :
    Bar.Mirrors c mem := by
  intro k hk
  rw [h.seen k hk, Till.seen_of_accepted hinp]

end Loop.Presented

def Loop.entriesAt {β : Type} [Cell β] (keys : Vec UInt8) (inp : Input β)
    (card : Option (Card β)) (shop : Shop)
    (entries : Uid -> Record -> List Entry) : List Entry :=
  match arrival keys inp card with
  | none => []
  | some target => entries target.uid (shop target.uid)

/-!
## Kve
-/

namespace Kve

variable {β : Type} [FloatCell β]

def leftRows (cfg : Config) (left : List UInt8) : List Row :=
  match cfg.getConso (left.head?.getD 0).toNat with
  | .ok conso => [Bar.ticketRow cfg conso]
  | .error _ => []

def entries (cfg : Config) (inp : Input β) (want : Bool) (uid : Uid) :
    Record -> List Entry
  | .debit credit tickets =>
      if want = true ∧ tickets ≠ [] then
        [.ticket uid (leftRows cfg tickets.tail)]
      else if inp.amount ≤ credit then [.sale uid [saleRow cfg inp.amount]]
      else []
  | _ => []

def entriesOf (cfg : Config) (inp : Input β) (s : Loop Locals β)
    (shop : Shop) : List Entry :=
  Loop.entriesAt (cfg.getKeys false) inp s.card shop
    (entries cfg inp (wanted inp s.locals))

omit [FloatCell β] in
theorem entries_of_not_debit {cfg : Config} {inp : Input β} {want : Bool}
    {uid : Uid} {r : Record} (h : r.role ≠ some .debit) :
    entries cfg inp want uid r = [] := by
  cases r with
  | debit credit tickets => exact absurd rfl h
  | _ => rfl

theorem posted_ticketRows (cfg : Config) {c : Card β} {m : Memory β}
    (h : Bar.Mirrors c m) (hdebit : c.isDebit) :
    ticketRows cfg c =
      (Entry.ticket c.uid (leftRows cfg m.record.tickets)).posted := by
  have hticket := (tickets_of_mirrors h hdebit).right
  unfold ticketRows leftRows
  rw [hticket]
  cases cfg.getConso (m.record.tickets.head?.getD 0).toNat with
  | ok conso => rfl
  | error e => rfl

theorem leftRows_length (cfg : Config) (left : List UInt8) :
    (leftRows cfg left).length ≤ 1 := by
  unfold leftRows
  split <;> simp

theorem kind_leftRows {cfg : Config} {left : List UInt8} {row : Row}
    (h : row ∈ leftRows cfg left) : row.kind = .ticket := by
  unfold leftRows at h
  split at h
  · rw [List.mem_singleton.mp h]
    rfl
  · cases h

end Kve

theorem shopOf_ticket {β : Type} [FloatCell β] {mem : Uid -> Memory β}
    {c c' : Card β} {mem' : Uid -> Memory β}
    (hsame : Bar.Mirrors c (mem c.uid)) (hdebit : c.isDebit)
    (hticket : c.hasTicket) (hframe : Card.SameFrame c c')
    (hblocks : Card.SameBlocks c.ticketTaken c')
    (h : Card.Flushed c.ticketTaken Session.accepts mem mem' 4 8)
    (taken : List Row) :
    shopOf mem' = (Entry.ticket c.uid taken).apply (shopOf mem) ∧
      Bar.Mirrors c' (mem' c'.uid) ∧ c'.isDebit ∧
      (shopOf mem' c.uid).tickets = (shopOf mem c.uid).tickets.tail ∧
      (shopOf mem' c.uid).credit = (shopOf mem c.uid).credit := by
  have hsay := (debit_of_mirrors hsame).mp hdebit
  have hleft : (mem c.uid 6).first ≠ 0 := by
    rw [← hsame 2 (by decide)]
    exact hticket.right
  rcases Bar.ticket_memory hsame hleft hblocks h with ⟨hmem, hmirrors⟩
  have hrecord := Memory.record_putTicket hsay
    ((mem c.uid 6).putFirst ((mem c.uid 6).first - 1))
  have htaken := Session.replicate_taken (mem c.uid 6)
  rw [if_pos hleft] at htaken
  rw [htaken] at hrecord
  have hbefore := Memory.record_of_debit hsay
  have hdebit' : c'.isDebit := by
    have hname : (c'.block 1 0).data = (c.block 1 0).data := by
      rw [hblocks 1 0, Card.ticketTaken,
        Card.edit_block_of_ne _ _ (by decide)]
    exact (Card.isDebit_congr hname).mpr hdebit
  have hafter : shopOf mem' c.uid =
      .debit (shopOf mem c.uid).credit (shopOf mem c.uid).tickets.tail := by
    rw [hmem, shopOf_update, Function.update_self, hrecord, shopOf, hbefore]
    rfl
  refine ⟨?_, ?_, hdebit', ?_, ?_⟩
  · rw [hmem, shopOf_update, hrecord, Entry.apply]
    congr 1
    show _ = applyAll Deal.onRecord [.takeTicket] (Memory.record (mem c.uid))
    rw [hbefore]
    rfl
  · rw [hframe.uid, hmem, Function.update_self]
    exact hmirrors
  · rw [hafter]
    rfl
  · rw [hafter]
    rfl

theorem shopOf_sale {β : Type} [FloatCell β] [ExactFloat β]
    {mem mem' : Uid -> Memory β} {c c' : Card β}
    (hsame : Bar.Mirrors c (mem c.uid)) (hdebit : c.isDebit)
    {sold : List Row} (hnonneg : 0 ≤ priceOf sold)
    (hcovers : c.getCredit ≥ priceOf sold)
    (h : Session.Charged Session.accepts (priceOf sold) c mem c' mem')
    (hkinds : forall row, row ∈ sold -> row.kind = .sale) :
    shopOf mem' = (Entry.sale c.uid sold).apply (shopOf mem) ∧
      (Entry.sale c.uid sold).Allowed (shopOf mem) := by
  have hsay := (debit_of_mirrors hsame).mp hdebit
  have hbefore := Memory.record_of_debit hsay
  have hcredit : (shopOf mem c.uid).credit = (mem c.uid 5).credit := by
    rw [shopOf, hbefore]
    rfl
  rcases Bar.charge_memory hsame hdebit hnonneg hcovers h with
    ⟨data, hmem, hdata, _⟩
  rw [Bar.credit_of_mirrors hsame hdebit] at hcovers
  constructor
  · rw [hmem]
    apply shopOf_credit hsay rfl
    rw [hdata, hbefore]
    rfl
  · refine ⟨⟨role_of_debit hsay, hnonneg, hcredit ▸ hcovers⟩, ?_⟩
    intro row hrow
    rw [hkinds row hrow]
    rfl

namespace Kve

variable {β : Type} [FloatCell β] [ExactFloat β]

theorem step_books {cfg : Config} {inp : Input β} (hinp : inp.Accepted)
    (hamount : 0 ≤ inp.amount) {s s' : Loop Locals β}
    (h : step cfg inp s = some s') :
    s.world.Books (entriesOf cfg inp s s.world.shop) s'.world := by
  have hrun := step_run h
  unfold entriesOf Loop.entriesAt
  cases harrival : Loop.arrival (cfg.getKeys false) inp s.card with
  | none =>
      rw [harrival] at hrun
      exact World.books_of_same hrun.left hrun.right
  | some target =>
      rw [harrival] at hrun
      rcases hrun with ⟨s₁, c, hc, hmem, hrows, hpresented, hserves⟩
      have huid : c.uid = target.uid := hpresented.uid
      have hsame : Bar.Mirrors c (s₁.world.mem c.uid) := by
        rw [huid, hmem]
        exact hpresented.mirrors hinp
      have hfirst : s.world.Books [] s₁.world :=
        World.books_of_same hmem hrows
      have hshop : s.world.shop = s₁.world.shop := by
        rw [World.shop, World.shop, hmem]
      apply hfirst.after
      simp only [hshop, ← huid]
      cases hserves with
      | still idle keeps =>
          have hnone : entries cfg inp (wanted inp s.locals) c.uid
              (s₁.world.shop c.uid) = [] := by
            by_cases hdebit : c.isDebit
            · have htickets := (tickets_of_mirrors hsame hdebit).left
              rcases idle hdebit with ⟨hwants, hshort⟩
              rw [htickets] at hwants
              rw [World.shop, shopOf, record_of_mirrors hsame hdebit, entries,
                if_neg hwants, if_neg (not_le_of_gt hshort)]
            · apply entries_of_not_debit
              exact Memory.record_of_not_says
                (mt (debit_of_mirrors hsame).mpr hdebit)
          rw [hnone]
          exact World.books_of_same keeps.mem keeps.rows
      | ticket c' debit wants card frame blocks flushed sent =>
          rw [hinp.ticketing] at flushed
          rcases shopOf_ticket hsame debit wants.right frame blocks flushed
              (leftRows cfg (s₁.world.shop c.uid).tickets.tail) with
            ⟨hafter, hmirrors, hdebit', hleft, _⟩
          have htickets := (tickets_of_mirrors hsame debit).left
          have hwants := wants
          rw [htickets] at hwants
          have hone : entries cfg inp (wanted inp s.locals) c.uid
              (s₁.world.shop c.uid) =
                [.ticket c.uid
                  (leftRows cfg (s₁.world.shop c.uid).tickets.tail)] := by
            rw [World.shop, shopOf, record_of_mirrors hsame debit, entries,
              if_pos hwants]
            rfl
          rw [hone]
          have hfits : (Entry.ticket c.uid (leftRows cfg
              (s₁.world.shop c.uid).tickets.tail)).Fits s₁.world.shop :=
            ⟨hwants.right, leftRows_length cfg _⟩
          refine World.books_single ⟨hfits, ?_⟩ hafter ?_
          · intro row hrow
            rw [kind_leftRows hrow]
            rfl
          · rw [sent, posted_ticketRows cfg hmirrors hdebit', frame.uid]
            show _ ++ (Entry.ticket c.uid (leftRows cfg
              (shopOf s'.world.mem c.uid).tickets)).posted = _
            rw [hleft]
            rfl
      | sale c' debit wants covers card charged sent =>
          rw [hinp.writing] at charged
          have hprice : priceOf [saleRow cfg inp.amount] = inp.amount :=
            add_zero _
          rw [← hprice] at charged
          have hnonneg : 0 ≤ priceOf [saleRow cfg inp.amount] :=
            hprice.symm.subst hamount
          have hcovers : c.getCredit ≥ priceOf [saleRow cfg inp.amount] :=
            hprice.symm.subst covers
          rcases shopOf_sale hsame debit hnonneg hcovers charged
              (by simp [saleRow]) with
            ⟨hafter, hallowed⟩
          have hwants := wants
          rw [(tickets_of_mirrors hsame debit).left] at hwants
          have hone : entries cfg inp (wanted inp s.locals) c.uid
              (s₁.world.shop c.uid) =
                [.sale c.uid [saleRow cfg inp.amount]] := by
            rw [World.shop, shopOf, record_of_mirrors hsame debit, entries,
              if_neg hwants, if_pos covers]
          rw [hone]
          exact World.books_single hallowed hafter sent

end Kve

/-!
## Caisse
-/

namespace Caisse

variable {β : Type} [FloatCell β]

def entries (cfg : Config) (inp : Input β) (uid : Uid) :
    Record -> List Entry
  | .debit _ _ =>
      if inp.amount > 250 then [] else [.topUp uid (topUpRow cfg inp.amount)]
  | .blank => [.issue uid .createDebitRead]
  | _ => []

def entriesOf (cfg : Config) (inp : Input β) (s : Loop Unit β)
    (shop : Shop) : List Entry :=
  Loop.entriesAt (cfg.getKeys true) inp s.card shop (entries cfg inp)

variable [ExactFloat β]

theorem step_books {cfg : Config} {inp : Input β} (hinp : inp.Accepted)
    (hamount : 0 ≤ inp.amount) {s s' : Loop Unit β}
    (h : step cfg inp s = some s') :
    s.world.Books (entriesOf cfg inp s s.world.shop) s'.world := by
  have hrun := step_run h
  unfold entriesOf Loop.entriesAt
  cases harrival : Loop.arrival (cfg.getKeys true) inp s.card with
  | none =>
      rw [harrival] at hrun
      rcases hrun with ⟨reads, hwire, hsees⟩
      exact World.books_of_same hsees.mem (hsees.rows hwire)
  | some target =>
      rw [harrival] at hrun
      rcases hrun with ⟨s₁, c, hsees, hc, hpresented, hserves⟩
      have huid : c.uid = target.uid := hpresented.uid
      have hmem : s₁.world.mem = s.world.mem := hsees.mem
      have hsame : Bar.Mirrors c (s₁.world.mem c.uid) := by
        rw [huid, hmem]
        exact hpresented.mirrors hinp
      have hfirst : s.world.Books [] s₁.world :=
        World.books_of_same hmem
          (hsees.rows (Card.onWire_readEvents _ _ _ _ _))
      have hshop : s.world.shop = s₁.world.shop := by
        rw [World.shop, World.shop, hmem]
      apply hfirst.after
      simp only [hshop, ← huid]
      have hroleless : Roleless c <-> s₁.world.shop c.uid = .blank :=
        roleless_of_mirrors hsame
      cases hserves with
      | still named idle keeps =>
          have hnone : entries cfg inp c.uid (s₁.world.shop c.uid) = [] := by
            by_cases hdebit : c.isDebit
            · rw [World.shop, shopOf, record_of_mirrors hsame hdebit, entries,
                if_pos (idle hdebit)]
            · have hrole := Memory.record_of_not_says
                (mt (debit_of_mirrors hsame).mpr hdebit)
              have hblank := mt hroleless.mpr named
              rw [World.shop, shopOf] at hblank ⊢
              cases hrecord : Memory.record (s₁.world.mem c.uid) with
              | blank => exact absurd hrecord hblank
              | debit credit tickets =>
                  rw [hrecord] at hrole
                  exact absurd rfl hrole
              | _ => rfl
          rw [hnone]
          exact World.books_of_same keeps.mem keeps.rows
      | create roleless c' card blocks flushed speaks =>
          have hone : entries cfg inp c.uid (s₁.world.shop c.uid) =
              [.issue c.uid .createDebitRead] := by
            rw [hroleless.mp roleless]
            rfl
          rw [hone]
          rw [hmem] at flushed
          rcases Card.Flushed.created hpresented flushed with
            ⟨hothers, hleft⟩
          have hafter : Memory.record (s'.world.mem target.uid) =
              .debit 0 [] := by
            rw [hleft]
            exact record_created
              (Till.stores_of_accepted hinp (cfg.getKeys true) target) _ _
          let e : Entry := .issue c.uid .createDebitRead
          have hissued : e.apply s₁.world.shop c.uid = .debit 0 [] :=
            Entry.apply_self e _
          have hshops : s'.world.shop = e.apply s₁.world.shop := by
            funext u
            by_cases hu : u = c.uid
            · rw [hu, hissued, huid]
              exact hafter
            · have hkept : e.apply s₁.world.shop u = s₁.world.shop u :=
                Entry.apply_other e _ hu
              rw [hkept, World.shop, World.shop, shopOf, shopOf, hmem,
                hothers u (huid ▸ hu)]
          refine World.books_single ⟨trivial, ?_⟩ hshops ?_
          · intro row hrow
            cases hrow
          · rw [speaks.rows]
            exact congrArg _ (Card.rows_writeSays _ _)
      | deposit debit fits c' card stays adds said speaks quiet unread sent =>
          have hone : entries cfg inp c.uid (s₁.world.shop c.uid) =
              [.topUp c.uid (topUpRow cfg inp.amount)] := by
            rw [World.shop, shopOf, record_of_mirrors hsame debit, entries,
              if_neg fits]
          rw [hone]
          have hsay := (debit_of_mirrors hsame).mp debit
          have hrecord := record_of_mirrors hsame debit
          have hafter : s'.world.shop =
              (Entry.topUp c.uid (topUpRow cfg inp.amount)).apply
                s₁.world.shop := by
            by_cases hzero : inp.amount = 0
            · have hkept : (Entry.topUp c.uid
                  (topUpRow cfg inp.amount)).writer.onRecord
                    (s₁.world.shop c.uid) = s₁.world.shop c.uid := by
                rw [World.shop, shopOf, hrecord]
                show Record.debit (c.getCredit + inp.amount) _ = _
                rw [hzero, add_zero]
              rw [World.shop, (stays hzero).right, Entry.apply]
              exact (Function.update_eq_self_iff.mpr hkept).symm
            · have hflushed := (adds hzero).right
              rw [hinp.writing] at hflushed
              rw [World.shop, Bar.edited_memory (by decide) _ hsame hflushed]
              apply shopOf_credit hsay rfl
              rw [hrecord, Bytes.credit_putCredit, add_comm]
              rfl
          have hlimit : inp.amount ≤ 250 := not_lt.mp fits
          have htops : (Entry.topUp c.uid (topUpRow cfg inp.amount)).Fits
              s₁.world.shop := ⟨role_of_debit hsay, hamount, hlimit⟩
          refine World.books_single ⟨htops, ?_⟩ hafter ?_
          · intro row hrow
            rw [List.mem_singleton.mp hrow]
            rfl
          · rw [speaks.rows, sent]
            rfl

end Caisse

/-!
## Bar
-/

namespace Bar

variable {β : Type} [FloatCell β]

def sale (β : Type) [FloatCell β] (cfg : Config) (hash : HashOrder)
    (order : Order) (uid : Uid) (credit : Rat) : List Entry :=
  match getPrice β cfg hash order with
  | .ok price =>
      if price ≤ credit then [.sale uid (saleRows β cfg (hash.entries order))]
      else []
  | .error _ => []

/-- What a card is used for: the order is sold, a ticket for one of its consos
coming first. -/
def entries (β : Type) [FloatCell β] (cfg : Config) (hash : HashOrder)
    (order : Order) (uid : Uid) :
    Record -> List Entry
  | .debit credit tickets =>
      if isEmpty order = true then []
      else if tickets ≠ [] ∧ (tickets.head?.getD 0).toNat ∈ order then
        match cfg.getConso (tickets.head?.getD 0).toNat with
        | .ok conso =>
            .ticket uid [ticketRow cfg conso] ::
              sale β cfg hash (decrement order (tickets.head?.getD 0).toNat) uid
                credit
        | .error _ => []
      else sale β cfg hash order uid credit
  | _ => []

def entriesOf (cfg : Config) (hash : HashOrder) (inp : Input β)
    (s : Loop Locals β) (shop : Shop) : List Entry :=
  Loop.entriesAt (cfg.getKeys false) inp s.card shop
    (entries β cfg hash (orderAt inp s))

omit [FloatCell β] in
theorem posted_rowsOf (c : Card β) (sold : List Row) :
    rowsOf c sold = Books.posted [.sale c.uid sold] :=
  (List.append_nil _).symm

variable [ExactFloat β]

theorem pays_enters {cfg : Config} (hcfg : cfg.PricesNonneg)
    {hash : HashOrder} {inp : Input β} (hinp : inp.Accepted) {order : Order}
    {c c' : Card β} {mem mem' : Uid -> Memory β} {sent : List Row}
    (hsame : Mirrors c (mem c.uid)) (hdebit : c.isDebit)
    (h : Pays cfg hash inp order c mem c' mem' sent) :
    Enters (sale β cfg hash order c.uid c.getCredit) mem mem' ∧
      rowsOf c sent = Books.posted (sale β cfg hash order c.uid c.getCredit) := by
  cases h with
  | unpaid short card kept =>
      have hnone : sale β cfg hash order c.uid c.getCredit = [] := by
        unfold sale
        cases hprice : getPrice β cfg hash order with
        | error e => rfl
        | ok price => exact if_neg (not_le_of_gt (short price hprice))
      rw [hnone, kept]
      exact ⟨enters_nil mem, rfl⟩
  | paid price priced covers charged =>
      have hone : sale β cfg hash order c.uid c.getCredit =
          [.sale c.uid (saleRows β cfg (hash.entries order))] := by
        unfold sale
        rw [priced]
        exact if_pos covers
      have hprice : price = priceOf (saleRows β cfg (hash.entries order)) := by
        rw [addPrices_eq priced, zero_add]
        rfl
      have hnonneg : 0 ≤ priceOf (saleRows β cfg (hash.entries order)) := by
        apply List.sum_nonneg
        intro p hp
        rcases List.mem_map.mp hp with ⟨row, hrow, rfl⟩
        exact saleRows_nonneg hcfg hrow
      rw [hinp.writing, hprice] at charged
      rw [hprice] at covers
      rcases shopOf_sale hsame hdebit hnonneg covers charged
          (fun row hrow => saleRows_kind hrow) with ⟨hafter, hallowed⟩
      rw [hone]
      exact ⟨enters_single hallowed hafter, posted_rowsOf c _⟩

theorem settles_enters {cfg : Config} (hcfg : cfg.PricesNonneg)
    {hash : HashOrder} {inp : Input β} (hinp : inp.Accepted) {order : Order}
    (hordered : isEmpty order = false) {c c' : Card β}
    {mem mem' : Uid -> Memory β} {sent : List Row}
    (hsame : Mirrors c (mem c.uid)) (hdebit : c.isDebit)
    (h : Settles cfg hash inp order c mem c' mem' sent) :
    Enters (entries β cfg hash order c.uid (shopOf mem c.uid)) mem mem' ∧
      rowsOf c sent =
        Books.posted (entries β cfg hash order c.uid (shopOf mem c.uid)) := by
  rcases tickets_of_mirrors hsame hdebit with ⟨hhas, hticket⟩
  have happlies : TicketApplies c order <->
      (Memory.record (mem c.uid)).tickets ≠ [] ∧
        ((Memory.record (mem c.uid)).tickets.head?.getD 0).toNat ∈ order := by
    rw [TicketApplies, hhas, hticket]
  have hnone : ¬ isEmpty order = true := by
    simp [hordered]
  rw [shopOf, record_of_mirrors hsame hdebit, entries, if_neg hnone]
  cases h with
  | plain skips pays =>
      rw [happlies] at skips
      rw [if_neg skips]
      exact pays_enters hcfg hinp hsame hdebit pays
  | unknown applies missing card kept =>
      rw [happlies] at applies
      rw [if_pos applies, ← hticket, kept]
      cases hconso : cfg.getConso c.getTicket.toNat with
      | ok conso => exact absurd hconso (missing conso)
      | error e => exact ⟨enters_nil mem, rfl⟩
  | ticket applies conso known c₂ mem₂ frame blocks flushed pays =>
      rename_i sent
      rw [hinp.ticketing] at flushed
      rcases shopOf_ticket hsame hdebit applies.left frame blocks flushed
          [ticketRow cfg conso] with
        ⟨hafter, hmirrors, hdebit₂, _, _⟩
      have hcredit := ticketTaken_getCredit blocks
      have huid : c₂.uid = c.uid := frame.uid
      rcases pays_enters hcfg hinp hmirrors hdebit₂ pays with
        ⟨henters, hposted⟩
      rw [happlies] at applies
      rw [if_pos applies, ← hticket, known]
      rw [huid, hcredit] at henters hposted
      have htaken : Enters [.ticket c.uid [ticketRow cfg conso]] mem mem₂ := by
        have hfits : (Entry.ticket c.uid [ticketRow cfg conso]).Fits
            (shopOf mem) := ⟨applies.left, Nat.le_refl 1⟩
        refine enters_single ⟨hfits, ?_⟩ hafter
        intro row hrow
        rw [List.mem_singleton.mp hrow]
        rfl
      refine ⟨htaken.trans henters, ?_⟩
      rw [rowsOf_cons, ← rowsOf_congr frame sent, hposted]
      rfl

theorem step_books {cfg : Config} (hcfg : cfg.PricesNonneg)
    {hash : HashOrder} {inp : Input β} (hinp : inp.Accepted)
    {s s' : Loop Locals β} (h : step cfg (hash, inp) s = some s') :
    s.world.Books (entriesOf cfg hash inp s s.world.shop) s'.world := by
  have hrun := step_run h
  unfold entriesOf Loop.entriesAt
  cases harrival : Loop.arrival (cfg.getKeys false) inp s.card with
  | none =>
      rw [harrival] at hrun
      exact World.books_of_same hrun.left hrun.right
  | some target =>
      rw [harrival] at hrun
      rcases hrun with ⟨s₁, c, hc, hmem, hrows, hpresented, hserves⟩
      have huid : c.uid = target.uid := hpresented.uid
      have hsame : Mirrors c (s₁.world.mem c.uid) := by
        rw [huid, hmem]
        exact hpresented.mirrors hinp
      have hfirst : s.world.Books [] s₁.world :=
        World.books_of_same hmem hrows
      have hshop : s.world.shop = s₁.world.shop := by
        rw [World.shop, World.shop, hmem]
      apply hfirst.after
      simp only [hshop, ← huid]
      cases hserves with
      | still idle keeps =>
          have hnone : entries β cfg hash (orderAt inp s) c.uid
              (s₁.world.shop c.uid) = [] := by
            by_cases hdebit : c.isDebit
            · have hempty : isEmpty (orderAt inp s) = true := by
                by_contra hordered
                exact idle ⟨hdebit, by simpa using hordered⟩
              rw [World.shop, shopOf, record_of_mirrors hsame hdebit, entries,
                if_pos hempty]
            · have hrole := Memory.record_of_not_says
                (mt (debit_of_mirrors hsame).mpr hdebit)
              rw [World.shop, shopOf]
              cases hrecord : Memory.record (s₁.world.mem c.uid) with
              | debit credit tickets =>
                  rw [hrecord] at hrole
                  exact absurd rfl hrole
              | _ => rfl
          rw [hnone]
          exact World.books_of_same keeps.mem keeps.rows
      | settle debit ordered c' card sent settles sends =>
          rcases settles_enters hcfg hinp ordered hsame debit settles with
            ⟨henters, hposted⟩
          refine ⟨henters, ?_⟩
          rw [sends, hposted]
          rfl

end Bar

end BeeGadz
