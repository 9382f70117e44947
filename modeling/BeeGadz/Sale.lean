import BeeGadz.Order
import BeeGadz.Till

/-!
# A sale

What an accepted settlement takes from a card and reports, in terms of the order
and of the blocks of the card: the price of what a ticket leaves of the order,
and one row for each of its keys.
-/

namespace BeeGadz

open Foundation

namespace Config

def conso (cfg : Config) (k : Nat) : String × Rat :=
  cfg.consos[k]?.getD ("", 0)

theorem getConso_conso {cfg : Config} {k : Nat} (h : k < cfg.getNbConso) :
    cfg.getConso k = .ok (cfg.conso k) ∧
      cfg.consos[k]? = some (cfg.conso k) := by
  rcases getConso_ok h with ⟨conso, hok, hget⟩
  have hconso : cfg.conso k = conso := by
    rw [Config.conso, hget, Option.getD_some]
  rw [hconso]
  exact ⟨hok, hget⟩

end Config

namespace Bar

/-!
## Orders and prices
-/

def oneLess (order : Order) (k : Nat) : Order :=
  if count order k = 1 then order.erase k
  else order.insert k (count order k - 1)

def entryRow (cfg : Config) (i : Sigma fun _ : Nat => Nat) : Row :=
  { kind := .sale
    pianss := cfg.pianss
    command := (cfg.conso i.1).1 ++ " x" ++ toString i.2
    price := (cfg.conso i.1).2 * i.2 }

def orderPrice (cfg : Config) (order : Order) : Rat :=
  (order.entries.map fun i => (cfg.conso i.1).2 * i.2).sum

theorem decrement_eq_oneLess {order : Order} {k : Nat}
    (hpositive : 0 < count order k) (hlt : count order k < sizeValues) :
    decrement order k = oneLess order k := by
  have hleft : (count order k + sizeValues - 1) % sizeValues =
      count order k - 1 := by
    have hsum : count order k + sizeValues - 1 =
        count order k - 1 + sizeValues := by
      omega
    rw [hsum, Nat.add_mod_right, Nat.mod_eq_of_lt (by omega)]
  unfold decrement oneLess
  rw [hleft]
  by_cases hone : count order k = 1
  · have hzero : count order k - 1 = 0 := by
      omega
    simp only [hone, if_true]
    apply AList.ext
    exact List.kerase_cons_eq rfl
  · have hmore : count order k - 1 ≠ 0 := by
      omega
    simp only [hone, hmore, if_false]

theorem saleRows_eq {β : Type} [FloatCell β] [ExactFloat β] {cfg : Config}
    {entries : List (Sigma fun _ : Nat => Nat)}
    (h : forall i, i ∈ entries -> i.1 < cfg.getNbConso) :
    saleRows β cfg entries = entries.map (entryRow cfg) := by
  unfold saleRows
  rw [← List.filterMap_eq_map]
  apply List.filterMap_congr
  intro i hi
  rw [(Config.getConso_conso (h i hi)).right]
  simp [saleRow, entryRow]

theorem sum_entryRows (cfg : Config)
    (entries : List (Sigma fun _ : Nat => Nat)) :
    ((entries.map (entryRow cfg)).map Row.price).sum =
      (entries.map fun i => (cfg.conso i.1).2 * i.2).sum := by
  rw [List.map_map]
  rfl

/-- The price does not depend on the order in which the map is iterated. -/
theorem getPrice_of_known (β : Type) [FloatCell β] [ExactFloat β]
    {cfg : Config} {order : Order}
    (h : Known cfg order) (hash : HashOrder) :
    getPrice β cfg hash order = .ok (orderPrice cfg order) := by
  have hpriced : exists price, getPrice β cfg hash order = .ok price :=
    price_iff.mpr h
  rcases hpriced with ⟨price, hprice⟩
  have hsum := addPrices_eq hprice
  rw [saleRows_eq (h.entries hash), sum_entryRows, zero_add] at hsum
  rw [hprice, hsum, orderPrice, ((hash.perm order).map _).sum_eq]

theorem orderPrice_nonneg {cfg : Config} (hcfg : cfg.PricesNonneg)
    {order : Order} (h : Known cfg order) : 0 ≤ orderPrice cfg order := by
  apply List.sum_nonneg
  intro price hprice
  rcases List.mem_map.mp hprice with ⟨i, hi, rfl⟩
  have hk := h i.1 (Counter.mem_entries (k := i.1) (n := i.2) hi).left
  have hget := (Config.getConso_conso hk).right
  exact mul_nonneg (hcfg _ (List.mem_of_getElem? hget)) (Nat.cast_nonneg i.2)

/-!
## The card
-/

section Card

variable {β : Type}

def Mirrors (c : Card β) (m : Memory β) : Prop :=
  forall k, k < 4 -> (c.block 1 k).data = m (4 + k)

theorem edited_memory [Cell β] {c : Card β} {k : Nat} (hk : k < 4)
    (f : Bytes β 16 -> Bytes β 16) {mem mem' : Uid -> Memory β}
    (hsame : Mirrors c (mem c.uid))
    (h : Card.Flushed (c.edit k f) Session.accepts mem mem' 4 8) :
    mem' = Function.update mem c.uid
      (Function.update (mem c.uid) (4 + k) (f (mem c.uid (4 + k)))) := by
  have huid : (c.edit k f).uid = c.uid := (Card.sameFrame_edit c k f).uid
  funext u
  by_cases hu : u = c.uid
  · subst hu
    rw [Function.update_self]
    funext a
    by_cases hwrites :
        (c.edit k f).Writes Session.accepts 4 8 a
    · have hwritten := h.written a hwrites
      rw [huid, Session.accepts, Card.leaves_accepting] at hwritten
      rcases (Card.writes_accepts _ 4 8 a).mp hwrites with ⟨hlow, hhigh, _⟩
      have ha : 4 * 1 + (a - 4) = a := by omega
      have hblock := (c.edit k f).blockAt_address 1 (k := a - 4) (by omega)
      rw [ha] at hblock
      rw [hwritten, hblock]
      by_cases heq : a = 4 + k
      · have hsub : a - 4 = k := by omega
        rw [hsub, Card.edit_block_self, heq, Function.update_self,
          hsame k hk]
      · rw [Card.edit_block_of_ne c f (by omega), hsame (a - 4) (by omega),
          Function.update_of_ne heq, show 4 + (a - 4) = a by omega]
    · have hne : a ≠ 4 + k := by
        intro heq
        apply hwrites
        exact (Card.writes_accepts _ 4 8 a).mpr ⟨by omega, by omega,
          (Card.pending_edit c k hk f a).mpr (Or.inl heq)⟩
      rw [Function.update_of_ne hne]
      exact h.kept _ a fun hboth => hwrites hboth.right
  · rw [Function.update_of_ne hu]
    exact h.other (huid ▸ hu)

theorem edited_mirrors {c c' : Card β} {k : Nat} (f : Bytes β 16 -> Bytes β 16)
    {m : Memory β} (hsame : Mirrors c m)
    (hblocks : Card.SameBlocks (c.edit k f) c') :
    Mirrors c' (Function.update m (4 + k) (f (m (4 + k)))) := by
  intro j hj
  rw [hblocks 1 j]
  by_cases hjk : j = k
  · subst hjk
    rw [Card.edit_block_self, Function.update_self, hsame j hj]
  · rw [Card.edit_block_of_ne c f hjk, Function.update_of_ne (by omega)]
    exact hsame j hj

end Card

variable {β : Type} [FloatCell β]

structure Sold (m m' : Memory β) (price : Rat) (used : Prop) : Prop where
  credit : (m' 5).credit = (m 5).credit - price
  creditRest : forall i : Fin 16, 4 ≤ i.val -> m' 5 i = m 5 i
  ticket : used -> m' 6 = (m 6).putFirst ((m 6).first - 1) ∧
    (m' 6).first.toNat + 1 = (m 6).first.toNat
  noTicket : ¬ used -> m' 6 = m 6
  others : forall a, a ≠ 5 -> a ≠ 6 -> m' a = m a

theorem credit_of_mirrors {c : Card β} {m : Memory β} (h : Mirrors c m)
    (hdebit : c.isDebit) : c.getCredit = (m 5).credit := by
  rw [Card.getCredit, if_pos hdebit, h 1 (by decide)]

theorem ticket_memory {c c' : Card β} {mem mem' : Uid -> Memory β}
    (hsame : Mirrors c (mem c.uid)) (hleft : (mem c.uid 6).first ≠ 0)
    (hblocks : Card.SameBlocks c.ticketTaken c')
    (h : Card.Flushed c.ticketTaken Session.accepts mem mem' 4 8) :
    let m' := Function.update (mem c.uid) 6
      ((mem c.uid 6).putFirst ((mem c.uid 6).first - 1))
    mem' = Function.update mem c.uid m' ∧ Mirrors c' m' := by
  have hmemory := edited_memory (by decide) _ hsame h
  have hmirrors := edited_mirrors _ hsame hblocks
  simp only [hleft, ne_eq, not_false_eq_true, if_true] at hmemory hmirrors
  exact ⟨hmemory, hmirrors⟩

variable [ExactFloat β]

theorem charge_memory {price : Rat} {c c' : Card β}
    {mem mem' : Uid -> Memory β} (hsame : Mirrors c (mem c.uid))
    (hdebit : c.isDebit) (hnonneg : 0 ≤ price) (hcovers : c.getCredit ≥ price)
    (h : Session.Charged Session.accepts price c mem c' mem') :
    exists data : Bytes β 16,
      mem' = Function.update mem c.uid
        (Function.update (mem c.uid) 5 data) ∧
      data.credit = (mem c.uid 5).credit - price ∧
      forall i : Fin 16, 4 ≤ i.val -> data i = mem c.uid 5 i := by
  have hcredit := credit_of_mirrors hsame hdebit
  by_cases hzero : c.getCredit = 0
  · -- nothing is written, and nothing had to be paid
    have hfree : price = 0 := le_antisymm (hzero ▸ hcovers) hnonneg
    refine ⟨mem c.uid 5, ?_, ?_, fun _ _ => rfl⟩
    · rw [(h.free hzero).right, Function.update_eq_self,
        Function.update_eq_self]
    · rw [hfree, sub_zero]
  · have hmemory := edited_memory (by decide) _ hsame (h.paid hzero).right
    refine ⟨_, hmemory, ?_, ?_⟩
    · rw [Bytes.credit_putCredit, hcredit]
    · intro i hi
      rw [Bytes.putCredit, Bytes.copy, dif_neg (by omega)]

theorem sold_of_pays {cfg : Config} {hash : HashOrder} {inp : Input β}
    (hcfg : cfg.PricesNonneg) (hinp : inp.Accepted) {order : Order}
    (hknown : Known cfg order) {c c' : Card β} {mem mem' : Uid -> Memory β}
    {sent : List Row} (hsame : Mirrors c (mem c.uid)) (hdebit : c.isDebit)
    (hcovers : c.getCredit ≥ orderPrice cfg order)
    (h : Pays cfg hash inp order c mem c' mem' sent) :
    sent = (hash.entries order).map (entryRow cfg) ∧
      exists data : Bytes β 16,
        mem' = Function.update mem c.uid
          (Function.update (mem c.uid) 5 data) ∧
        data.credit = (mem c.uid 5).credit - orderPrice cfg order ∧
        forall i : Fin 16, 4 ≤ i.val -> data i = mem c.uid 5 i := by
  have hprice := getPrice_of_known β hknown hash
  cases h with
  | unpaid short card kept =>
      exact absurd hcovers (not_le_of_gt (short _ hprice))
  | paid price priced covers charged =>
      rw [hprice] at priced
      cases priced
      rw [hinp.writing] at charged
      exact ⟨saleRows_eq (hknown.entries hash),
        charge_memory hsame hdebit (orderPrice_nonneg hcfg hknown) covers
          charged⟩

omit [ExactFloat β] in
theorem sold_without_ticket {m : Memory β} {data : Bytes β 16} {price : Rat}
    {used : Prop} (hcredit : data.credit = (m 5).credit - price)
    (hrest : forall i : Fin 16, 4 ≤ i.val -> data i = m 5 i)
    (hunused : ¬ used) : Sold m (Function.update m 5 data) price used where
  credit := by
    rw [Function.update_self]
    exact hcredit
  creditRest := by
    rw [Function.update_self]
    exact hrest
  ticket := fun hused => absurd hused hunused
  noTicket := fun _ => Function.update_of_ne (by decide) _ _
  others := fun _ ha _ => Function.update_of_ne ha _ _

omit [ExactFloat β] in
theorem sold_with_ticket {m : Memory β} {data : Bytes β 16} {price : Rat}
    {used : Prop} (hcredit : data.credit = (m 5).credit - price)
    (hrest : forall i : Fin 16, 4 ≤ i.val -> data i = m 5 i)
    (hused : used) (hleft : (m 6).first ≠ 0) :
    Sold m
      (Function.update
        (Function.update m 6 ((m 6).putFirst ((m 6).first - 1))) 5 data)
      price used where
  credit := by
    rw [Function.update_self]
    exact hcredit
  creditRest := by
    rw [Function.update_self]
    exact hrest
  ticket := by
    intro _
    rw [Function.update_of_ne (by decide), Function.update_self,
      Bytes.first_putFirst]
    refine ⟨rfl, ?_⟩
    have hpositive : (m 6).first.toNat ≠ 0 := fun hzero =>
      hleft (UInt8.toNat_inj.mp hzero)
    have hlt := (m 6).first.toNat_lt
    rw [UInt8.toNat_sub]
    simp only [UInt8.reduceToNat]
    omega
  noTicket := fun hunused => absurd hused hunused
  others := by
    intro a h5 h6
    rw [Function.update_of_ne h5, Function.update_of_ne h6]

theorem sold_of_settles {cfg : Config} {hash : HashOrder} {inp : Input β}
    (hcfg : cfg.PricesNonneg) (hinp : inp.Accepted) {order : Order}
    (hknown : Known cfg order) {c c' : Card β} {mem mem' : Uid -> Memory β}
    {sent : List Row} (hsame : Mirrors c (mem c.uid)) (hdebit : c.isDebit)
    (hcovers : c.getCredit ≥ orderPrice cfg (leftOf c order))
    (h : Settles cfg hash inp order c mem c' mem' sent) :
    Sold (mem c.uid) (mem' c.uid) (orderPrice cfg (leftOf c order))
        (TicketApplies c order) ∧
      (forall u, u ≠ c.uid -> mem' u = mem u) ∧
      sent = (if TicketApplies c order then
          [ticketRow cfg (cfg.conso c.getTicket.toNat)] else []) ++
        (hash.entries (leftOf c order)).map (entryRow cfg) := by
  unfold leftOf at hcovers ⊢
  cases h with
  | plain skips pays =>
      rw [if_neg skips] at hcovers
      simp only [if_neg skips, List.nil_append]
      rcases sold_of_pays hcfg hinp hknown hsame hdebit hcovers pays with
        ⟨hsent, data, rfl, hcredit, hrest⟩
      refine ⟨?_, fun u hu => Function.update_of_ne hu _ _, hsent⟩
      rw [Function.update_self]
      exact sold_without_ticket hcredit hrest skips
  | unknown applies missing card kept =>
      rcases hknown.ticket applies with ⟨conso, hconso⟩
      exact absurd hconso (missing conso)
  | ticket applies conso known c₂ mem₂ frame blocks flushed pays =>
      rw [if_pos applies] at hcovers
      simp only [if_pos applies]
      rw [hinp.ticketing] at flushed
      have hleft : (mem c.uid 6).first ≠ 0 := by
        rw [← hsame 2 (by decide)]
        exact applies.left.right
      rcases ticket_memory hsame hleft blocks flushed with ⟨hmem, hmirrors⟩
      have huid : c₂.uid = c.uid := frame.uid
      have hmirrors₂ : Mirrors c₂ (mem₂ c₂.uid) := by
        rw [huid, hmem, Function.update_self]
        exact hmirrors
      have hdebit₂ : c₂.isDebit := by
        have hname : (c₂.block 1 0).data = (c.block 1 0).data := by
          rw [blocks 1 0, Card.ticketTaken, Card.edit_block_of_ne _ _ (by decide)]
        exact (Card.isDebit_congr hname).mpr hdebit
      have hcredit₂ := ticketTaken_getCredit blocks
      rcases sold_of_pays hcfg hinp (hknown.decrement applies.right) hmirrors₂
          hdebit₂ (hcredit₂ ▸ hcovers) pays with
        ⟨hsent, data, hmem', hcredit, hrest⟩
      have hconso : conso = cfg.conso c.getTicket.toNat := by
        rw [(Config.getConso_conso (hknown _ applies.right)).left] at known
        cases known
        rfl
      subst hmem
      rw [huid, Function.update_self, Function.update_idem] at hmem'
      rw [huid, Function.update_self] at hcredit hrest
      rw [Function.update_of_ne (by decide)] at hcredit hrest
      subst hmem'
      refine ⟨?_, fun u hu => Function.update_of_ne hu _ _, ?_⟩
      · rw [Function.update_self]
        exact sold_with_ticket hcredit hrest applies hleft
      · rw [hsent, hconso]
        rfl

/-!
## The round
-/

def UsesTicket (m : Memory β) (order : Order) : Prop :=
  (m 6).first ≠ 0 ∧ (m 6).second.toNat ∈ order

instance (m : Memory β) (order : Order) : Decidable (UsesTicket m order) :=
  inferInstanceAs (Decidable (_ ∧ _))

def afterTicket (m : Memory β) (order : Order) : Order :=
  if UsesTicket m order then oneLess order (m 6).second.toNat else order

omit [ExactFloat β] in
theorem ticketApplies_iff {c : Card β} {m : Memory β} (h : Mirrors c m)
    (hdebit : c.isDebit) (order : Order) :
    (TicketApplies c order <-> UsesTicket m order) ∧
      (UsesTicket m order -> c.getTicket = (m 6).second) := by
  have hticket : c.hasTicket <-> (m 6).first ≠ 0 := by
    rw [show m 6 = m (4 + 2) from rfl, ← h 2 (by decide)]
    exact ⟨fun hboth => hboth.right, fun hne => ⟨hdebit, hne⟩⟩
  have hget : c.hasTicket -> c.getTicket = (m 6).second := by
    intro hhas
    rw [Card.getTicket, if_pos hhas, h 2 (by decide)]
  refine ⟨?_, fun huses => hget (hticket.mpr huses.left)⟩
  constructor
  · intro happlies
    refine ⟨hticket.mp happlies.left, ?_⟩
    rw [← hget happlies.left]
    exact happlies.right
  · intro huses
    refine ⟨hticket.mpr huses.left, ?_⟩
    rw [hget (hticket.mpr huses.left)]
    exact huses.right

omit [ExactFloat β] in
theorem leftOf_eq_afterTicket {c : Card β} {m : Memory β} (h : Mirrors c m)
    (hdebit : c.isDebit) {order : Order}
    (hcounts : forall k, k ∈ order ->
      0 < count order k ∧ count order k < sizeValues) :
    leftOf c order = afterTicket m order := by
  rcases ticketApplies_iff h hdebit order with ⟨happlies, hticket⟩
  unfold leftOf afterTicket
  by_cases huses : UsesTicket m order
  · rw [if_pos huses, if_pos (happlies.mpr huses), hticket huses]
    rcases hcounts _ huses.right with ⟨hpositive, hlt⟩
    exact decrement_eq_oneLess hpositive hlt
  · rw [if_neg huses, if_neg (fun h => huses (happlies.mp h))]

theorem serveOrder_run {cfg : Config} (hash : HashOrder) (inp : Input β)
    {c : Card β} (hc : c.Classic) {l : Locals} (hknown : Known cfg l.conso)
    (r : Bool) (w : World β) :
    exists (c' : Card β) (sent : List Row) (said : List (Event β))
        (s' : Loop Locals β),
      Settles cfg hash inp l.conso c w.mem c' s'.world.mem sent ∧
        w.Says s'.world said ∧ rows said = rowsOf c sent ∧
        (.info "Pas assez d'argent sur la carte !" ∈ said <->
          c.getCredit < orderPrice cfg (leftOf c l.conso)) ∧
        s'.locals.conso = ∅ ∧
        serveOrder cfg hash inp ⟨l, some c, r, w⟩ = (.ok .next, s') := by
  have hprice := getPrice_of_known β (hknown.left c) hash
  rcases settle_run inp hc (fun happlies => hknown.ticket happlies) hprice r w
    with ⟨c', w', sent, said, hsettles, hsay, hrows, hrefusal, hrun⟩
  have hloud : "Posez une carte CONSO." ∉
      ["Pas assez d'argent sur la carte !"] := by
    decide
  let s₂ : Loop Locals β := ⟨⟨leftOf c l.conso, l.time⟩, some c', r, w'⟩
  let last : LoopM Locals β Exit := do
    setConso ∅
    setTime inp.clock
    Loop.onWorld (printInfo "Posez une carte CONSO.")
    Loop.onWorld (setCommand "POSEZ CARTE CONSO" 0 0)
    pure .next
  have hstill : Loop.Still ["Pas assez d'argent sur la carte !"] s₂
      (last s₂).2 :=
    still_afterOrder hloud inp s₂
  rcases hstill.says with ⟨said', hsay', hnone, hquiet, _⟩
  refine ⟨c', sent, said ++ said', (last s₂).2, ?_, hsay.trans hsay', ?_, ?_,
    rfl, ?_⟩
  · rw [hstill.mem]
    exact hsettles
  · rw [rows_append, hrows, hnone, List.append_nil]
  · rw [List.mem_append, or_iff_left (hquiet _ (List.mem_singleton_self _))]
    exact hrefusal
  · rw [serveOrder, Prog.bind_of_ok _ hrun]
    rfl

theorem settled_round {cfg : Config} (hash : HashOrder) {inp : Input β}
    {s : Loop Locals β} {target : Target}
    (harrival : Loop.arrival (cfg.getKeys false) inp s.card = some target)
    (hshown : Memory.Says (Loop.seen inp (cfg.getKeys false) target
      (s.world.mem target.uid)) .debit)
    (hordered : isEmpty (orderAt inp s) = false)
    (hknown : Known cfg (orderAt inp s)) :
    exists (c c' : Card β) (sent : List Row) (s' : Loop Locals β),
      step cfg (hash, inp) s = some s' ∧
        Loop.Presented inp (cfg.getKeys false) target
          (s.world.mem target.uid) c ∧
        Settles cfg hash inp (orderAt inp s) c s.world.mem c' s'.world.mem
          sent ∧
        rows s'.world.log = rows s.world.log ++ rowsOf c sent ∧
        (Refused s s' <->
          c.getCredit < orderPrice cfg (leftOf c (orderAt inp s))) ∧
        s'.locals.conso = ∅ := by
  rcases step_dispatches hash harrival with
    ⟨l, c, r, w, hsees, horder, hpresented, hstep⟩
  rcases hsees.says (Card.onWire_readEvents _ _ _ _ _) with
    ⟨front, hfront, hnone, hwords, _⟩
  have hmem : w.mem = s.world.mem := hsees.mem
  rw [← horder] at hordered hknown ⊢
  have hdebit : c.isDebit := hpresented.isDebit_iff.mpr hshown
  have hadmin : ¬ c.testCard "ADMIN" := fun hadmin =>
    hdebit.not_others.left hadmin
  have happly := dispatch_apply cfg hash inp l hadmin r w
  have hopen : ¬ (c.isDebit ∧ isEmpty l.conso = true) := by
    simp [hordered]
  rw [if_neg hdebit.not_others.right.left, if_neg hopen,
    if_pos ⟨hdebit, hordered⟩] at happly
  rcases serveOrder_run hash inp hpresented.classic hknown r w with
    ⟨c', sent, said, s', hsettles, hsay, hrows, hrefusal, hempty, hserve⟩
  have hall := hfront.trans hsay
  refine ⟨c, c', sent, s', ?_, hpresented, hmem ▸ hsettles, ?_, ?_, hempty⟩
  · rw [hstep, Loop.guarded_of_ok (happly.trans hserve)]
    rfl
  · rw [hall.rows, rows_append, hnone, List.nil_append, hrows]
  · have hquiet : .info "Pas assez d'argent sur la carte !" ∉ front := by
      intro hmem
      exact absurd (hwords _ hmem) (by decide)
    rw [Refused, hall.mem_since rfl, List.mem_append, or_iff_right hquiet]
    exact hrefusal

def Accepts (s s' : Loop Locals β) : Prop :=
  ¬ Refused s s'

def ticketRows (cfg : Config) (m : Memory β) (order : Order) : List Row :=
  if UsesTicket m order then [ticketRow cfg (cfg.conso (m 6).second.toNat)]
  else []

/-- What an accepted sale of an order comes to: the card pays with its ticket and
its credit only, one row is sent for a ticket that was used and one for each key
of what it left, and the order is empty. -/
structure SaleMade (cfg : Config) (uid : Uid) (order : Order)
    (s s' : Loop Locals β) : Prop where
  card : Sold (s.world.mem uid) (s'.world.mem uid)
    (orderPrice cfg (afterTicket (s.world.mem uid) order))
    (UsesTicket (s.world.mem uid) order)
  others : forall u, u ≠ uid -> s'.world.mem u = s.world.mem u
  rows : exists sold : List Row,
    Loop.sent s s' =
      (ticketRows cfg (s.world.mem uid) order ++ sold).map (fun row => (uid, row)) ∧
    sold.Perm ((afterTicket (s.world.mem uid) order).entries.map
      (entryRow cfg)) ∧
    (sold.map Row.price).sum =
      (s.world.mem uid 5).credit - (s'.world.mem uid 5).credit
  emptied : s'.locals.conso = ∅

/-- An open order is settled from a DEBIT card exactly when the credit covers
what a ticket leaves of the order, and then exactly that is charged. -/
theorem sale_exact {cfg : Config} (hcfg : cfg.PricesNonneg) (hash : HashOrder)
    {inp : Input β} (hinp : inp.Accepted) {s : Loop Locals β} {target : Target}
    (harrival : Loop.arrival (cfg.getKeys false) inp s.card = some target)
    (hdebit : Memory.Says (s.world.mem target.uid) .debit)
    (hordered : isEmpty (orderAt inp s) = false)
    (hknown : Known cfg (orderAt inp s))
    (hcounts : forall k, k ∈ orderAt inp s ->
      0 < count (orderAt inp s) k ∧ count (orderAt inp s) k < sizeValues) :
    exists s', step cfg (hash, inp) s = some s' ∧
      (Accepts s s' <-> (s.world.mem target.uid 5).credit ≥
        orderPrice cfg (afterTicket (s.world.mem target.uid)
          (orderAt inp s))) ∧
      (Accepts s s' -> SaleMade cfg target.uid (orderAt inp s) s s') := by
  have hview := Till.seen_of_accepted hinp (cfg.getKeys false) target
    (s.world.mem target.uid)
  rcases settled_round hash harrival (hview.symm ▸ hdebit) hordered hknown with
    ⟨c, c', sent, s', hstep, hpresented, hsettles, hrows, hrefused, hempty⟩
  have huid : c.uid = target.uid := hpresented.uid
  have hc : c.isDebit := hpresented.isDebit_iff.mpr (hview.symm ▸ hdebit)
  have hsame : Mirrors c (s.world.mem target.uid) := by
    intro k hk
    rw [hpresented.seen k hk, hview]
  have hcredit := credit_of_mirrors hsame hc
  have hleft := leftOf_eq_afterTicket hsame hc hcounts
  rcases ticketApplies_iff hsame hc (orderAt inp s) with ⟨happlies, hticket⟩
  have haccepts : Accepts s s' <->
      c.getCredit ≥ orderPrice cfg (leftOf c (orderAt inp s)) := by
    rw [Accepts, hrefused, not_lt]
  refine ⟨s', hstep, by rw [haccepts, hleft, hcredit], fun haccepted => ?_⟩
  rcases sold_of_settles hcfg hinp hknown (huid.symm ▸ hsame) hc
      (haccepts.mp haccepted) hsettles with ⟨hsold, hothers, hsent⟩
  rw [huid, hleft, propext happlies] at hsold
  rw [huid] at hothers
  refine ⟨hsold, hothers, ⟨_, ?_, ((hash.perm _).map _), ?_⟩, hempty⟩
  · rw [Loop.sent_of_rows hrows, rowsOf, huid, hsent, hleft]
    unfold ticketRows
    by_cases huses : UsesTicket (s.world.mem target.uid) (orderAt inp s)
    · rw [if_pos huses, if_pos (happlies.mpr huses), hticket huses]
    · rw [if_neg huses, if_neg (fun h => huses (happlies.mp h))]
  · rw [sum_entryRows, hsold.credit, sub_sub_cancel, orderPrice,
      ((hash.perm _).map _).sum_eq]

def tenAndTicket : Memory Rat := fun a =>
  if a = 4 then Bytes.putName (fun _ => 0) (ascii "DEBIT")
  else if a = 5 then Bytes.putCredit (fun _ => 0) 10
  else if a = 6 then Bytes.putFirst (fun _ => 0) 1
  else fun _ => 0

theorem oneConso_pricesNonneg : oneConso.PricesNonneg := by
  intro conso hconso
  rw [List.mem_singleton.mp hconso]
  decide

theorem sale_exact_of_two :
    let inp : Input Rat :=
      { Input.idle with
        found := some ⟨fun _ => 1, 0x4⟩ }
    let s : Loop Locals Rat :=
      ⟨⟨increment (increment ∅ 0) 0, 0⟩, none, false,
        World.start (fun _ => tenAndTicket) .bar⟩
    exists s', step oneConso (HashOrder.filled, inp) s = some s' ∧
      (s'.world.mem (fun _ => 1) 5).credit = 8 ∧
      (s'.world.mem (fun _ => 1) 6).first = 0 ∧ s'.locals.conso = ∅ := by
  intro inp s
  have hinp : inp.Accepted := ⟨rfl, rfl, rfl⟩
  have horder : orderAt inp s = increment (increment ∅ 0) 0 := rfl
  have hknown : Known oneConso (orderAt inp s) :=
    ((known_empty oneConso).increment (by decide)).increment (by decide)
  have hcounts : forall k, k ∈ orderAt inp s ->
      0 < count (orderAt inp s) k ∧
        count (orderAt inp s) k < sizeValues := by
    intro k hk
    have hzero : k = 0 := by
      rw [horder] at hk
      rcases (AList.mem_insert _).mp hk with hk | hk
      · exact hk
      · exact ((AList.mem_insert _).mp hk).resolve_right (AList.notMem_empty k)
    rw [hzero]
    decide +kernel
  have harrival : Loop.arrival (oneConso.getKeys false) inp s.card =
      some ⟨fun _ => 1, 0x4⟩ := by
    decide +kernel
  rcases sale_exact oneConso_pricesNonneg HashOrder.filled hinp harrival (by decide +kernel)
      (by decide +kernel) hknown hcounts with ⟨s', hstep, haccepts, hmade⟩
  have hsale := hmade (haccepts.mpr (by decide +kernel))
  have huses : UsesTicket tenAndTicket (orderAt inp s) := by
    decide +kernel
  refine ⟨s', hstep, ?_, ?_, hsale.emptied⟩
  · rw [hsale.card.credit]
    decide +kernel
  · rw [(hsale.card.ticket huses).left]
    decide +kernel

end Bar

end BeeGadz
