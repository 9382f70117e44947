import Mathlib.Algebra.Order.Ring.Rat
import Mathlib.Algebra.Order.BigOperators.Group.List
import Mathlib.Tactic.Linarith
import BeeGadz.Serve.Bar
import BeeGadz.Serve.Caisse
import BeeGadz.Serve.Kve

/-!
# The ledger

The rows of a run are compared with what happened to block 5 of the cards.  They
agree as long as the reader reads, authenticates and writes the blocks of the
record: the rows are sent whether or not the card was written.
-/

namespace BeeGadz

open Foundation

/-!
## Rows and credits
-/

def pricesOf (kind : RowKind) (uid : Uid) (sent : List (Uid × Row)) : Rat :=
  ((sent.filter fun x => x.1 = uid ∧ x.2.kind = kind).map
    fun x => x.2.price).sum

@[simp] theorem pricesOf_nil (kind : RowKind) (uid : Uid) :
    pricesOf kind uid [] = 0 := rfl

@[simp] theorem pricesOf_append (kind : RowKind) (uid : Uid)
    (first second : List (Uid × Row)) :
    pricesOf kind uid (first ++ second) =
      pricesOf kind uid first + pricesOf kind uid second := by
  simp [pricesOf]

theorem pricesOf_single (kind : RowKind) (uid : Uid) (row : Row)
    (card : Uid) :
    pricesOf kind uid [(card, row)] =
      if card = uid ∧ row.kind = kind then row.price else 0 := by
  unfold pricesOf
  split
  · rename_i h
    simp [h.left, h.right]
  · rename_i h
    rw [List.filter_cons_of_neg (by simpa using h)]
    rfl

theorem pricesOf_same (uid u : Uid) {kind : RowKind} {row : Row}
    (h : row.kind = kind) :
    pricesOf kind u [(uid, row)] = if uid = u then row.price else 0 := by
  rw [pricesOf_single]
  simp [h]

theorem pricesOf_other (uid u : Uid) {kind : RowKind} {row : Row}
    (h : row.kind ≠ kind) : pricesOf kind u [(uid, row)] = 0 := by
  rw [pricesOf_single, if_neg]
  intro hall
  rcases hall with ⟨_, hkind⟩
  exact h hkind

section Runs

variable {ι L β : Type} [FloatCell β]

def rowTotal (kind : RowKind) (uid : Uid) (s : Loop L β) : Rat :=
  pricesOf kind uid (rows s.world.log)

/-- The credit in block 5 of a card, whatever its block 4 says. -/
def storedCredit (uid : Uid) (s : Loop L β) : Rat :=
  (s.world.mem uid 5).credit

def decrease (uid : Uid) (r : Transition ι (Loop L β)) : Rat :=
  max 0 (storedCredit uid r.before - storedCredit uid r.after)

def increase (uid : Uid) (r : Transition ι (Loop L β)) : Rat :=
  max 0 (storedCredit uid r.after - storedCredit uid r.before)

/-- At every loop head of a run, the sales sum up to the decreases of the credit
on a card and the top-ups to its increases. -/
def LedgerAgrees (step : ι -> Loop L β -> Option (Loop L β)) (is : List ι)
    (s : Loop L β) : Prop :=
  forall uid first t, first <+: is -> Run.head step first s = some t ->
    rowTotal .sale uid t =
        rowTotal .sale uid s + Run.total step (decrease uid) first s ∧
      rowTotal .topUp uid t =
        rowTotal .topUp uid s + Run.total step (increase uid) first s

def Balanced (r : Transition ι (Loop L β)) : Prop :=
  forall uid,
    rowTotal .sale uid r.after =
        rowTotal .sale uid r.before + decrease uid r ∧
      rowTotal .topUp uid r.after =
        rowTotal .topUp uid r.before + increase uid r

theorem ledgerAgrees_iff {step : ι -> Loop L β -> Option (Loop L β)}
    {is : List ι} {s : Loop L β} :
    LedgerAgrees step is s <->
      forall r, r ∈ Run.transitions step is s -> Balanced r := by
  constructor
  · intro h r hr uid
    have hsale := (Run.balance_iff (f := decrease uid)).mp
      (fun first t hfirst ht => (h uid first t hfirst ht).left) r hr
    have htopUp := (Run.balance_iff (f := increase uid)).mp
      (fun first t hfirst ht => (h uid first t hfirst ht).right) r hr
    exact ⟨hsale, htopUp⟩
  · intro h uid first t hfirst ht
    exact ⟨Run.balance_iff.mpr (fun r hr => (h r hr uid).left) first t hfirst ht,
      Run.balance_iff.mpr (fun r hr => (h r hr uid).right) first t hfirst ht⟩

theorem amounts_iff {p q a b : Rat} (hp : 0 ≤ p) (hq : 0 ≤ q)
    (hone : p = 0 ∨ q = 0) :
    (p = max 0 (b - a) ∧ q = max 0 (a - b)) <-> a = b - p + q := by
  constructor
  · intro hall
    rcases hall with ⟨hdown, hup⟩
    cases le_total a b with
    | inl hle =>
        rw [max_eq_right (by linarith)] at hdown
        rw [max_eq_left (by linarith)] at hup
        linarith
    | inr hle =>
        rw [max_eq_left (by linarith)] at hdown
        rw [max_eq_right (by linarith)] at hup
        linarith
  · intro h
    cases hone with
    | inl hzero =>
        rw [max_eq_left (by linarith), max_eq_right (by linarith)]
        constructor <;> linarith
    | inr hzero =>
        rw [max_eq_right (by linarith), max_eq_left (by linarith)]
        constructor <;> linarith

theorem balanced_iff {r : Transition ι (Loop L β)} {uid : Uid} {p q : Rat}
    {new : List (Uid × Row)} (hp : 0 ≤ p) (hq : 0 ≤ q) (hone : p = 0 ∨ q = 0)
    (hrows : rows r.after.world.log = rows r.before.world.log ++ new)
    (hsales : forall u, pricesOf .sale u new = if uid = u then p else 0)
    (htopUps : forall u, pricesOf .topUp u new = if uid = u then q else 0)
    (hothers : forall u, u ≠ uid ->
      storedCredit u r.after = storedCredit u r.before) :
    Balanced r <->
      storedCredit uid r.after = storedCredit uid r.before - p + q := by
  have hsale : forall u, rowTotal .sale u r.after =
      rowTotal .sale u r.before + if uid = u then p else 0 := by
    intro u
    rw [rowTotal, hrows, pricesOf_append, hsales]
    rfl
  have htopUp : forall u, rowTotal .topUp u r.after =
      rowTotal .topUp u r.before + if uid = u then q else 0 := by
    intro u
    rw [rowTotal, hrows, pricesOf_append, htopUps]
    rfl
  rw [← amounts_iff hp hq hone]
  constructor
  · intro h
    rcases h uid with ⟨hdown, hup⟩
    rw [hsale uid, if_pos rfl] at hdown
    rw [htopUp uid, if_pos rfl] at hup
    exact ⟨add_left_cancel hdown, add_left_cancel hup⟩
  · intro hall u
    rcases hall with ⟨hdown, hup⟩
    by_cases hu : uid = u
    · subst hu
      rw [hsale uid, htopUp uid, if_pos rfl, if_pos rfl]
      exact ⟨congrArg _ hdown, congrArg _ hup⟩
    · have hsame := hothers u (fun h => hu h.symm)
      rw [hsale u, htopUp u, if_neg hu, if_neg hu, decrease, increase, hsame,
        sub_self, max_self]
      exact ⟨rfl, rfl⟩

theorem balanced_of_same {r : Transition ι (Loop L β)}
    {new : List (Uid × Row)}
    (hrows : rows r.after.world.log = rows r.before.world.log ++ new)
    (hsales : forall u, pricesOf .sale u new = 0)
    (htopUps : forall u, pricesOf .topUp u new = 0)
    (hcredits : forall u, storedCredit u r.after = storedCredit u r.before) :
    Balanced r := by
  intro uid
  have hsale : rowTotal .sale uid r.after = rowTotal .sale uid r.before := by
    rw [rowTotal, hrows, pricesOf_append, hsales, add_zero]
    rfl
  have htopUp : rowTotal .topUp uid r.after =
      rowTotal .topUp uid r.before := by
    rw [rowTotal, hrows, pricesOf_append, htopUps, add_zero]
    rfl
  rw [hsale, htopUp, decrease, increase, hcredits, sub_self, max_self,
    add_zero, add_zero]
  exact ⟨rfl, rfl⟩

theorem balanced_of_still {r : Transition ι (Loop L β)}
    (hrows : rows r.after.world.log = rows r.before.world.log)
    (hmem : r.after.world.mem = r.before.world.mem) : Balanced r := by
  have hnew : rows r.after.world.log = rows r.before.world.log ++ [] := by
    rw [hrows, List.append_nil]
  apply balanced_of_same hnew (fun _ => rfl) (fun _ => rfl)
  intro u
  rw [storedCredit, hmem]
  rfl

end Runs

variable {β : Type} [FloatCell β]

/-!
## Credits on their way to a card
-/

section Credits

variable {keys : Vec UInt8} {target : Target} {pass : Pass β}
  {mem : Memory β}

/-- The answers to the write of a credit over another one: block 5 is
authenticated and its write not rejected, unless both are the same, and a write
that the tag leaves in the middle of leaves the new one. -/
structure CreditReaches (keys : Vec UInt8) (target : Target) (pass : Pass β)
    (old new : Rat) : Prop where
  written : old ≠ new ->
    (Card.fresh target keys : Card β).authResult (pass 5) = .accepted ∧
      (pass 5).write ≠ .rejected
  whole : forall contents, (pass 5).write = .torn contents ->
    (Card.fresh target keys : Card β).authResult (pass 5) = .accepted ->
      contents.credit = new

theorem creditReaches_of_stores
    (h : (Card.fresh target keys : Card β).Stores (pass 5)) (old new : Rat) :
    CreditReaches keys target pass old new := by
  rcases h with ⟨hauth, hwrite⟩
  refine ⟨fun _ => ⟨hauth, ?_⟩, ?_⟩
  · intro hrejected
    rw [hrejected] at hwrite
    cases hwrite
  · intro contents htorn
    rw [htorn] at hwrite
    cases hwrite

/-- What the answers leave in block 5, by cases on them. -/
theorem left_credit_cases [ExactFloat β] (data : Bytes β 16) (q new : Rat) :
    (left keys target pass mem 5 (data.putCredit q)).credit = new <->
      ((Card.fresh target keys : Card β).authResult (pass 5) ≠ .accepted ->
        (mem 5).credit = new) ∧
      ((Card.fresh target keys : Card β).authResult (pass 5) = .accepted ->
        ((pass 5).write = .accepted -> q = new) ∧
        ((pass 5).write = .rejected -> (mem 5).credit = new) ∧
        forall contents, (pass 5).write = .torn contents ->
          contents.credit = new) := by
  unfold left Card.leaves
  cases hauth : (Card.fresh target keys : Card β).authResult (pass 5) with
  | gone => simp
  | refused => simp
  | accepted =>
      cases hreply : (pass 5).write with
      | accepted => simp [Reply.leaves]
      | rejected => simp [Reply.leaves]
      | torn contents => simp [Reply.leaves]

theorem left_credit_iff [ExactFloat β] (data : Bytes β 16) (new : Rat) :
    (left keys target pass mem 5 (data.putCredit new)).credit = new <->
      CreditReaches keys target pass (mem 5).credit new := by
  rw [left_credit_cases]
  constructor
  · intro hall
    rcases hall with ⟨hunwritten, htried⟩
    constructor
    · intro hne
      have hauth := not_not.mp (mt hunwritten hne)
      exact ⟨hauth, mt (htried hauth).right.left hne⟩
    · intro contents htorn hauth
      exact (htried hauth).right.right contents htorn
  · intro h
    refine ⟨?_, fun hauth => ⟨fun _ => rfl, ?_, ?_⟩⟩
    · intro hauth
      by_contra hne
      exact hauth (h.written hne).left
    · intro hrejected
      by_contra hne
      exact (h.written hne).right hrejected
    · intro contents htorn
      exact h.whole contents htorn hauth

end Credits

/-!
## Kve
-/

namespace Kve

/-- A sale for which no ticket is used, from a credit other than 0 that was read
on a DEBIT card and covers it, reaches the card. -/
def SaleReachesOn (cfg : Config) (inp : Input β) (s : Loop Locals β)
    (target : Target) : Prop :=
  let mem : Memory β := s.world.mem target.uid
  let loaded := Loop.Loaded inp (cfg.getKeys false) target
  loaded 4 -> mem.Says .debit ->
    ¬ (wanted inp s.locals = true ∧ loaded 6 ∧ mem.tickets ≠ 0) ->
    loaded 5 -> inp.amount ≤ (mem 5).credit -> (mem 5).credit ≠ 0 ->
      CreditReaches (cfg.getKeys false) target inp.writing (mem 5).credit
        ((mem 5).credit - inp.amount)

def SaleReaches (cfg : Config) (inp : Input β) (s : Loop Locals β) : Prop :=
  forall target,
    Loop.arrival (cfg.getKeys false) inp s.card = some target ->
      SaleReachesOn cfg inp s target

theorem pricesOf_ticketRows (cfg : Config) (c : Card β) (kind : RowKind)
    (hkind : kind ≠ .ticket) (uid : Uid) :
    pricesOf kind uid (ticketRows cfg c) = 0 := by
  unfold ticketRows
  split
  · exact pricesOf_other _ uid hkind.symm
  · rfl

theorem balanced_sale_iff [ExactFloat β] {cfg : Config} {inp : Input β}
    {s s' : Loop Locals β} {target : Target} {c c' : Card β}
    (hamount : 0 ≤ inp.amount)
    (hpresented : Loop.Presented inp (cfg.getKeys false) target
      (s.world.mem target.uid) c)
    (hdebit : c.isDebit)
    (hwants : ¬ (wanted inp s.locals = true ∧ c.hasTicket))
    (hcovers : c.getCredit ≥ inp.amount)
    (hcharged : Session.Charged inp.writing inp.amount c s.world.mem c'
      s'.world.mem)
    (hsent : rows s'.world.log =
      rows s.world.log ++ [(target.uid, saleRow cfg inp.amount)]) :
    Balanced (⟨s, inp, s'⟩ : Transition (Input β) (Loop Locals β)) <->
      SaleReachesOn cfg inp s target := by
  have hsay := hpresented.isDebit_iff.mp hdebit
  have hstored := Loop.says_of_seen hsay
  have hpaid := hcharged.memory hpresented.unmodified.onlyPending (by simp)
  rw [hpresented.uid, leaves_eq_left hpresented.frame] at hpaid
  rcases hpaid with ⟨hothers, _, hcredit⟩
  have htopUps : forall u,
      pricesOf .topUp u [(target.uid, saleRow cfg inp.amount)] =
        if target.uid = u then 0 else 0 := by
    intro u
    rw [pricesOf_other target.uid u (by simp [saleRow]), ite_self]
  have hsales : forall u,
      pricesOf .sale u [(target.uid, saleRow cfg inp.amount)] =
        if target.uid = u then inp.amount else 0 :=
    fun u => pricesOf_same target.uid u rfl
  rw [balanced_iff (r := ⟨s, inp, s'⟩) hamount (le_refl 0) (Or.inr rfl) hsent
    hsales htopUps
    (fun u hu => congrArg Bytes.credit (congrFun (hothers u hu) 5)), add_zero]
  have hview := (hpresented.credit_eq hdebit).trans (Loop.credit_seen hsay)
  rw [Memory.credit_of_says hstored] at hview
  have hwants' := (not_congr (and_congr_right fun _ =>
    (hpresented.hasTicket_iff hdebit).trans
      (Loop.tickets_seen_iff hsay))).mp hwants
  unfold storedCredit
  by_cases hzero : c.getCredit = 0
  · rw [if_pos hzero] at hcredit
    have hamountZero : inp.amount = 0 :=
      le_antisymm (hzero ▸ hcovers) hamount
    constructor
    · intro _ _ _ _ hloaded _ hne
      rw [hzero, if_pos hloaded] at hview
      exact absurd hview.symm hne
    · intro _
      rw [hcredit, hamountZero, sub_zero]
  · have hloaded : Loop.Loaded inp (cfg.getKeys false) target 5 := by
      by_contra hnot
      exact hzero (hview.trans (if_neg hnot))
    rw [if_pos hloaded] at hview
    rw [if_neg hzero, hview] at hcredit
    rw [hcredit, left_credit_iff]
    constructor
    · intro h _ _ _ _ _ _
      exact h
    · intro h
      exact h (Loop.loaded_of_role hsay) hstored hwants' hloaded
        (hview ▸ hcovers) (hview ▸ hzero)

theorem balanced_iff_reaches [ExactFloat β] {cfg : Config} {inp : Input β}
    {s s' : Loop Locals β} (hamount : 0 ≤ inp.amount)
    (h : step cfg inp s = some s') :
    Balanced (⟨s, inp, s'⟩ : Transition (Input β) (Loop Locals β)) <->
      SaleReaches cfg inp s := by
  have hrun := step_run h
  cases harrival : Loop.arrival (cfg.getKeys false) inp s.card with
  | none =>
      rw [harrival] at hrun
      constructor
      · intro _ target hsome
        rw [harrival] at hsome
        cases hsome
      · intro _
        exact balanced_of_still hrun.right hrun.left
  | some target =>
      rw [harrival] at hrun
      rcases hrun with ⟨s₁, c, hc, hmem, hrows, hpresented, hserves⟩
      have hiff : SaleReaches cfg inp s <->
          SaleReachesOn cfg inp s target := by
        unfold SaleReaches
        rw [harrival]
        simp
      rw [hiff]
      cases hserves with
      | still idle keeps =>
          constructor
          · intro _ hloaded hstored _ hcredit hcovers
            have hsay := Loop.says_seen_iff.mpr ⟨hloaded, hstored⟩
            have hdebit := hpresented.isDebit_iff.mpr hsay
            have hshort := (idle hdebit).right
            rw [hpresented.credit_eq hdebit, Loop.credit_seen hsay,
              if_pos hcredit, Memory.credit_of_says hstored] at hshort
            exact absurd hcovers (not_le_of_gt hshort)
          · intro _
            exact balanced_of_still (keeps.rows.trans hrows)
              (keeps.mem.trans hmem)
      | ticket c' debit wants card frame blocks flushed sent =>
          constructor
          · intro _ _ _ hwants
            have hticket := (hpresented.hasTicket_iff debit).mp wants.right
            have hread := (Loop.tickets_seen_iff
              (hpresented.isDebit_iff.mp debit)).mp hticket
            exact absurd ⟨wants.left, hread⟩ hwants
          · intro _
            rw [hrows] at sent
            rw [hmem] at flushed
            have hkept : forall {a}, a ≠ 6 -> forall u,
                s'.world.mem u a = s.world.mem u a := fun ha u =>
              flushed.ticketTaken hpresented.unmodified ha u
            apply balanced_of_same sent
            · exact pricesOf_ticketRows _ _ _ (by decide)
            · exact pricesOf_ticketRows _ _ _ (by decide)
            · exact fun u => congrArg Bytes.credit (hkept (by decide) u)
      | sale c' debit wants covers card charged sent =>
          rw [hmem] at charged
          rw [hrows, hpresented.uid] at sent
          exact balanced_sale_iff hamount hpresented debit wants covers
            charged sent

end Kve

/-!
## Bar
-/

namespace Bar

def due (cfg : Config) (hash : HashOrder) (order : Order) (view : Memory β) :
    Except Exn Rat :=
  if view.tickets ≠ 0 ∧ view.ticket.toNat ∈ order then
    match cfg.getConso view.ticket.toNat with
    | .ok _ => getPrice β cfg hash (decrement order view.ticket.toNat)
    | .error e => .error e
  else getPrice β cfg hash order

/-- An order that is paid from a credit other than 0, which was read on a DEBIT
card and covers what is due, reaches the card. -/
def OrderReachesOn (cfg : Config) (hash : HashOrder) (inp : Input β)
    (s : Loop Locals β) (target : Target) : Prop :=
  let mem : Memory β := s.world.mem target.uid
  let view : Memory β := Loop.seen inp (cfg.getKeys false) target mem
  let loaded := Loop.Loaded inp (cfg.getKeys false) target
  forall price, loaded 4 -> mem.Says .debit ->
    isEmpty (orderAt inp s) = false ->
    due cfg hash (orderAt inp s) view = .ok price ->
    loaded 5 -> price ≤ (mem 5).credit -> (mem 5).credit ≠ 0 ->
      CreditReaches (cfg.getKeys false) target inp.writing (mem 5).credit
        ((mem 5).credit - price)

def OrderReaches (cfg : Config) (hash : HashOrder) (inp : Input β)
    (s : Loop Locals β) : Prop :=
  forall target,
    Loop.arrival (cfg.getKeys false) inp s.card = some target ->
      OrderReachesOn cfg hash inp s target

omit [FloatCell β] in
theorem pricesOf_rowsOf {c : Card β} {sent : List Row} {kind : RowKind}
    (h : forall row, row ∈ sent -> row.kind = kind) (other : RowKind)
    (uid : Uid) :
    pricesOf other uid (rowsOf c sent) =
      if c.uid = uid ∧ kind = other then (sent.map Row.price).sum else 0 := by
  induction sent with
  | nil => simp [rowsOf]
  | cons row rest ih =>
      have hrest := ih fun r hr => h r (List.mem_cons_of_mem _ hr)
      have hrow : row.kind = kind := h row List.mem_cons_self
      have hsingle : rowsOf c [row] = [(c.uid, row)] := rfl
      rw [rowsOf_cons, pricesOf_append, hrest, hsingle, pricesOf_single, hrow]
      split
      · rw [List.map_cons, List.sum_cons]
      · exact add_zero 0

/-- Rows for one card that come to a price, and what happened to the credits:
nothing, or the price that is owed was taken from the credit. -/
structure Effect (owed : Except Exn Rat) (credit : Rat)
    (next : Rat -> Bytes β 16) (uid : Uid) (mem mem' : Uid -> Nat -> Bytes β 16)
    (sent : List (Uid × Row)) (p : Rat) : Prop where
  nonneg : 0 ≤ p
  sales : forall u, pricesOf .sale u sent = if uid = u then p else 0
  topUps : forall u, pricesOf .topUp u sent = 0
  others : forall u, u ≠ uid -> mem' u 5 = mem u 5
  paid : (p = 0 ∧ mem' uid 5 = mem uid 5 ∧
      forall price, owed = .ok price -> price ≤ credit -> credit = 0) ∨
    (owed = .ok p ∧ p ≤ credit ∧ credit ≠ 0 ∧ mem' uid 5 = next p)

theorem Pays.effect [ExactFloat β] {cfg : Config} (hcfg : cfg.PricesNonneg)
    {hash : HashOrder} {inp : Input β} {order : Order} {c c' : Card β}
    {mem mem' : Uid -> Nat -> Bytes β 16} {sent : List Row}
    (h : Pays cfg hash inp order c mem c' mem' sent) {blocks : List Nat}
    (honly : c.OnlyPending blocks) (h4 : 4 ∉ blocks) :
    exists p, Effect (getPrice β cfg hash order) c.getCredit
      (fun q => c.leaves (inp.writing 5) (mem c.uid 5)
        ((c.block 1 1).data.putCredit (c.getCredit - q)))
      c.uid mem mem' (rowsOf c sent) p := by
  cases h with
  | unpaid short card kept =>
      rw [kept]
      refine ⟨0, le_refl 0, fun u => by simp [rowsOf], fun _ => rfl,
        fun _ _ => rfl, Or.inl ⟨rfl, rfl, ?_⟩⟩
      intro price hprice hcovers
      exact absurd hcovers (not_le_of_gt (short price hprice))
  | paid price priced covers charged =>
      rcases charged.memory honly h4 with ⟨hothers, _, hcredit⟩
      have hsum : ((saleRows β cfg (hash.entries order)).map Row.price).sum =
          price := by
        rw [addPrices_eq priced, zero_add]
      have hnonneg : 0 ≤ price := by
        rw [← hsum]
        apply List.sum_nonneg
        intro q hq
        rcases List.mem_map.mp hq with ⟨row, hrow, rfl⟩
        exact saleRows_nonneg hcfg hrow
      have hsale : forall row, row ∈ saleRows β cfg (hash.entries order) ->
          row.kind = .sale := fun row hrow => saleRows_kind hrow
      refine ⟨price, hnonneg, fun u => ?_, fun u => ?_,
        fun u hu => congrFun (hothers u hu) 5, ?_⟩
      · rw [pricesOf_rowsOf hsale, hsum]
        simp
      · rw [pricesOf_rowsOf hsale, if_neg (by simp)]
      · by_cases hzero : c.getCredit = 0
        · rw [if_pos hzero] at hcredit
          have hfree : price = 0 := le_antisymm (hzero ▸ covers) hnonneg
          exact Or.inl ⟨hfree, hcredit, fun _ _ _ => hzero⟩
        · rw [if_neg hzero] at hcredit
          exact Or.inr ⟨priced, covers, hzero, hcredit⟩

section Due

variable {inp : Input β} {keys : Vec UInt8} {target : Target}
  {mem : Memory β} {c : Card β}

theorem applies_iff (h : Loop.Presented inp keys target mem c)
    (hdebit : c.isDebit) (order : Order) :
    TicketApplies c order <->
      Memory.tickets (Loop.seen inp keys target mem) ≠ 0 ∧
        (Memory.ticket (Loop.seen inp keys target mem)).toNat ∈ order := by
  unfold TicketApplies
  rw [h.hasTicket_iff hdebit, h.getTicket_eq hdebit]

theorem due_of_skips (h : Loop.Presented inp keys target mem c)
    (hdebit : c.isDebit) {order : Order} (hskips : ¬ TicketApplies c order)
    (cfg : Config) (hash : HashOrder) :
    due cfg hash order (Loop.seen inp keys target mem) =
      getPrice β cfg hash order :=
  if_neg (fun happlies => hskips ((applies_iff h hdebit order).mpr happlies))

theorem due_of_applies (h : Loop.Presented inp keys target mem c)
    (hdebit : c.isDebit) {order : Order} (happlies : TicketApplies c order)
    (cfg : Config) (hash : HashOrder) :
    due cfg hash order (Loop.seen inp keys target mem) =
      match cfg.getConso c.getTicket.toNat with
      | .ok _ => getPrice β cfg hash (decrement order c.getTicket.toNat)
      | .error e => .error e := by
  rw [due, if_pos ((applies_iff h hdebit order).mp happlies),
    ← h.getTicket_eq hdebit]

end Due

theorem Settles.effect [ExactFloat β] {cfg : Config} (hcfg : cfg.PricesNonneg)
    {hash : HashOrder} {inp : Input β} {order : Order} {target : Target}
    {c c' : Card β} {mem mem' : Uid -> Nat -> Bytes β 16} {sent : List Row}
    (hpresented : Loop.Presented inp (cfg.getKeys false) target
      (mem target.uid) c) (hdebit : c.isDebit)
    (h : Settles cfg hash inp order c mem c' mem' sent) :
    let view : Memory β :=
      Loop.seen inp (cfg.getKeys false) target (mem target.uid)
    exists p, Effect (due cfg hash order view) view.credit
      (fun q => left (cfg.getKeys false) target inp.writing (mem target.uid) 5
        ((view 5).putCredit (view.credit - q)))
      target.uid mem mem' (rowsOf c sent) p := by
  intro view
  have hcredit : c.getCredit = view.credit := hpresented.credit_eq hdebit
  have hdata : (c.block 1 1).data = view 5 := hpresented.seen 1 (by decide)
  cases h with
  | unknown applies missing card kept =>
      rw [kept]
      refine ⟨0, le_refl 0, fun u => by simp [rowsOf], fun _ => rfl,
        fun _ _ => rfl, Or.inl ⟨rfl, rfl, ?_⟩⟩
      intro price hdue
      rw [due_of_applies hpresented hdebit applies] at hdue
      cases hconso : cfg.getConso c.getTicket.toNat with
      | ok conso => exact absurd hconso (missing conso)
      | error e =>
          rw [hconso] at hdue
          cases hdue
  | plain skips pays =>
      rcases pays.effect hcfg hpresented.unmodified.onlyPending (by simp) with
        ⟨p, heffect⟩
      refine ⟨p, ?_⟩
      simp only [leaves_eq_left hpresented.frame, hcredit, hdata,
        hpresented.uid] at heffect
      rw [due_of_skips hpresented hdebit skips]
      exact heffect
  | @ticket applies conso known c₂ mem₂ frame blocks flushed rest pays =>
      have hpending : c₂.OnlyPending [6] :=
        (Card.onlyPending_edit hpresented.unmodified.onlyPending (by decide)
          _).of_sameBlocks blocks
      have hblock : c₂.block 1 1 = c.block 1 1 :=
        (blocks 1 1).trans (c.edit_block_of_ne _ (by decide))
      have hkept : forall {a}, a ≠ 6 -> forall u, mem₂ u a = mem u a :=
        fun ha u => flushed.ticketTaken hpresented.unmodified ha u
      rcases pays.effect hcfg hpending (by decide) with ⟨p, heffect⟩
      refine ⟨p, ?_⟩
      simp only [leaves_eq_left (hpresented.frame.trans frame),
        ticketTaken_getCredit blocks, hblock, hcredit, hdata, frame.uid,
        hpresented.uid, rowsOf_congr frame,
        left_congr (hkept (by decide : 5 ≠ 6) target.uid)] at heffect
      rw [due_of_applies hpresented hdebit applies, known]
      have hrow : forall kind, kind ≠ RowKind.ticket -> forall u,
          pricesOf kind u (rowsOf c (ticketRow cfg conso :: rest)) =
            pricesOf kind u (rowsOf c rest) := by
        intro kind hkind u
        have hsingle : rowsOf c [ticketRow cfg conso] =
            [(c.uid, ticketRow cfg conso)] := rfl
        rw [rowsOf_cons, pricesOf_append, hsingle,
          pricesOf_other c.uid u hkind.symm, zero_add]
      refine ⟨heffect.nonneg, fun u => ?_, fun u => ?_, fun u hu => ?_, ?_⟩
      · rw [hrow .sale (by simp)]
        exact heffect.sales u
      · rw [hrow .topUp (by simp)]
        exact heffect.topUps u
      · exact (heffect.others u hu).trans (hkept (by decide) u)
      · have hpaid := heffect.paid
        rw [hkept (by decide : 5 ≠ 6)] at hpaid
        exact hpaid

theorem balanced_iff_reaches [ExactFloat β] {cfg : Config} (hcfg : cfg.PricesNonneg)
    {hash : HashOrder} {inp : Input β} {s s' : Loop Locals β}
    (h : step cfg (hash, inp) s = some s') :
    Balanced (⟨s, (hash, inp), s'⟩ :
        Transition (HashOrder × Input β) (Loop Locals β)) <->
      OrderReaches cfg hash inp s := by
  have hrun := step_run h
  cases harrival : Loop.arrival (cfg.getKeys false) inp s.card with
  | none =>
      rw [harrival] at hrun
      constructor
      · intro _ target hsome
        rw [harrival] at hsome
        cases hsome
      · intro _
        exact balanced_of_still hrun.right hrun.left
  | some target =>
      rw [harrival] at hrun
      rcases hrun with ⟨s₁, c, hc, hmem, hrows, hpresented, hserves⟩
      have hiff : OrderReaches cfg hash inp s <->
          OrderReachesOn cfg hash inp s target := by
        unfold OrderReaches
        rw [harrival]
        simp
      rw [hiff]
      cases hserves with
      | still idle keeps =>
          constructor
          · intro _ price hloaded hstored hordered
            have hsay := Loop.says_seen_iff.mpr ⟨hloaded, hstored⟩
            exact absurd ⟨hpresented.isDebit_iff.mpr hsay, hordered⟩ idle
          · intro _
            exact balanced_of_still (keeps.rows.trans hrows)
              (keeps.mem.trans hmem)
      | settle debit ordered c' card sent settles sends =>
          have hsay := hpresented.isDebit_iff.mp debit
          rw [hmem] at settles
          rw [hrows] at sends
          rcases settles.effect hcfg hpresented debit with ⟨p, heffect⟩
          have htopUps : forall u, pricesOf .topUp u (rowsOf c sent) =
              if target.uid = u then 0 else 0 := by
            intro u
            rw [heffect.topUps u, ite_self]
          rw [balanced_iff (r := ⟨s, (hash, inp), s'⟩) heffect.nonneg
            (le_refl 0) (Or.inr rfl) sends heffect.sales htopUps
            (fun u hu => congrArg Bytes.credit (heffect.others u hu)),
            add_zero]
          have hstored := Loop.says_of_seen hsay
          have hview := Loop.credit_seen hsay
          rw [Memory.credit_of_says hstored] at hview
          unfold storedCredit
          cases heffect.paid with
          | inl hfree =>
              rcases hfree with ⟨hp, hkept, hnone⟩
              constructor
              · intro _ price _ _ _ hdue hloaded hcovers hne
                rw [if_pos hloaded] at hview
                rw [← hview] at hcovers hne
                exact absurd (hnone price hdue hcovers) hne
              · intro _
                rw [hkept, hp, sub_zero]
          | inr hpaid =>
              rcases hpaid with ⟨hdue, hcovers, hne, hleft⟩
              have hloaded : Loop.Loaded inp (cfg.getKeys false) target 5 := by
                by_contra hnot
                exact hne (hview.trans (if_neg hnot))
              rw [if_pos hloaded] at hview
              rw [hview] at hcovers hne hleft
              rw [hleft, left_credit_iff]
              constructor
              · intro hreaches price _ _ _ hprice _ _ _
                rw [hdue] at hprice
                cases hprice
                exact hreaches
              · intro hreaches
                exact hreaches p (Loop.loaded_of_role hsay) hstored ordered
                  hdue hloaded hcovers hne

end Bar

/-!
## Caisse
-/

namespace Caisse

/-- An amount that is put on a DEBIT card reaches the card, and is added to the
credit on it. -/
structure DepositReachesOn (cfg : Config) (inp : Input β) (mem : Memory β)
    (target : Target) : Prop where
  reaches : CreditReaches (cfg.getKeys true) target inp.writing
    (mem 5).credit ((mem 5).credit + inp.amount)
  read : (inp.writing 5).write = .accepted ->
    Loop.Loaded inp (cfg.getKeys true) target 5 ∨ (mem 5).credit = 0

/-- A card that is created had no credit, or its block 5 is not written: the tag
is lost at block 4, or block 5 is not authenticated, or its write is rejected or
torn with the old credit on the card. -/
def CreationKeepsOn (cfg : Config) (inp : Input β) (mem : Memory β)
    (target : Target) : Prop :=
  lostAt (cfg.getKeys true) target inp.writing 4 = false ->
    (Card.fresh target (cfg.getKeys true) : Card β).authResult
      (inp.writing 5) = .accepted ->
    ((inp.writing 5).write = .accepted -> (mem 5).credit = 0) ∧
      forall contents, (inp.writing 5).write = .torn contents ->
        contents.credit = (mem 5).credit

/-- What is put on a card that says DEBIT reaches it, and a card on which no
role was read is created over nothing. -/
structure TillReachesOn (cfg : Config) (inp : Input β) (s : Loop Unit β)
    (target : Target) : Prop where
  deposit : Loop.Loaded inp (cfg.getKeys true) target 4 ->
    Memory.Says (s.world.mem target.uid) .debit -> inp.amount ≤ 250 ->
    inp.amount ≠ 0 ->
      DepositReachesOn cfg inp (s.world.mem target.uid) target
  creation : (Loop.Loaded inp (cfg.getKeys true) target 4 ->
      forall role, ¬ Memory.Says (s.world.mem target.uid) role) ->
    CreationKeepsOn cfg inp (s.world.mem target.uid) target

def TillReaches (cfg : Config) (inp : Input β) (s : Loop Unit β) : Prop :=
  forall target,
    Loop.arrival (cfg.getKeys true) inp s.card = some target ->
      TillReachesOn cfg inp s target

theorem roleless_iff {inp : Input β} {keys : Vec UInt8} {target : Target}
    {mem : Memory β} {c : Card β}
    (h : Loop.Presented inp keys target mem c) :
    Roleless c <->
      (Loop.Loaded inp keys target 4 ->
        forall role, ¬ Memory.Says mem role) := by
  constructor
  · intro hall hloaded role hstored
    rcases hall with ⟨hadmin, hsos, hconso, hdebit⟩
    have hrole := (h.says_iff role).mpr
      (Loop.says_seen_iff.mpr ⟨hloaded, hstored⟩)
    cases role with
    | admin => exact hadmin hrole
    | sos => exact hsos hrole
    | conso => exact hconso hrole
    | debit => exact hdebit hrole
  · intro hnone
    have hnot : forall role : Role, ¬ c.testCard role.name := by
      intro role htest
      rcases Loop.says_seen_iff.mp ((h.says_iff role).mp htest) with
        ⟨hloaded, hstored⟩
      exact hnone hloaded role hstored
    exact ⟨hnot .admin, hnot .sos, hnot .conso, hnot .debit⟩

theorem deposit_reaches_iff [ExactFloat β] {cfg : Config} {inp : Input β}
    {mem : Memory β} {target : Target} {seen : Rat} (hne : inp.amount ≠ 0)
    (hseen : seen = if Loop.Loaded inp (cfg.getKeys true) target 5 then
      (mem 5).credit else 0) (data : Bytes β 16) :
    (left (cfg.getKeys true) target inp.writing mem 5
        (data.putCredit (inp.amount + seen))).credit =
          (mem 5).credit + inp.amount <->
      DepositReachesOn cfg inp mem target := by
  have hgrows : (mem 5).credit ≠ (mem 5).credit + inp.amount := by
    intro h
    exact hne (by linarith)
  have hsum : inp.amount + seen = (mem 5).credit + inp.amount <->
      Loop.Loaded inp (cfg.getKeys true) target 5 ∨ (mem 5).credit = 0 := by
    rw [add_comm, add_left_inj, hseen]
    by_cases hloaded : Loop.Loaded inp (cfg.getKeys true) target 5
    · simp [hloaded]
    · simp [hloaded, eq_comm]
  rw [left_credit_cases, hsum]
  constructor
  · intro hall
    rcases hall with ⟨hunwritten, htried⟩
    have hauth := not_not.mp (mt hunwritten hgrows)
    rcases htried hauth with ⟨hadded, hrejected, htorn⟩
    exact ⟨⟨fun _ => ⟨hauth, mt hrejected hgrows⟩,
      fun contents h _ => htorn contents h⟩, hadded⟩
  · intro h
    rcases h.reaches.written hgrows with ⟨hauth, hwrite⟩
    exact ⟨fun hnot => absurd hauth hnot, fun _ => ⟨h.read,
      fun hrejected => absurd hrejected hwrite,
      fun contents htorn => h.reaches.whole contents htorn hauth⟩⟩

theorem creation_keeps_iff [ExactFloat β] {cfg : Config} {inp : Input β}
    {mem view : Memory β} {target : Target} :
    (created (cfg.getKeys true) target inp.writing mem view 5).credit =
        (mem 5).credit <->
      CreationKeepsOn cfg inp mem target := by
  have hcreated : created (cfg.getKeys true) target inp.writing mem view 5 =
      if lostAt (cfg.getKeys true) target inp.writing 4 = true then mem 5
      else left (cfg.getKeys true) target inp.writing mem 5
        ((view 5).putCredit 0) := rfl
  rw [hcreated]
  unfold CreationKeepsOn
  cases hlost : lostAt (cfg.getKeys true) target inp.writing 4 with
  | true => simp
  | false =>
      rw [if_neg (by simp), left_credit_cases]
      constructor
      · intro hall _ hauth
        rcases hall.right hauth with ⟨hzero, _, htorn⟩
        exact ⟨fun hwrite => (hzero hwrite).symm, htorn⟩
      · intro h
        refine ⟨fun _ => rfl, fun hauth => ?_⟩
        rcases h rfl hauth with ⟨hzero, htorn⟩
        exact ⟨fun hwrite => (hzero hwrite).symm, fun _ => rfl, htorn⟩

section Presentation

variable {cfg : Config} {inp : Input β} {s s' : Loop Unit β}
  {target : Target} {c : Card β}

theorem balanced_create_iff [ExactFloat β]
    (hpresented : Loop.Presented inp (cfg.getKeys true) target
      (s.world.mem target.uid) c)
    (hroleless : Roleless c)
    (hflushed : Card.Flushed c.debitRecord inp.writing s.world.mem
      s'.world.mem 4 8)
    (hsent : rows s'.world.log = rows s.world.log) :
    Balanced (⟨s, inp, s'⟩ : Transition (Input β) (Loop Unit β)) <->
      TillReachesOn cfg inp s target := by
  have hnone := (roleless_iff hpresented).mp hroleless
  have hnew : rows s'.world.log = rows s.world.log ++ [] := by
    rw [hsent, List.append_nil]
  rcases Card.Flushed.created hpresented hflushed with ⟨hothers, hleft⟩
  have hafter : storedCredit target.uid s' =
      (created (cfg.getKeys true) target inp.writing (s.world.mem target.uid)
        (Loop.seen inp (cfg.getKeys true) target
          (s.world.mem target.uid)) 5).credit :=
    congrArg Bytes.credit (congrFun hleft 5)
  rw [balanced_iff (r := ⟨s, inp, s'⟩) (le_refl 0) (le_refl 0) (Or.inl rfl)
    hnew (fun u => by simp) (fun u => by simp)
    (fun u hu => congrArg Bytes.credit (congrFun (hothers u hu) 5)), sub_zero,
    add_zero, hafter]
  constructor
  · intro hkept
    exact ⟨fun hloaded hsay => absurd hsay (hnone hloaded .debit),
      fun _ => creation_keeps_iff.mp hkept⟩
  · intro hreaches
    exact creation_keeps_iff.mpr (hreaches.creation hnone)

theorem balanced_deposit_iff [ExactFloat β] (hamount : 0 ≤ inp.amount)
    (hpresented : Loop.Presented inp (cfg.getKeys true) target
      (s.world.mem target.uid) c)
    (hdebit : c.isDebit) (hfits : inp.amount ≤ 250)
    (hstays : inp.amount = 0 -> s'.world.mem = s.world.mem)
    (hadds : inp.amount ≠ 0 ->
      Card.Flushed (c.toppedUp inp.amount) inp.writing s.world.mem
        s'.world.mem 4 8)
    (hsent : rows s'.world.log =
      rows s.world.log ++ [(target.uid, topUpRow cfg inp.amount)]) :
    Balanced (⟨s, inp, s'⟩ : Transition (Input β) (Loop Unit β)) <->
      TillReachesOn cfg inp s target := by
  have hsay := hpresented.isDebit_iff.mp hdebit
  have hstored := Loop.says_of_seen hsay
  have hloaded := Loop.loaded_of_role hsay
  have hsales : forall u,
      pricesOf .sale u [(target.uid, topUpRow cfg inp.amount)] = 0 :=
    fun u => pricesOf_other target.uid u (by simp [topUpRow])
  have htopUps : forall u,
      pricesOf .topUp u [(target.uid, topUpRow cfg inp.amount)] =
        if target.uid = u then inp.amount else 0 :=
    fun u => pricesOf_same target.uid u rfl
  by_cases hzero : inp.amount = 0
  · constructor
    · intro _
      exact ⟨fun _ _ _ hne => absurd hzero hne,
        fun hnone => absurd hstored (hnone hloaded .debit)⟩
    · intro _
      apply balanced_of_same hsent hsales
      · intro u
        rw [htopUps u, hzero, ite_self]
      · intro u
        exact congrArg Bytes.credit (congrFun (congrFun (hstays hzero) u) 5)
  · have hadded := (hadds hzero).toppedUp hpresented.unmodified
    rw [hpresented.uid, leaves_eq_left hpresented.frame] at hadded
    rcases hadded with ⟨hothers, _, hcredit⟩
    have hview := (hpresented.credit_eq hdebit).trans (Loop.credit_seen hsay)
    rw [Memory.credit_of_says hstored] at hview
    have hnone : forall u,
        pricesOf .sale u [(target.uid, topUpRow cfg inp.amount)] =
          if target.uid = u then 0 else 0 := by
      intro u
      rw [hsales u, ite_self]
    rw [balanced_iff (r := ⟨s, inp, s'⟩) (le_refl 0) hamount (Or.inl rfl)
      hsent hnone htopUps
      (fun u hu => congrArg Bytes.credit (congrFun (hothers u hu) 5)),
      sub_zero]
    unfold storedCredit
    rw [hcredit, deposit_reaches_iff hzero hview]
    constructor
    · intro hreaches
      exact ⟨fun _ _ _ _ => hreaches,
        fun hnone => absurd hstored (hnone hloaded .debit)⟩
    · intro hreaches
      exact hreaches.deposit hloaded hstored hfits hzero

end Presentation

theorem balanced_iff_reaches [ExactFloat β] {cfg : Config} {inp : Input β}
    {s s' : Loop Unit β} (hamount : 0 ≤ inp.amount)
    (h : step cfg inp s = some s') :
    Balanced (⟨s, inp, s'⟩ : Transition (Input β) (Loop Unit β)) <->
      TillReaches cfg inp s := by
  have hrun := step_run h
  cases harrival : Loop.arrival (cfg.getKeys true) inp s.card with
  | none =>
      rw [harrival] at hrun
      rcases hrun with ⟨reads, hwire, hsees⟩
      constructor
      · intro _ target hsome
        rw [harrival] at hsome
        cases hsome
      · intro _
        exact balanced_of_still (hsees.rows hwire) hsees.mem
  | some target =>
      rw [harrival] at hrun
      rcases hrun with ⟨s₁, c, hsees, hc, hpresented, hserves⟩
      have hmem := hsees.mem
      have hrows := hsees.rows (Card.onWire_readEvents _ _ _ _ _)
      have hiff : TillReaches cfg inp s <->
          TillReachesOn cfg inp s target := by
        unfold TillReaches
        rw [harrival]
        simp
      rw [hiff]
      cases hserves with
      | still named idle keeps =>
          constructor
          · intro _
            constructor
            · intro hloaded hstored hfits _
              have hsay := Loop.says_seen_iff.mpr ⟨hloaded, hstored⟩
              exact absurd (idle (hpresented.isDebit_iff.mpr hsay))
                (not_lt_of_ge hfits)
            · intro hnone
              exact absurd ((roleless_iff hpresented).mpr hnone) named
          · intro _
            exact balanced_of_still (keeps.rows.trans hrows)
              (keeps.mem.trans hmem)
      | create roleless c' card blocks flushed speaks =>
          rw [hmem] at flushed
          have hsent : rows s'.world.log = rows s.world.log := by
            have hcons : rows (.info creation ::
                c.debitRecord.writeSays inp.writing) =
                  rows (c.debitRecord.writeSays inp.writing) := rfl
            rw [speaks.rows, hrows, hcons, Card.rows_writeSays,
              List.append_nil]
          exact balanced_create_iff hpresented roleless flushed hsent
      | deposit debit fits c' card stays adds said speaks quiet unread sent =>
          have hsent := speaks.rows
          rw [sent, hrows, hpresented.uid] at hsent
          rw [hmem] at stays adds
          exact balanced_deposit_iff hamount hpresented debit
            (le_of_not_gt fits) (fun hzero => (stays hzero).right)
            (fun hne => (adds hne).right) hsent

theorem tillReaches_of_stores {cfg : Config} {inp : Input β} {s : Loop Unit β}
    (h : forall target,
      Loop.arrival (cfg.getKeys true) inp s.card = some target ->
        Memory.Says (s.world.mem target.uid) .debit ∧
        Loop.Loaded inp (cfg.getKeys true) target 4 ∧
        Loop.Loaded inp (cfg.getKeys true) target 5 ∧
        (Card.fresh target (cfg.getKeys true) : Card β).Stores
          (inp.writing 5)) : TillReaches cfg inp s := by
  intro target harrival
  rcases h target harrival with ⟨hsay, hloaded4, hloaded5, hstores⟩
  exact ⟨fun _ _ _ _ =>
      ⟨creditReaches_of_stores hstores _ _, fun _ => Or.inl hloaded5⟩,
    fun hnone => absurd hsay (hnone hloaded4 .debit)⟩

end Caisse

/-- In a run with non-negative prices and amounts, the ledger agrees with the
credits in block 5 of the cards exactly when the answers let every credit that is
sent to a card reach it. -/
theorem ledger_agrees_iff [ExactFloat β] {cfg : Config} (hcfg : cfg.PricesNonneg) :
    (forall is (s : Loop Bar.Locals β),
      LedgerAgrees (Bar.step cfg) is s <->
        forall r, r ∈ Run.transitions (Bar.step cfg) is s ->
          Bar.OrderReaches cfg r.input.1 r.input.2 r.before) ∧
    (forall is (s : Loop Kve.Locals β),
      (forall inp, inp ∈ is -> 0 ≤ inp.amount) ->
        (LedgerAgrees (Kve.step cfg) is s <->
          forall r, r ∈ Run.transitions (Kve.step cfg) is s ->
            Kve.SaleReaches cfg r.input r.before)) ∧
    (forall is (s : Loop Unit β),
      (forall inp, inp ∈ is -> 0 ≤ inp.amount) ->
        (LedgerAgrees (Caisse.step cfg) is s <->
          forall r, r ∈ Run.transitions (Caisse.step cfg) is s ->
            Caisse.TillReaches cfg r.input r.before)) := by
  refine ⟨?_, ?_, ?_⟩
  · intro is s
    rw [ledgerAgrees_iff]
    exact forall₂_congr fun r hr =>
      Bar.balanced_iff_reaches hcfg (Run.mem_transitions_step hr)
  · intro is s hamounts
    rw [ledgerAgrees_iff]
    exact forall₂_congr fun r hr =>
      Kve.balanced_iff_reaches (hamounts _ (Run.mem_transitions_input hr))
        (Run.mem_transitions_step hr)
  · intro is s hamounts
    rw [ledgerAgrees_iff]
    exact forall₂_congr fun r hr =>
      Caisse.balanced_iff_reaches (hamounts _ (Run.mem_transitions_input hr))
        (Run.mem_transitions_step hr)

def emptyDebit : Memory Rat := fun a =>
  if a = 4 then Bytes.putName (fun _ => 0) (ascii "DEBIT") else fun _ => 0

def tenAdded : Input Rat :=
  { Input.idle with
    found := some ⟨fun _ => 1, 0x4⟩
    amount := 10 }

theorem ledger_agrees_of_ten :
    let cfg : Config :=
      ⟨[], "", 0, Vec.replicate 6 0xff, Vec.replicate 6 0xff⟩
    LedgerAgrees (Caisse.step cfg) [tenAdded]
      (Caisse.enter (World.start (fun _ => emptyDebit) .caisse)) := by
  intro cfg
  have hcfg : cfg.PricesNonneg := by
    intro conso hconso
    cases hconso
  have hamounts : forall inp : Input Rat, inp ∈ [tenAdded] ->
      0 ≤ inp.amount := by
    intro inp hinp
    rw [List.mem_singleton.mp hinp]
    decide +kernel
  apply ((ledger_agrees_iff hcfg).right.right _ _ hamounts).mpr
  intro r hr
  have hstep : (Caisse.step cfg tenAdded
      (Caisse.enter (World.start (fun _ => emptyDebit) .caisse))).isSome =
        true := by
    decide +kernel
  rcases Option.isSome_iff_exists.mp hstep with ⟨s', hs'⟩
  rw [Run.transitions_single hs'] at hr
  rw [List.mem_singleton.mp hr]
  apply Caisse.tillReaches_of_stores
  intro target _
  have hsay : Memory.Says emptyDebit .debit := by
    decide +kernel
  exact ⟨hsay, Card.readResult_accepting _, Card.readResult_accepting _,
    Card.stores_accepting _⟩

/-- The write of a top-up is rejected: the row is sent, the credit is what it
was. -/
theorem top_up_lost :
    let cfg : Config :=
      ⟨[], "", 0, Vec.replicate 6 0xff, Vec.replicate 6 0xff⟩
    let inp : Input Rat :=
      { tenAdded with
        writing := fun _ =>
          { Answers.accepting with
            write := .rejected } }
    ¬ LedgerAgrees (Caisse.step cfg) [inp]
      (Caisse.enter (World.start (fun _ => emptyDebit) .caisse)) := by
  intro cfg inp hagrees
  let s : Loop Unit Rat :=
    Caisse.enter (World.start (fun _ => emptyDebit) .caisse)
  have hstep : (Caisse.step cfg inp s).isSome = true := by
    decide +kernel
  rcases Option.isSome_iff_exists.mp hstep with ⟨s', hs'⟩
  have hmem : (⟨s, inp, s'⟩ : Transition (Input Rat) (Loop Unit Rat)) ∈
      Run.transitions (Caisse.step cfg) [inp] s := by
    rw [Run.transitions_single hs']
    exact List.mem_singleton_self _
  have hreaches := (Caisse.balanced_iff_reaches (by decide +kernel) hs').mp
    (ledgerAgrees_iff.mp hagrees _ hmem)
  have hten := (hreaches ⟨fun _ => 1, 0x4⟩ (by decide +kernel)).deposit
    (by decide +kernel) (by decide +kernel) (by decide +kernel)
    (by decide +kernel)
  exact (hten.reaches.written (by decide +kernel)).right rfl

end BeeGadz
