import Mathlib.Algebra.Order.Field.Rat
import Mathlib.Tactic.Ring
import BeeGadz.Bar

/-!
# The settlement of an order

The two stages of the settlement one after the other, with what each of them
does to the order, the card and the database.
-/

namespace BeeGadz

open Foundation

namespace Bar

/-!
## Prices
-/

def saleRow (β : Type) [FloatCell β] (cfg : Config) (conso : String × Rat)
    (n : Nat) : Row where
  kind := .sale
  pianss := cfg.pianss
  command := conso.1 ++ " x" ++ toString n
  price := FloatCell.times β conso.2 n

def saleRows (β : Type) [FloatCell β] (cfg : Config)
    (entries : List (Sigma fun _ : Nat => Nat)) :
    List Row :=
  entries.filterMap fun i => (cfg.consos[i.1]?).map fun conso =>
    saleRow β cfg conso i.2

def ticketRow (cfg : Config) (conso : String × Rat) : Row where
  kind := .ticket
  pianss := cfg.pianss
  command := "ticket " ++ conso.1
  price := conso.2

variable {β : Type}

def rowEvents (uid : Uid) (rows : List Row) : List (Event β) :=
  rows.map fun row => .request uid (.history row)

variable [FloatCell β]

theorem addPrices_eq [ExactFloat β] {cfg : Config}
    {entries : List (Sigma fun _ : Nat => Nat)} {start price : Rat}
    (h : addPrices β cfg start entries = .ok price) :
    price = start + ((saleRows β cfg entries).map Row.price).sum := by
  induction entries generalizing start with
  | nil =>
      cases h
      simp [saleRows]
  | cons i rest ih =>
      cases hconso : cfg.getConso i.1 with
      | error e => simp [addPrices, hconso] at h
      | ok conso =>
          simp only [addPrices, hconso] at h
          have hget := Config.getConso_eq_ok.mp hconso
          have hrows : saleRows β cfg (i :: rest) =
              saleRow β cfg conso i.2 :: saleRows β cfg rest := by
            simp [saleRows, hget]
          rw [ih h, hrows, List.map_cons, List.sum_cons, ← add_assoc,
            FloatCell.round_eq]
          rfl

theorem addPrices_error {cfg : Config}
    {entries : List (Sigma fun _ : Nat => Nat)} {start : Rat} {e : Exn}
    (h : addPrices β cfg start entries = .error e) : e = .exception := by
  induction entries generalizing start with
  | nil => cases h
  | cons i rest ih =>
      cases hconso : cfg.getConso i.1 with
      | error other =>
          simp only [addPrices, hconso] at h
          cases h
          exact Config.getConso_error hconso
      | ok conso =>
          simp only [addPrices, hconso] at h
          exact ih h

theorem saleRows_kind {cfg : Config}
    {entries : List (Sigma fun _ : Nat => Nat)} {row : Row}
    (h : row ∈ saleRows β cfg entries) : row.kind = .sale := by
  rcases List.mem_filterMap.mp h with ⟨i, _, hi⟩
  rcases Option.map_eq_some_iff.mp hi with ⟨conso, _, rfl⟩
  rfl

theorem saleRows_nonneg [ExactFloat β] {cfg : Config} (hcfg : cfg.PricesNonneg)
    {entries : List (Sigma fun _ : Nat => Nat)} {row : Row}
    (h : row ∈ saleRows β cfg entries) : 0 ≤ row.price := by
  rcases List.mem_filterMap.mp h with ⟨i, _, hi⟩
  rcases Option.map_eq_some_iff.mp hi with ⟨conso, hconso, rfl⟩
  show 0 ≤ FloatCell.times β conso.2 i.2
  rw [FloatCell.times_eq]
  exact mul_nonneg (hcfg conso (List.mem_of_getElem? hconso))
    (Nat.cast_nonneg i.2)

theorem sendEntries_run {cfg : Config}
    {entries : List (Sigma fun _ : Nat => Nat)} {start price : Rat}
    (h : addPrices β cfg start entries = .ok price) (c : Card β)
    (w : World β) :
    sendEntries cfg entries ⟨c, w⟩ =
      (.ok (), ⟨c, w.addLog (rowEvents c.uid (saleRows β cfg entries))⟩) := by
  induction entries generalizing start w with
  | nil => simp [sendEntries, saleRows, rowEvents]
  | cons i rest ih =>
      cases hconso : cfg.getConso i.1 with
      | error e => simp [addPrices, hconso] at h
      | ok conso =>
          simp only [addPrices, hconso] at h
          have hget := Config.getConso_eq_ok.mp hconso
          have hrows : saleRows β cfg (i :: rest) =
              saleRow β cfg conso i.2 :: saleRows β cfg rest := by
            simp [saleRows, hget]
          have hlookup : Prog.ofExcept (cfg.getConso i.1)
              (⟨c, w⟩ : Session β) = (.ok conso, ⟨c, w⟩) := by
            rw [hconso, Prog.ofExcept_apply]
          rw [sendEntries, Prog.bind_of_ok _ hlookup,
            Prog.bind_of_ok _ (Session.sendHistory_apply _ _ _ _ c w), ih h,
            hrows]
          simp [rowEvents, saleRow]

/-!
## The stages
-/

def ticketSays (cfg : Config) (conso : String × Rat) (c : Card β)
    (pass : Pass β) : List (Event β) :=
  .info ("Ticket " ++ conso.1 ++ " utilisé.") ::
    .request c.uid (.history (ticketRow cfg conso)) ::
      c.ticketTaken.writeSays pass

theorem useTicket_apply (cfg : Config) (inp : Input β) (l : Locals)
    (c : Card β) (r : Bool) (w : World β) :
    useTicket cfg inp ⟨l, some c, r, w⟩ =
      (if TicketApplies c l.conso then takeTicket cfg inp c l.conso
        else pure ()) ⟨l, some c, r, w⟩ := rfl

theorem useTicket_skip {cfg : Config} {inp : Input β} {l : Locals}
    {c : Card β} (h : ¬ TicketApplies c l.conso) (r : Bool) (w : World β) :
    useTicket cfg inp ⟨l, some c, r, w⟩ = (.ok (), ⟨l, some c, r, w⟩) := by
  rw [useTicket_apply, if_neg h, Prog.pure_apply]

def World.ticketSent (cfg : Config) (conso : String × Rat) (uid : Uid)
    (w : World β) : World β :=
  ((w.addLog [.info ("Ticket " ++ conso.1 ++ " utilisé.")]).command
    "TICKET UTILISE" 3 1).addLog
      [.request uid (.history (ticketRow cfg conso))]

omit [FloatCell β] in
theorem says_ticketSent (cfg : Config) (conso : String × Rat) (uid : Uid)
    (w : World β) :
    w.Says (World.ticketSent cfg conso uid w)
      [.info ("Ticket " ++ conso.1 ++ " utilisé."),
        .request uid (.history (ticketRow cfg conso))] :=
  ⟨_, List.append_assoc _ _ _, rfl⟩

theorem useTicket_of_getConso (cfg : Config) (inp : Input β) {l : Locals}
    {c : Card β} (h : TicketApplies c l.conso) {conso : String × Rat}
    (hconso : cfg.getConso c.getTicket.toNat = .ok conso) (r : Bool)
    (w : World β) :
    useTicket cfg inp ⟨l, some c, r, w⟩ =
      Loop.onCard (Session.decrementTicket inp.ticketing)
        ⟨{ l with conso := decrement l.conso c.getTicket.toNat }, some c, r,
          World.ticketSent cfg conso c.uid w⟩ := by
  rw [useTicket_apply, if_pos h, takeTicket, Prog.bind_apply,
    Prog.ofExcept_apply, hconso]
  rfl

theorem useTicket_run (cfg : Config) (inp : Input β) {l : Locals}
    {c : Card β} (hc : c.Classic) (h : TicketApplies c l.conso) (r : Bool)
    (w : World β) :
    match cfg.getConso c.getTicket.toNat with
    | .error e =>
        useTicket cfg inp ⟨l, some c, r, w⟩ =
          (.error e, ⟨l, some c, r, w⟩)
    | .ok conso =>
        exists (c' : Card β) (w' : World β),
          Card.SameFrame c c' ∧ Card.SameBlocks c.ticketTaken c' ∧
            Card.Flushed c.ticketTaken inp.ticketing w.mem w'.mem 4 8 ∧
            w.Says w' (ticketSays cfg conso c inp.ticketing) ∧
            useTicket cfg inp ⟨l, some c, r, w⟩ =
              (.ok (),
                ⟨{ l with conso := decrement l.conso c.getTicket.toNat },
                  some c', r, w'⟩) := by
  cases hconso : cfg.getConso c.getTicket.toNat with
  | error e =>
      rw [useTicket_apply, if_pos h, takeTicket, Prog.bind_apply,
        Prog.ofExcept_apply, hconso]
  | ok conso =>
      rcases Session.decrementTicket_run inp.ticketing hc
        (World.ticketSent cfg conso c.uid w) with
        ⟨c', w', hframe, hblocks, hflushed, hsay, hrun⟩
      refine ⟨c', w', hframe, hblocks, hflushed,
        (says_ticketSent cfg conso c.uid w).trans hsay, ?_⟩
      rw [useTicket_of_getConso cfg inp h hconso, Loop.onCard_apply, hrun]

theorem charge_apply (cfg : Config) (hash : HashOrder) (inp : Input β)
    (l : Locals) (c : Card β) (r : Bool) (w : World β) :
    charge cfg hash inp ⟨l, some c, r, w⟩ =
      match getPrice β cfg hash l.conso with
      | .error e => (.error e, ⟨l, some c, r, w⟩)
      | .ok price =>
          (if c.getCredit ≥ price then pay cfg hash inp price l.conso
            else refuse) ⟨l, some c, r, w⟩ := by
  have hstart : charge cfg hash inp ⟨l, some c, r, w⟩ =
      (Prog.ofExcept (getPrice β cfg hash l.conso) >>= fun price =>
        if c.getCredit ≥ price then pay cfg hash inp price l.conso
        else refuse) ⟨l, some c, r, w⟩ := rfl
  rw [hstart, Prog.bind_apply, Prog.ofExcept_apply]
  cases getPrice β cfg hash l.conso <;> rfl

def paySays (cfg : Config) (hash : HashOrder) (order : Order) (c : Card β)
    (pass : Pass β) (price : Rat) : List (Event β) :=
  [.info "OK"] ++ c.chargeSays pass price ++
    rowEvents c.uid (saleRows β cfg (hash.entries order))

omit [FloatCell β] in
theorem filter_notable_rowEvents (uid : Uid) (rows : List Row) :
    (rowEvents uid rows : List (Event β)).filter Event.notable =
      rowEvents uid rows := by
  rw [List.filter_eq_self]
  intro e he
  rcases List.mem_map.mp he with ⟨row, _, rfl⟩
  rfl

theorem pay_run {cfg : Config} {hash : HashOrder} (inp : Input β)
    {order : Order} {price : Rat} (hprice : getPrice β cfg hash order = .ok price)
    {c : Card β} (hc : c.Classic) (l : Locals) (r : Bool) (w : World β) :
    exists (c' : Card β) (w' : World β),
      Session.Charged inp.writing price c w.mem c' w'.mem ∧
        w.Says w' (paySays cfg hash order c inp.writing price) ∧
        pay cfg hash inp price order ⟨l, some c, r, w⟩ =
          (.ok (), ⟨l, some c', r, w'⟩) := by
  let w₁ : World β := (w.addLog [.info "OK"]).command "DEBUCQUAGE OK" 3 1
  rcases Session.decrementCredit_run inp.writing price hc w₁ with
    ⟨c', w₂, hcharged, hsay, hrun⟩
  have hsaid : w.Says w₁ [.info "OK"] := ⟨[.info "OK"], rfl, rfl⟩
  refine ⟨c', w₂.addLog
    (rowEvents c'.uid (saleRows β cfg (hash.entries order))),
    ⟨hcharged.frame, hcharged.free, hcharged.paid⟩, ?_, ?_⟩
  · have hall := (hsaid.trans hsay).addLog
      (rowEvents c'.uid (saleRows β cfg (hash.entries order)))
    rw [filter_notable_rowEvents, hcharged.frame.uid] at hall
    rw [hcharged.frame.uid]
    exact hall
  · have hcharge : Loop.onCard (Session.decrementCredit inp.writing price)
        (⟨l, some c, r, w₁⟩ : Loop Locals β) =
          (.ok (), ⟨l, some c', r, w₂⟩) := by
      rw [Loop.onCard_apply, hrun]
    have hsend : Loop.onCard (sendEntries cfg (hash.entries order))
        (⟨l, some c', r, w₂⟩ : Loop Locals β) =
          (.ok (), ⟨l, some c', r, w₂.addLog
            (rowEvents c'.uid (saleRows β cfg (hash.entries order)))⟩) := by
      rw [Loop.onCard_apply, sendEntries_run hprice]
    have hstart : pay cfg hash inp price order ⟨l, some c, r, w⟩ =
        (do
          Loop.onCard (Session.decrementCredit inp.writing price)
          Loop.onCard (sendEntries cfg (hash.entries order)) :
          LoopM Locals β Unit) ⟨l, some c, r, w₁⟩ := rfl
    rw [hstart, Prog.bind_of_ok _ hcharge, hsend]

omit [FloatCell β] in
theorem refuse_apply (l : Locals) (c : Option (Card β)) (r : Bool)
    (w : World β) :
    refuse ⟨l, c, r, w⟩ =
      (.ok (), ⟨l, c, r,
        (w.addLog [.info "Pas assez d'argent sur la carte !"]).command
          "PAS ASSEZ D'ARGENT" 3 1⟩) := rfl

/-!
## Refused settlements
-/

def Refused (s s' : Loop Locals β) : Prop :=
  .info "Pas assez d'argent sur la carte !" ∈ s.world.since s'.world

theorem ticketTaken_getCredit {c c' : Card β}
    (h : Card.SameBlocks c.ticketTaken c') : c'.getCredit = c.getCredit := by
  have h0 : c'.block 1 0 = c.block 1 0 :=
    (h 1 0).trans (c.edit_block_of_ne _ (by decide))
  have h1 : c'.block 1 1 = c.block 1 1 :=
    (h 1 1).trans (c.edit_block_of_ne _ (by decide))
  unfold Card.getCredit
  rw [h1, if_congr (Card.isDebit_congr (congrArg Block.data h0)) rfl rfl]

/-- A settlement in which the use of a ticket throws or is not reached ends in
its second stage. -/
theorem settle_of_useTicket {cfg : Config} {hash : HashOrder}
    {inp : Input β} {s s' : Loop Locals β}
    (h : useTicket cfg inp s = (.ok (), s')) :
    settle cfg hash inp s = charge cfg hash inp s' :=
  Prog.bind_of_ok _ h

theorem settle_of_error {cfg : Config} {hash : HashOrder} {inp : Input β}
    {s s' : Loop Locals β} {e : Exn}
    (h : useTicket cfg inp s = (.error e, s')) :
    settle cfg hash inp s = (.error e, s') :=
  Prog.bind_of_error _ h

theorem refusal_not_mem_paySays (cfg : Config) (hash : HashOrder)
    (order : Order) (c : Card β) (pass : Pass β) (price : Rat) :
    .info "Pas assez d'argent sur la carte !" ∉
      paySays cfg hash order c pass price := by
  have hcharge : .info "Pas assez d'argent sur la carte !" ∉
      c.chargeSays pass price := by
    unfold Card.chargeSays
    split
    · simp
    · intro h
      rcases Card.mem_writeSays h with h | h <;> simp at h
  simp [paySays, hcharge, rowEvents]

theorem refusal_not_mem_ticketSays (cfg : Config) (conso : String × Rat)
    (c : Card β) (pass : Pass β) :
    .info "Pas assez d'argent sur la carte !" ∉
      ticketSays cfg conso c pass := by
  intro h
  simp only [ticketSays, List.mem_cons, Event.info.injEq, reduceCtorEq,
    false_or] at h
  cases h with
  | inl hmessage =>
      have hhead := congrArg (fun text => text.toList.head?) hmessage
      simp [String.toList_append] at hhead
  | inr hwrite =>
      rcases Card.mem_writeSays hwrite with h | h <;> simp at h

def ticketCard (target : Target) (keys : Vec UInt8) : Card β :=
  (Card.fresh target keys).debitRecord.edit 2 fun data =>
    (data.putFirst 1).putSecond 0

/-- One unit at 2.1 and three at 3.4 cost more than 12.3, since every product and
sum is rounded. -/
example :
    let price := FloatCell.round UInt8
    let cfg : Config :=
      ⟨[("Soft", price (21 / 10)), ("Biere", price (34 / 10))], "", 0,
        Vec.replicate 6 0xff, Vec.replicate 6 0xff⟩
    exists total, getPrice UInt8 cfg HashOrder.filled
        (increment (increment (increment (increment ∅ 0) 1) 1) 1) =
          .ok total ∧ price (123 / 10) < total :=
  ⟨6448743 / 524288, by decide +kernel, by decide +kernel⟩

end Bar

end BeeGadz
